import KeyCustody.Call
import KeyCustody.Warning

/-!
# Dialogues with the store

Work on the store is a dialogue: it connects clients, makes calls one after the
other and goes on in a way that depends on each reply, until it has a result.
On the way it takes notes of what an observer may want to know.

A dialogue says nothing about the store.  A service is one side of the store: a
state together with its way of answering.  Running a dialogue with a service
gives the result and the state that is left.
-/

namespace KeyCustody

/-- The two actions of an operation. -/
inductive Phase
  | execute
  | rollback
deriving DecidableEq, Repr

/-- A note on work in progress. -/
inductive Note
  /-- An action of the operation at a position of its queue was invoked and
  ended with the given outcome.  Scripted operations have a label. -/
  | acted (index : Nat) (label : Option String) (phase : Phase)
      (outcome : Outcome Unit)
  | warned (warning : Warning)
deriving DecidableEq, Repr

/-- Work on the store that ends with a result of type `α`. -/
inductive Dialogue (α : Type) : Type
  | result (value : α)
  /-- Connects a client and goes on with its handle. -/
  | connect (next : Outcome Handle → Dialogue α)
  /-- Makes a call through a client and goes on with the reply. -/
  | ask (client : Handle) (call : Call)
      (next : Outcome call.Reply → Dialogue α)
  | note (entry : Note) (next : Dialogue α)

namespace Dialogue

variable {α β γ σ : Type}

/-- Goes on with another dialogue that depends on the result. -/
def bind : Dialogue α → (α → Dialogue β) → Dialogue β
  | .result value, after => after value
  | .connect next, after => .connect fun reply => (next reply).bind after
  | .ask client call next, after =>
      .ask client call fun reply => (next reply).bind after
  | .note entry next, after => .note entry (next.bind after)

instance : Monad Dialogue where
  pure := .result
  bind := bind

@[simp]
theorem pure_eq_result (value : α) :
    (pure value : Dialogue α) = .result value :=
  rfl

@[simp]
theorem bind_eq_bind (dialogue : Dialogue α) (after : α → Dialogue β) :
    dialogue >>= after = dialogue.bind after :=
  rfl

@[simp]
theorem result_bind (value : α) (after : α → Dialogue β) :
    (result value).bind after = after value :=
  rfl

@[simp]
theorem bind_result (dialogue : Dialogue α) :
    dialogue.bind result = dialogue := by
  induction dialogue with
  | result value => rfl
  | connect next hypothesis => exact congrArg connect (funext hypothesis)
  | ask client call next hypothesis =>
      exact congrArg (ask client call) (funext hypothesis)
  | note entry next hypothesis => exact congrArg (note entry) hypothesis

theorem bind_assoc (dialogue : Dialogue α) (first : α → Dialogue β)
    (second : β → Dialogue γ) :
    (dialogue.bind first).bind second =
      dialogue.bind fun value => (first value).bind second := by
  induction dialogue with
  | result value => rfl
  | connect next hypothesis => exact congrArg connect (funext hypothesis)
  | ask client call next hypothesis =>
      exact congrArg (ask client call) (funext hypothesis)
  | note entry next hypothesis => exact congrArg (note entry) hypothesis

instance : LawfulMonad Dialogue := LawfulMonad.mk'
  Dialogue
  (fun dialogue => bind_result dialogue)
  (fun value after => result_bind value after)
  (fun dialogue first second => bind_assoc dialogue first second)

def call (client : Handle) (request : Call) :
    Dialogue (Outcome request.Reply) :=
  .ask client request .result

def connected : Dialogue (Outcome Handle) :=
  .connect .result

def noted (entry : Note) : Dialogue Unit :=
  .note entry (.result ())

end Dialogue

/-- One side of the store: how it connects clients and answers calls, each time
from a state and with the state that is left. -/
structure Service (σ : Type) where
  connect : σ → Outcome Handle × σ
  answer : Handle → (call : Call) → σ → Outcome call.Reply × σ

/-- A state of the store together with the notes taken so far, oldest first. -/
structure World (σ : Type) where
  store : σ
  notes : List Note := []

namespace Dialogue

variable {α β σ : Type}

def run (service : Service σ) : Dialogue α → World σ → α × World σ
  | .result value, world => (value, world)
  | .connect next, world =>
      let reply := service.connect world.store
      (next reply.1).run service { world with store := reply.2 }
  | .ask client call next, world =>
      let reply := service.answer client call world.store
      (next reply.1).run service { world with store := reply.2 }
  | .note entry next, world =>
      next.run service { world with notes := world.notes ++ [entry] }

@[simp]
theorem run_result (service : Service σ) (value : α) (world : World σ) :
    (result value).run service world = (value, world) :=
  rfl

/-- Running a dialogue and then another one is running them one after the
other. -/
@[simp]
theorem run_bind (service : Service σ) (dialogue : Dialogue α)
    (after : α → Dialogue β) (world : World σ) :
    (dialogue.bind after).run service world =
      (after (dialogue.run service world).1).run service
        (dialogue.run service world).2 := by
  induction dialogue generalizing world with
  | result value => rfl
  | connect next hypothesis => exact hypothesis _ _
  | ask client call next hypothesis => exact hypothesis _ _
  | note entry next hypothesis => exact hypothesis _

end Dialogue

end KeyCustody
