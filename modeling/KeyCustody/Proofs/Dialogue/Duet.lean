import KeyCustody.Proofs.Dialogue.Rules

/-!
# Two dialogues with one store

Two parties have a dialogue each, and both with the same store.  A dialogue
moves on by one call at a time, and between two of its calls the other dialogue
may make any number of calls of its own.  A schedule tells who moves when.

What one party achieves can be told from its own dialogue: a dialogue withstands
the other party if it ends as it should whatever calls that party makes in
between, as long as it abides by certain rules.  The rules tell which call may
follow which exchange.
-/

namespace KeyCustody

/-- One of two parties that share a store. -/
inductive Side
  | left
  | right
deriving DecidableEq, Repr

namespace Side

def other : Side → Side
  | left => right
  | right => left

@[simp]
theorem other_other (side : Side) : side.other.other = side := by
  cases side <;> rfl

theorem other_ne (side : Side) : side.other ≠ side := by
  cases side <;> decide

theorem eq_other_of_ne {side another : Side} (differs : another ≠ side) :
    another = side.other := by
  cases side <;> cases another <;> first | rfl | exact absurd rfl differs

end Side

/-- A state of the store that two parties share, and the exchanges that each of
them has had so far, oldest first. -/
structure Shared (σ : Type) where
  store : σ
  lines : List (Side × Exchange) := []

/-- Two dialogues with one store. -/
structure Duet (σ α : Type) where
  part : Side → Dialogue α
  shared : Shared σ

variable {σ α β : Type}

/-- The exchanges of one side. -/
def linesOf (side : Side) (lines : List (Side × Exchange)) : List Exchange :=
  lines.filterMap fun line => if line.1 = side then some line.2 else none

@[simp]
theorem linesOf_append (side : Side) (early late : List (Side × Exchange)) :
    linesOf side (early ++ late) = linesOf side early ++ linesOf side late :=
  List.filterMap_append

@[simp]
theorem linesOf_own (side : Side) (exchange : Exchange) :
    linesOf side [(side, exchange)] = [exchange] := by
  simp [linesOf]

@[simp]
theorem linesOf_other (side : Side) (exchange : Exchange) :
    linesOf side.other [(side, exchange)] = [] := by
  simp [linesOf, side.other_ne.symm]

@[simp]
theorem linesOf_of_other (side : Side) (exchange : Exchange) :
    linesOf side [(side.other, exchange)] = [] := by
  simp [linesOf, side.other_ne]

namespace Shared

def connect (service : Service σ) (shared : Shared σ) :
    Outcome Handle × Shared σ :=
  let reply := service.connect shared.store
  (reply.1, { shared with store := reply.2 })

/-- Answers a call of one side. -/
def answer (service : Service σ) (side : Side) (client : Handle) (call : Call)
    (shared : Shared σ) : Outcome call.Reply × Shared σ :=
  let reply := service.answer client call shared.store
  (reply.1,
    { store := reply.2, lines := shared.lines ++ [(side, ⟨call, reply.1⟩)] })

/-- The last exchange of one side. -/
def last? (side : Side) (shared : Shared σ) : Option Exchange :=
  (linesOf side shared.lines).getLast?

theorem last?_answer (service : Service σ) (side : Side) (client : Handle)
    (call : Call) (shared : Shared σ) :
    (shared.answer service side client call).2.last? side =
      some ⟨call, (shared.answer service side client call).1⟩ := by
  simp [last?, answer]

theorem last?_answer_other (service : Service σ) (side : Side)
    (client : Handle) (call : Call) (shared : Shared σ) :
    (shared.answer service side client call).2.last? side.other =
      shared.last? side.other := by
  simp [last?, answer]

/-- What a side may come upon after the other one, the intruder, has made calls
by the rules. -/
inductive Disturbed (service : Service σ) (intruder : Side) (rules : Rules)
    (before : Shared σ) : Shared σ → Prop
  | calm : Disturbed service intruder rules before before
  | connect {shared : Shared σ} :
      Disturbed service intruder rules before shared →
      Disturbed service intruder rules before (shared.connect service).2
  | call {shared : Shared σ} (client : Handle) {call : Call} :
      Disturbed service intruder rules before shared →
      rules (shared.last? intruder) call →
      Disturbed service intruder rules before
        (shared.answer service intruder client call).2

theorem Disturbed.trans {service : Service σ} {intruder : Side} {rules : Rules}
    {first second third : Shared σ}
    (early : Disturbed service intruder rules first second)
    (late : Disturbed service intruder rules second third) :
    Disturbed service intruder rules first third := by
  induction late with
  | calm => exact early
  | connect _ ih => exact ih.connect
  | call client _ permitted ih => exact ih.call client permitted

/-- What connecting and every call by the rules keep is kept by the intruder. -/
theorem Disturbed.keeps {service : Service σ} {intruder : Side} {rules : Rules}
    {kept : Shared σ → Prop} {before after : Shared σ}
    (disturbed : Disturbed service intruder rules before after)
    (connects : ∀ shared, kept shared → kept (shared.connect service).2)
    (answers : ∀ client call shared, rules (shared.last? intruder) call →
      kept shared → kept (shared.answer service intruder client call).2)
    (held : kept before) : kept after := by
  induction disturbed with
  | calm => exact held
  | connect _ ih => exact connects _ ih
  | call client _ permitted ih => exact answers client _ _ permitted ih

end Shared

namespace Dialogue

open Shared

/-- One move of a dialogue: it connects, makes a call or takes a note. -/
def move (service : Service σ) (side : Side) :
    Dialogue α → Shared σ → Dialogue α × Shared σ
  | .result value, shared => (.result value, shared)
  | .connect next, shared =>
      let reply := shared.connect service
      (next reply.1, reply.2)
  | .ask client call next, shared =>
      let reply := shared.answer service side client call
      (next reply.1, reply.2)
  | .note _ next, shared => (next, shared)

/-- The result of a dialogue that has come to its end. -/
def result? : Dialogue α → Option α
  | .result value => some value
  | _ => none

/-- Whatever calls the other side makes by the rules before each move of a
dialogue and at its end, it ends as `post` says. -/
def Withstands (service : Service σ) (side : Side) (rules : Rules)
    (post : α → Shared σ → Prop) : Dialogue α → Shared σ → Prop
  | .result value, shared => ∀ reached,
      Disturbed service side.other rules shared reached → post value reached
  | .connect next, shared => ∀ reached,
      Disturbed service side.other rules shared reached →
      let reply := reached.connect service
      (next reply.1).Withstands service side rules post reply.2
  | .ask client call next, shared => ∀ reached,
      Disturbed service side.other rules shared reached →
      let reply := reached.answer service side client call
      (next reply.1).Withstands service side rules post reply.2
  | .note _ next, shared => next.Withstands service side rules post shared

variable {service : Service σ} {side : Side} {rules : Rules}
  {kind : α → Prop}
  {post : α → Shared σ → Prop} {ending : β → Shared σ → Prop}
  {dialogue : Dialogue α} {shared : Shared σ}

theorem Withstands.disturbed
    (withstands : dialogue.Withstands service side rules post shared)
    {reached : Shared σ}
    (disturbed : Disturbed service side.other rules shared reached) :
    dialogue.Withstands service side rules post reached := by
  induction dialogue with
  | result value => exact fun _ late => withstands _ (disturbed.trans late)
  | connect next ih => exact fun _ late => withstands _ (disturbed.trans late)
  | ask client call next ih =>
      exact fun _ late => withstands _ (disturbed.trans late)
  | note entry next ih => exact ih withstands

/-- What the first of two dialogues achieves lasts until the second one goes
on. -/
theorem Withstands.bind {after : α → Dialogue β}
    (first : dialogue.Withstands service side rules post shared)
    (rest : ∀ value reached,
      (∀ later, Disturbed service side.other rules reached later →
        post value later) →
      (after value).Withstands service side rules ending reached) :
    (dialogue.bind after).Withstands service side rules ending shared := by
  induction dialogue generalizing shared with
  | result value => exact rest value shared first
  | connect next ih =>
      exact fun reached disturbed => ih _ (first reached disturbed)
  | ask client call next ih =>
      exact fun reached disturbed => ih _ (first reached disturbed)
  | note entry next ih => exact ih first

theorem withstands_any (dialogue : Dialogue α) (service : Service σ)
    (side : Side) (rules : Rules) (shared : Shared σ) :
    dialogue.Withstands service side rules (fun _ _ => True) shared := by
  induction dialogue generalizing shared with
  | result value => exact fun _ _ => trivial
  | connect next ih => exact fun _ _ => ih _ _
  | ask client call next ih => exact fun _ _ => ih _ _
  | note entry next ih => exact ih _

theorem Withstands.move
    (withstands : dialogue.Withstands service side rules post shared) :
    (dialogue.move service side shared).1.Withstands service side rules post
      (dialogue.move service side shared).2 := by
  cases dialogue with
  | result value => exact withstands
  | connect next => exact withstands shared .calm
  | ask client call next => exact withstands shared .calm
  | note entry next => exact withstands

theorem last?_move (dialogue : Dialogue α) (service : Service σ) (side : Side)
    (shared : Shared σ) :
    (dialogue.move service side shared).2.last? side.other =
      shared.last? side.other := by
  cases dialogue with
  | ask client call next => exact last?_answer_other service side client call _
  | _ => rfl

/-- To the other side a move is a disturbance, and the dialogue goes on by the
rules. -/
theorem Abides.move (abides : dialogue.Abides rules kind (shared.last? side))
    (service : Service σ) :
    let done := dialogue.move service side shared
    done.1.Abides rules kind (done.2.last? side) ∧
      Disturbed service side rules shared done.2 := by
  cases dialogue with
  | result value => exact ⟨abides, .calm⟩
  | connect next => exact ⟨abides _, .connect .calm⟩
  | ask client call next =>
      refine ⟨?_, .call client .calm abides.1⟩
      have goesOn := abides.2 (shared.answer service side client call).1
      rw [← last?_answer] at goesOn
      exact goesOn
  | note entry next => exact ⟨abides, .calm⟩

end Dialogue

namespace Duet

open Dialogue

/-- The duet after a move of one side. -/
def move (service : Service σ) (duet : Duet σ α) (side : Side) : Duet σ α :=
  let done := (duet.part side).move service side duet.shared
  { part := fun another => if another = side then done.1 else duet.part another
    shared := done.2 }

def play (service : Service σ) (schedule : List Side) (duet : Duet σ α) :
    Duet σ α :=
  schedule.foldl (move service) duet

/-- Whatever the schedule is, a dialogue that withstands all that the other one
may do by the rules ends as it should. -/
theorem play_withstands {service : Service σ} {side : Side} {rules : Rules}
    {post : α → Shared σ → Prop} {kind : α → Prop} {duet : Duet σ α}
    (withstands : (duet.part side).Withstands service side rules post
      duet.shared)
    (abides : (duet.part side.other).Abides rules kind
      (duet.shared.last? side.other))
    (schedule : List Side) {value : α}
    (ends : ((duet.play service schedule).part side).result? = some value) :
    post value (duet.play service schedule).shared := by
  induction schedule generalizing duet with
  | nil =>
      change (duet.part side).result? = some value at ends
      change post value duet.shared
      generalize duet.part side = dialogue at withstands ends
      cases dialogue with
      | result reached =>
          cases ends
          exact withstands _ .calm
      | connect next => cases ends
      | ask client call next => cases ends
      | note entry next => cases ends
  | cons mover later ih =>
      have there : side.other ≠ side := side.other_ne
      by_cases own : mover = side
      · subst mover
        refine @ih (duet.move service side) ?_ ?_ ends
        · simpa [move] using withstands.move
        · simpa [move, there, last?_move] using abides
      · obtain rfl : mover = side.other := Side.eq_other_of_ne own
        obtain ⟨goesOn, disturbed⟩ := abides.move service
        refine @ih (duet.move service side.other) ?_ ?_ ends
        · simpa [move, there.symm] using withstands.disturbed disturbed
        · simpa [move] using goesOn

end Duet

end KeyCustody
