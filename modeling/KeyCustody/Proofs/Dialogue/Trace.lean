import KeyCustody.MemoryStore

/-!
# What a dialogue does on its way

The trace of a dialogue tells the connections, calls and notes it makes when it
runs with a service, in order.  Its requests are those that a store in memory
sees.
-/

namespace KeyCustody

/-- A single thing that a dialogue does. -/
inductive Event
  | connected
  | asked (client : Handle) (call : Call)
  | noted (entry : Note)
deriving DecidableEq

namespace Event

/-- The call that is made, and the client it is made through. -/
def request? : Event → Option (Handle × Call)
  | .asked client call => some (client, call)
  | _ => none

/-- What a store in memory remembers. -/
def sighting? : Event → Option Sighting
  | .connected => some .connect
  | .asked _ call => some call.sighting
  | .noted _ => none

/-- If a call is made, it is one of the given ones. -/
def Asks (calls : Call → Prop) (event : Event) : Prop :=
  ∀ client call, event = .asked client call → calls call

theorem asks_asked {calls : Call → Prop} {client : Handle} {call : Call} :
    Asks calls (.asked client call) ↔ calls call := by
  constructor
  · exact fun asks => asks client call rfl
  · rintro permitted _ _ ⟨⟩
    exact permitted

theorem asks_noted (calls : Call → Prop) (entry : Note) :
    Asks calls (.noted entry) := by
  rintro _ _ ⟨⟩

end Event

namespace Dialogue

variable {α β σ : Type}

/-- What a dialogue does when it runs. -/
def trace (service : Service σ) : Dialogue α → World σ → List Event
  | .result _, _ => []
  | .connect next, world =>
      let reply := service.connect world.store
      .connected :: (next reply.1).trace service { world with store := reply.2 }
  | .ask client call next, world =>
      let reply := service.answer client call world.store
      .asked client call ::
        (next reply.1).trace service { world with store := reply.2 }
  | .note entry next, world =>
      .noted entry ::
        next.trace service { world with notes := world.notes ++ [entry] }

def requests (service : Service σ) (dialogue : Dialogue α) (world : World σ) :
    List (Handle × Call) :=
  (dialogue.trace service world).filterMap Event.request?

@[simp]
theorem trace_result (service : Service σ) (value : α) (world : World σ) :
    (result value).trace service world = [] :=
  rfl

@[simp]
theorem trace_noted (service : Service σ) (entry : Note) (world : World σ) :
    (noted entry).trace service world = [.noted entry] :=
  rfl

@[simp]
theorem trace_bind (service : Service σ) (dialogue : Dialogue α)
    (after : α → Dialogue β) (world : World σ) :
    (dialogue.bind after).trace service world =
      dialogue.trace service world ++
        (after (dialogue.run service world).1).trace service
          (dialogue.run service world).2 := by
  induction dialogue generalizing world with
  | result value => rfl
  | connect next ih => exact congrArg (Event.connected :: ·) (ih _ _)
  | ask client call next ih =>
      exact congrArg (Event.asked client call :: ·) (ih _ _)
  | note entry next ih => exact congrArg (Event.noted entry :: ·) (ih _)

theorem requests_bind (service : Service σ) (dialogue : Dialogue α)
    (after : α → Dialogue β) (world : World σ) :
    (dialogue.bind after).requests service world =
      dialogue.requests service world ++
        (after (dialogue.run service world).1).requests service
          (dialogue.run service world).2 := by
  rw [requests, trace_bind, List.filterMap_append]
  rfl

/-- Whatever the replies are, a dialogue does only what is allowed and ends only
with results of a kind. -/
def Assures (allowed : Event → Prop) (kind : α → Prop) : Dialogue α → Prop
  | .result value => kind value
  | .connect next =>
      allowed .connected ∧ ∀ reply, (next reply).Assures allowed kind
  | .ask client call next =>
      allowed (.asked client call) ∧
        ∀ reply, (next reply).Assures allowed kind
  | .note entry next => allowed (.noted entry) ∧ next.Assures allowed kind

variable {allowed : Event → Prop} {kind : α → Prop}

theorem Assures.bind {last : β → Prop} {dialogue : Dialogue α}
    {after : α → Dialogue β} (first : dialogue.Assures allowed kind)
    (rest : ∀ value, kind value → (after value).Assures allowed last) :
    (dialogue.bind after).Assures allowed last := by
  induction dialogue with
  | result value => exact rest value first
  | connect next ih => exact ⟨first.1, fun reply => ih reply (first.2 reply)⟩
  | ask client call next ih =>
      exact ⟨first.1, fun reply => ih reply (first.2 reply)⟩
  | note entry next ih => exact ⟨first.1, ih first.2⟩

theorem Assures.mono {wider : Event → Prop} {wideKind : α → Prop}
    {dialogue : Dialogue α} (assures : dialogue.Assures allowed kind)
    (implies : ∀ event, allowed event → wider event)
    (impliesKind : ∀ value, kind value → wideKind value) :
    dialogue.Assures wider wideKind := by
  induction dialogue with
  | result value => exact impliesKind value assures
  | connect next ih =>
      exact ⟨implies _ assures.1, fun reply => ih reply (assures.2 reply)⟩
  | ask client call next ih =>
      exact ⟨implies _ assures.1, fun reply => ih reply (assures.2 reply)⟩
  | note entry next ih => exact ⟨implies _ assures.1, ih assures.2⟩

theorem assures_any (dialogue : Dialogue α) :
    dialogue.Assures (fun _ => True) fun _ => True := by
  induction dialogue with
  | result value => trivial
  | connect next ih => exact ⟨trivial, ih⟩
  | ask client call next ih => exact ⟨trivial, ih⟩
  | note entry next ih => exact ⟨trivial, ih⟩

theorem Assures.mem_trace {dialogue : Dialogue α}
    (assures : dialogue.Assures allowed kind) (service : Service σ)
    (world : World σ) :
    ∀ event ∈ dialogue.trace service world, allowed event := by
  induction dialogue generalizing world with
  | result value => simp
  | connect next ih =>
      exact List.forall_mem_cons.2 ⟨assures.1, ih _ (assures.2 _) _⟩
  | ask client call next ih =>
      exact List.forall_mem_cons.2 ⟨assures.1, ih _ (assures.2 _) _⟩
  | note entry next ih =>
      exact List.forall_mem_cons.2 ⟨assures.1, ih assures.2 _⟩

theorem Assures.run {dialogue : Dialogue α}
    (assures : dialogue.Assures allowed kind) (service : Service σ)
    (world : World σ) : kind (dialogue.run service world).1 := by
  induction dialogue generalizing world with
  | result value => exact assures
  | connect next ih => exact ih _ (assures.2 _) _
  | ask client call next ih => exact ih _ (assures.2 _) _
  | note entry next ih => exact ih assures.2 _

/-- A reflexive and transitive relation on states is kept if every request that
is allowed keeps it. -/
theorem Assures.run_keeps {service : Service σ} {relation : σ → σ → Prop}
    {dialogue : Dialogue α} (assures : dialogue.Assures allowed kind)
    (refl : ∀ state, relation state state)
    (trans : ∀ first second third, relation first second →
      relation second third → relation first third)
    (connects : ∀ state, allowed .connected →
      relation state (service.connect state).2)
    (answers : ∀ client call state, allowed (.asked client call) →
      relation state (service.answer client call state).2)
    (world : World σ) :
    relation world.store (dialogue.run service world).2.store := by
  induction dialogue generalizing world with
  | result value => exact refl world.store
  | connect next ih =>
      exact trans _ _ _ (connects world.store assures.1)
        (ih _ (assures.2 _) { world with store := _ })
  | ask client call next ih =>
      exact trans _ _ _ (answers client call world.store assures.1)
        (ih _ (assures.2 _) { world with store := _ })
  | note entry next ih =>
      exact ih assures.2 { world with notes := world.notes ++ [entry] }

end Dialogue

namespace MemoryStore

theorem seen_answer (call : Call) (store : MemoryStore) :
    (store.answer call).2.seen = store.seen ++ [call.sighting] := by
  cases call with
  | read mount path => rfl
  | mounts => rfl
  | close => rfl
  | patch mount path data =>
      simp only [answer, patchBundle]
      split
      · rfl
      · split <;> rfl
  | put mount path data =>
      simp only [answer, putBundle]
      split <;> rfl
  | enable mount description =>
      simp only [answer, enableEngine]
      split <;> rfl

theorem run_seen {α : Type} (dialogue : Dialogue α)
    (world : World MemoryStore) :
    (dialogue.run service world).2.store.seen =
      world.store.seen ++
        (dialogue.trace service world).filterMap Event.sighting? := by
  induction dialogue generalizing world with
  | result value => simp [Dialogue.run]
  | connect next ih =>
      have rest := ih (service.connect world.store).1
        { world with store := (service.connect world.store).2 }
      refine rest.trans ?_
      simp [Dialogue.trace, Event.sighting?, service, record]
  | ask client call next ih =>
      have rest := ih (service.answer client call world.store).1
        { world with store := (service.answer client call world.store).2 }
      refine rest.trans ?_
      simp [Dialogue.trace, Event.sighting?, service, seen_answer]
  | note entry next ih => exact ih _

end MemoryStore

end KeyCustody
