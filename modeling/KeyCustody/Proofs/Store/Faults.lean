import KeyCustody.Proofs.Store.Continuity
import KeyCustody.Proofs.Store.Relay

/-!
# What planned faults can do

A plan lists finitely many faults, and a request that meets one uses it up.  A
dialogue behind a plan therefore either leaves fewer faults planned, or it runs
as it would without the plan.

Over a store in memory a plan takes nothing away from the store and lets no
write through that the store refuses.
-/

namespace KeyCustody

variable {σ : Type}

namespace FaultPlan

/-- How many faults are planned. -/
def size (plan : FaultPlan) : Nat :=
  plan.connect.length + plan.close.length + plan.mounts.length +
    plan.enable.length + plan.read.length + plan.patch.length +
    plan.put.length

theorem next_cases (plan : FaultPlan) (kind : CallKind) :
    plan.next kind = (.pass, plan) ∨ (plan.next kind).2.size < plan.size := by
  unfold next
  cases planned : plan.faults kind with
  | nil => exact Or.inl rfl
  | cons fault later =>
      right
      cases kind <;> simp only [faults] at planned <;>
        simp only [size, withFaults, planned, List.length_cons] <;> omega

end FaultPlan

section Guarded

variable {α : Type}

/-- Behind a plan a request uses up a fault or is answered as without one. -/
theorem guarded_cases (service : Service σ) (state : Guarded σ) :
    ((service.guarded.connect state).2.plan.size < state.plan.size ∨
      service.guarded.connect state =
        ((service.connect state.inner).1,
          { state with inner := (service.connect state.inner).2 })) ∧
    ∀ client call,
      (service.guarded.answer client call state).2.plan.size <
          state.plan.size ∨
        service.guarded.answer client call state =
          ((service.answer client call state.inner).1,
            { state with
              inner := (service.answer client call state.inner).2 }) := by
  constructor
  · rcases state.plan.next_cases .connect with passes | spent
    · right
      simp [Service.guarded, passes]
    · left
      simp only [Service.guarded]
      split <;> exact spent
  · intro client call
    rcases state.plan.next_cases call.kind with passes | spent
    · right
      simp [Service.guarded, passes, Fault.against]
    · left
      simp only [Service.guarded]
      split <;> exact spent

/-- Behind a plan of faults a dialogue either uses up some of them, or it runs
as it would without the plan. -/
theorem run_guarded_cases (service : Service σ) (dialogue : Dialogue α)
    (world : World (Guarded σ)) :
    let done := dialogue.run service.guarded world
    let plain := dialogue.run service
      { store := world.store.inner, notes := world.notes }
    done.2.store.plan.size < world.store.plan.size ∨
      done = (plain.1,
        { store := { world.store with inner := plain.2.store }
          notes := plain.2.notes }) := by
  induction dialogue generalizing world with
  | result value => exact Or.inr rfl
  | connect next ih =>
      have rest := ih (service.guarded.connect world.store).1
        { world with store := (service.guarded.connect world.store).2 }
      rcases (guarded_cases service world.store).1 with spent | same
      · left
        rcases rest with further | unspent
        · exact Nat.lt_trans further spent
        · rw [Dialogue.run, unspent]
          exact spent
      · rw [same] at rest
        rw [Dialogue.run, same]
        exact rest
  | ask client call next ih =>
      have rest := ih (service.guarded.answer client call world.store).1
        { world with
          store := (service.guarded.answer client call world.store).2 }
      rcases (guarded_cases service world.store).2 client call with
        spent | same
      · left
        rcases rest with further | unspent
        · exact Nat.lt_trans further spent
        · rw [Dialogue.run, unspent]
          exact spent
      · rw [same] at rest
        rw [Dialogue.run, same]
        exact rest
  | note entry next ih =>
      exact ih { world with notes := world.notes ++ [entry] }

end Guarded

namespace MemoryStore

variable {α : Type}

theorem guarded_continues (dialogue : Dialogue α)
    (world : World (Guarded MemoryStore)) :
    Continues world.store.inner
      (dialogue.run service.guarded world).2.store.inner := by
  let relation (before after : Guarded MemoryStore) : Prop :=
    Continues before.inner after.inner
  refine @Dialogue.Assures.run_keeps _ _ _ _ _ relation _
    dialogue.assures_any (fun state => Continues.refl state.inner)
    (fun first second third => Continues.trans _ _ _) ?_ ?_ world
  · intro state _
    simp only [Service.guarded]
    split
    · exact Continues.refl _
    · exact Continues.refl _
    · exact Continues.record state.inner .connect
  · intro client call state _
    simp only [Service.guarded]
    split
    · exact Continues.refl _
    · exact Continues.refl _
    · exact Continues.answer call state.inner

theorem guarded_refuses {world : World (Guarded MemoryStore)} {key : String}
    (truthful : world.store.plan.Truthful)
    (refused : key ∈ world.store.inner.refusedKeys) (client : Handle)
    (mount path value : String) :
    ((setEntry client mount path key value).run service.guarded world).1 ≠
      .value () := by
  let data := Bundle.ofEntries [(key, .string value)]
  have reply : (service.guarded.answer client (.patch mount path data)
      world.store).1.Declines := by
    rcases guarded_relays.answer client (.patch mount path data) world.store
      truthful with ⟨same, _⟩ | ⟨declines, _⟩
    · rw [same]
      simp [answer, patchBundle, writeFault?, record, data,
        Bundle.keys_ofEntries_single, refused, Outcome.Declines,
        StoreError.isPathNotFound]
    · exact declines
  rw [run_setEntry]
  dsimp only
  split
  next detail missing =>
    simp [data, missing, Outcome.Declines, StoreError.isPathNotFound] at reply
  next =>
    intro succeeds
    rw [Outcome.inBackground_eq_value] at succeeds
    simp [data, succeeds, Outcome.Declines] at reply

end MemoryStore

end KeyCustody
