import KeyCustody.FaultPlan
import KeyCustody.Operation
import KeyCustody.Proofs.Store.Entries

/-!
# Services that relay calls to a store in memory

A store in memory is often reached through something that fails now and then.
A service relays if every call either gets the store's own answer or is
declined, and a declined call leaves the store alone and never claims that a
path is missing.  The store itself relays, and so does a store behind a plan of
faults none of which claims a missing path.

Through any such service, setting an entry either succeeds and sets exactly
that entry or fails and changes no bundle, and the same holds of dropping one.
-/

namespace KeyCustody

variable {σ : Type}

namespace Outcome

variable {α : Type}

/-- Whether work failed for another reason than a missing path. -/
def Declines : Outcome α → Prop
  | .value _ => False
  | .fault error => error.isPathNotFound = false
  | .crash _ => True

theorem inBackground_eq_fault_of_ne_value {outcome : Outcome Unit}
    (fails : outcome ≠ .value ()) :
    ∃ error, outcome.inBackground = .fault error := by
  cases outcome with
  | value result => exact absurd rfl fails
  | fault error => exact ⟨error, rfl⟩
  | crash message => exact ⟨_, rfl⟩

end Outcome

/-- A service that answers each call as the store in memory which `view` finds
in its state would, or declines it.  `fair` holds of the states in which it is
known to do so. -/
structure Service.Relays (service : Service σ) (view : σ → MemoryStore)
    (fair : σ → Prop) : Prop where
  fair_answer : ∀ client call state, fair state →
    fair (service.answer client call state).2
  answer : ∀ client call state, fair state →
    ((service.answer client call state).1 =
        (MemoryStore.answer call (view state)).1 ∧
      view (service.answer client call state).2 =
        (MemoryStore.answer call (view state)).2) ∨
    ((service.answer client call state).1.Declines ∧
      view (service.answer client call state).2 = view state)

namespace MemoryStore

theorem service_relays : service.Relays id fun _ => True where
  fair_answer _ _ _ _ := trivial
  answer _ _ _ _ := Or.inl ⟨rfl, rfl⟩

end MemoryStore

namespace FaultPlan

/-- No planned fault claims that a path is missing. -/
def Truthful (plan : FaultPlan) : Prop :=
  ∀ kind error, .fail error ∈ plan.faults kind → error.isPathNotFound = false

theorem faults_withFaults (plan : FaultPlan) (kind other : CallKind)
    (faults : List Fault) :
    (plan.withFaults kind faults).faults other =
      if other = kind then faults else plan.faults other := by
  cases kind <;> cases other <;> rfl

theorem faults_next_subset (plan : FaultPlan) (kind other : CallKind) :
    (plan.next kind).2.faults other ⊆ plan.faults other := by
  unfold next
  cases planned : plan.faults kind with
  | nil => exact List.Subset.refl _
  | cons fault later =>
      simp only [faults_withFaults]
      split
      next same =>
        rw [same, planned]
        exact List.subset_cons_self fault later
      · exact List.Subset.refl _

theorem next_eq_pass_or_mem (plan : FaultPlan) (kind : CallKind) :
    (plan.next kind).1 = .pass ∨ (plan.next kind).1 ∈ plan.faults kind := by
  unfold next
  cases planned : plan.faults kind with
  | nil => exact Or.inl rfl
  | cons fault later => exact Or.inr List.mem_cons_self

theorem Truthful.next {plan : FaultPlan} (truthful : plan.Truthful)
    (kind : CallKind) : (plan.next kind).2.Truthful :=
  fun other error planned =>
    truthful other error (plan.faults_next_subset kind other planned)

theorem Truthful.isPathNotFound_next {plan : FaultPlan}
    (truthful : plan.Truthful) {kind : CallKind} {error : StoreError}
    (fails : ((plan.next kind).1.against kind) = .fail error) :
    error.isPathNotFound = false := by
  have planned : (plan.next kind).1 = .fail error := by
    cases next : (plan.next kind).1 with
    | pass => simp [next, Fault.against] at fails
    | crash message => simp [next, Fault.against] at fails
    | fail other =>
        cases kind <;> simp_all [Fault.against]
  rcases plan.next_eq_pass_or_mem kind with passes | member
  · simp [passes] at planned
  · exact truthful kind error (planned ▸ member)

end FaultPlan

theorem MemoryStore.guarded_relays :
    MemoryStore.service.guarded.Relays Guarded.inner
      fun state => state.plan.Truthful where
  fair_answer client call state truthful := by
    have later := truthful.next call.kind
    simp only [Service.guarded]
    split <;> exact later
  answer client call state truthful := by
    cases fault : (state.plan.next call.kind).1.against call.kind with
    | pass =>
        left
        simp [Service.guarded, fault, MemoryStore.service]
    | fail error =>
        right
        have honest := truthful.isPathNotFound_next fault
        simp [Service.guarded, fault, Outcome.Declines, honest]
    | crash message =>
        right
        simp [Service.guarded, fault, Outcome.Declines]

end KeyCustody
