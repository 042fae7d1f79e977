import KeyCustody.Proofs.Session.Course
import Mathlib.Data.Nat.Find

/-!
# What a successful commit settles

An operation is executed at most once with success and undone at most once.  A
commit that succeeds therefore puts in effect exactly the queued operations
that had not been undone before: one that an earlier commit executed and undid
again stays in the queue, and is left out when the queue is committed again.

An entry that the queue names then has the value of the last write to it,
unless something was undone there after that write was executed.
-/

namespace KeyCustody

variable {σ : Type}

namespace Course

variable {service : Service σ} {view : σ → MemoryStore} {fair : σ → Prop}
variable {base : Bundles} {course : Course σ}

def Queued (course : Course σ) (number : Nat) : Prop :=
  course.first ≤ number ∧ number < course.writes.length

instance (course : Course σ) (number : Nat) :
    Decidable (course.Queued number) :=
  inferInstanceAs (Decidable (_ ∧ _))

def Names (course : Course σ) (place : Location) (key : String) : Prop :=
  ∃ (number : Nat) (write : Write), course.Queued number ∧
    course.writes[number]? = some write ∧ write.Names place key

structure LastQueued (course : Course σ) (place : Location) (key : String)
    (number : Nat) (write : Write) : Prop where
  queued : course.Queued number
  found : course.writes[number]? = some write
  names : write.Names place key
  last : ∀ (later : Nat) (other : Write), number < later →
    course.writes[later]? = some other → ¬ other.Names place key

theorem Names.exists_lastQueued {place : Location} {key : String}
    (names : course.Names place key) :
    ∃ number write, course.LastQueued place key number write := by
  classical
  obtain ⟨number, write, queued, found, named⟩ := names
  let isNamed (number : Nat) : Prop :=
    ∃ write, course.writes[number]? = some write ∧ write.Names place key
  have bound : number ≤ course.writes.length :=
    Nat.le_of_lt queued.2
  have here : isNamed number := ⟨write, found, named⟩
  have after : number ≤ Nat.findGreatest isNamed course.writes.length :=
    Nat.le_findGreatest bound here
  obtain ⟨other, foundOther, namedOther⟩ := Nat.findGreatest_spec bound here
  have inside := (List.getElem?_eq_some_iff.1 foundOther).1
  refine ⟨Nat.findGreatest isNamed course.writes.length, other,
    ⟨Nat.le_trans queued.1 after, inside⟩, foundOther, namedOther, ?_⟩
  intro later further precedes foundFurther namedFurther
  have beyond := (List.getElem?_eq_some_iff.1 foundFurther).1
  exact Nat.findGreatest_is_greatest precedes (Nat.le_of_lt beyond)
    ⟨further, foundFurther, namedFurther⟩

theorem commit_eq_of_value
    (commits : (course.attempt service .commit).1.1 = .value ()) :
    (course.attempt service .flush).1.1 = .value () ∧
      (course.attempt service .commit).2 =
        (course.attempt service .flush).2 ∧
      (course.attempt service .commit).1.2.operations = [] := by
  rcases Session.commit_cases service course.session
    { store := course.store } with ⟨flushes, committed⟩ | ⟨_, fails, _⟩
  · have sameWorld := congrArg Prod.snd committed
    have emptied := congrArg (fun done => done.1.2.operations) committed
    exact ⟨flushes, sameWorld, emptied⟩
  · exact absurd commits fails

/-- The account after a commit that succeeds, with the queue that was
committed: all of it has been executed, and nothing was undone meanwhile. -/
theorem Sound.commit (relays : service.Relays view fair)
    (sound : course.Sound view fair base)
    (commits : (course.attempt service .commit).1.1 = .value ()) :
    ∃ operations : List Operation,
      (∀ operation ∈ operations, operation.executed) ∧
      operations.map Operation.undone =
        course.session.operations.map Operation.undone ∧
      Account view fair base course.writes course.first operations
        (course.perform service .commit).deeds
        (course.perform service .commit).store := by
  obtain ⟨flushes, same, _⟩ := commit_eq_of_value commits
  have account := sound.told.flush relays course.session
  have undone := undone_of_executeSteps service course.session.client
    (flush_steps service course.session { store := course.store })
  refine ⟨(course.attempt service .flush).1.2.operations, ?_, undone, ?_⟩
  · exact executed_of_flush_eq_value service course.session _ flushes
  · simp only [Course.perform, same]
    exact account

theorem Queued.found (sound : course.Sound view fair base) {number : Nat}
    (queued : course.Queued number) {operations : List Operation}
    (undone : operations.map Operation.undone =
      course.session.operations.map Operation.undone) :
    ∃ index before after, number = course.first + index ∧
      course.session.operations[index]? = some before ∧
      operations[index]? = some after ∧ after.undone = before.undone := by
  obtain ⟨index, number⟩ := Nat.exists_eq_add_of_le queued.1
  have whole := sound.whole
  have bound := queued.2
  have inside : index < course.session.operations.length := by omega
  have same : operations.length = course.session.operations.length := by
    simpa using congrArg List.length undone
  have insideAfter : index < operations.length := by omega
  refine ⟨index, course.session.operations[index], operations[index], number,
    List.getElem?_eq_getElem inside, List.getElem?_eq_getElem insideAfter, ?_⟩
  have flags := congrArg (fun flags => flags[index]?) undone
  simpa [inside, insideAfter] using flags

/-- A commit that succeeds puts in effect the queued operations that have not
been undone before. -/
theorem Sound.inEffect_commit (relays : service.Relays view fair)
    (sound : course.Sound view fair base)
    (commits : (course.attempt service .commit).1.1 = .value ())
    {number : Nat} (queued : course.Queued number) :
    (course.perform service .commit).deeds.count ⟨number, .execute⟩ = 1 ∧
    (Deed.InEffect (course.perform service .commit).deeds number ↔
      ⟨number, .rollback⟩ ∉ course.deeds) := by
  obtain ⟨operations, executed, undone, account⟩ :=
    sound.commit relays commits
  obtain ⟨index, before, left, rfl, found, foundLeft, same⟩ :=
    queued.found sound undone
  have isExecuted := executed left (List.mem_of_getElem? foundLeft)
  constructor
  · exact account.count_execute foundLeft isExecuted
  · rw [account.inEffect_iff foundLeft, sound.rollback_mem_iff found, same]
    simp [isExecuted]

theorem executed_commit
    (fails : (course.attempt service .commit).1.1 ≠ .value ()) :
    (course.attempt service .flush).1.1 ≠ .value () ∧
    (course.perform service .commit).session.operations.map
        Operation.executed =
      (course.attempt service .flush).1.2.operations.map
        Operation.executed := by
  rcases Session.commit_cases service course.session
    { store := course.store } with
    ⟨_, committed⟩ | ⟨flushFails, _, undoneSame | flushedSame⟩
  · have commits := congrArg (fun done => done.1.1) committed
    exact absurd commits fails
  · refine ⟨flushFails, ?_⟩
    have undone := executed_of_undoSteps service _ (rollback_steps service
      (course.attempt service .flush).1.2
      (course.attempt service .flush).2)
    have sameFlags := congrArg
      (fun left => left.1.operations.map Operation.executed) undoneSame
    exact sameFlags.trans undone
  · have sameFlags := congrArg
      (fun left => left.1.operations.map Operation.executed) flushedSame
    exact ⟨flushFails, sameFlags⟩

theorem pending_commit
    (fails : (course.attempt service .commit).1.1 ≠ .value ())
    (pending : false ∈
      course.session.operations.map Operation.executed) :
    false ∈ (course.perform service .commit).session.operations.map
      Operation.executed := by
  obtain ⟨flushFails, same⟩ := executed_commit fails
  rw [same]
  exact pending_of_flush_ne_value service course.session _ flushFails pending

theorem first_le_commit (service : Service σ) (course : Course σ) :
    course.first ≤ (course.perform service .commit).first := by
  have length : (course.perform service .commit).session.operations.length ≤
      course.session.operations.length := by
    by_cases commits : (course.attempt service .commit).1.1 = .value ()
    · have emptied := (commit_eq_of_value commits).2.2
      simp [perform, emptied]
    · have kept := congrArg List.length (executed_commit commits).2
      have flushed := congrArg List.length (undone_of_executeSteps service _
        (flush_steps service course.session { store := course.store }))
      simp only [List.length_map] at kept flushed
      rw [kept]
      exact Nat.le_of_eq flushed
  exact Nat.sub_le_sub_left length course.writes.length

/-- A commit that succeeds puts in effect the queued operations that have not
been undone before, and each entry that the queue names gets the value of the
last write to it unless something was undone there since. -/
theorem commit_settles {id : Nat} {client : Handle}
    {store : Guarded MemoryStore} {course : Course (Guarded MemoryStore)}
    (truthful : store.plan.Truthful)
    (reachable : Reachable MemoryStore.service.guarded Guarded.inner
      (fun state => state.plan.Truthful) id client store course)
    (commits : (course.attempt MemoryStore.service.guarded .commit).1.1 =
      .value ()) :
    let after := course.perform MemoryStore.service.guarded .commit
    (∀ number, course.Queued number →
      after.deeds.count ⟨number, .execute⟩ = 1 ∧
      (Deed.InEffect after.deeds number ↔
        ⟨number, .rollback⟩ ∉ course.deeds)) ∧
    ∀ (place : Location) (key : String), course.Names place key →
      ∃ number write, course.LastQueued place key number write ∧
        let value := Bundles.value? after.store.inner.bundles place key
        (¬ Deed.DroppedSince course.writes after.deeds number place key →
          value = some (.string write.value)) ∧
        (Deed.DroppedSince course.writes after.deeds number place key →
          value = none) := by
  have sound := reachable.sound MemoryStore.guarded_relays truthful
  obtain ⟨operations, executed, undone, account⟩ :=
    sound.commit MemoryStore.guarded_relays commits
  constructor
  · intro number queued
    exact sound.inEffect_commit MemoryStore.guarded_relays commits queued
  · intro place key names
    obtain ⟨number, write, named⟩ := names.exists_lastQueued
    refine ⟨number, write, named, ?_⟩
    obtain ⟨index, before, left, rfl, found, foundLeft, same⟩ :=
      named.queued.found sound undone
    have isExecuted := executed left (List.mem_of_getElem? foundLeft)
    have member : ⟨course.first + index, .execute⟩ ∈
        (course.perform MemoryStore.service.guarded .commit).deeds := by
      rw [account.deed_mem_iff foundLeft]
      simp [Operation.past, isExecuted]
    exact account.value?_of_last member named.found named.names named.last

/-- A store that is down when it is asked to patch for the second time. -/
def unsteadyStore : Guarded MemoryStore where
  inner := {}
  plan := { patch := [.pass, .fail (.internal "down")] }

/-- A session with two writes that has failed to commit once: the first write
has been executed and undone. -/
def recommitting : Course (Guarded MemoryStore) :=
  let fresh : Course (Guarded MemoryStore) :=
    { session := { id := 1, client := 1 }, store := unsteadyStore }
  ((fresh.enqueue ⟨"m", "p", "a", "1"⟩).enqueue ⟨"m", "p", "b", "2"⟩).perform
    MemoryStore.service.guarded .commit

theorem recommitting_reachable :
    Reachable MemoryStore.service.guarded Guarded.inner
      (fun state => state.plan.Truthful) 1 1 unsteadyStore recommitting :=
  ((Reachable.start.enqueue _).enqueue _).perform _

theorem unsteadyStore_truthful : unsteadyStore.plan.Truthful := by
  intro kind error planned
  cases kind <;> simp_all [unsteadyStore, FaultPlan.faults,
    StoreError.isPathNotFound]

set_option maxRecDepth 10000 in
/-- Committing once more puts the second write in effect and not the first. -/
theorem commit_settles_recommitting :
    unsteadyStore.plan.Truthful ∧
    (recommitting.attempt MemoryStore.service.guarded .commit).1.1 =
      .value () ∧
    let after := recommitting.perform MemoryStore.service.guarded .commit
    ¬ Deed.InEffect after.deeds 0 ∧ Deed.InEffect after.deeds 1 ∧
    ∃ number write,
      recommitting.LastQueued (Location.of "m" "p") "b" number write := by
  have commits : (recommitting.attempt MemoryStore.service.guarded
      .commit).1.1 = .value () := by
    decide
  have settled := commit_settles unsteadyStore_truthful recommitting_reachable
    commits
  refine ⟨unsteadyStore_truthful, commits, ?_, ?_, ?_⟩
  · rw [(settled.1 0 (by decide)).2]
    decide
  · rw [(settled.1 1 (by decide)).2]
    decide
  · obtain ⟨number, write, last, _⟩ := settled.2 (Location.of "m" "p") "b"
      ⟨1, ⟨"m", "p", "b", "2"⟩, by decide, rfl, rfl, rfl⟩
    exact ⟨number, write, last⟩

set_option maxRecDepth 10000 in
/-- A commit can succeed and leave a queued operation without effect. -/
theorem commit_leaves_out_undone :
    Reachable MemoryStore.service.guarded Guarded.inner
      (fun state => state.plan.Truthful) 1 1 unsteadyStore recommitting ∧
    (recommitting.attempt MemoryStore.service.guarded .commit).1.1 =
      .value () ∧
    let after := recommitting.perform MemoryStore.service.guarded .commit
    recommitting.Queued 0 ∧ ¬ Deed.InEffect after.deeds 0 ∧
    recommitting.writes[0]? = some ⟨"m", "p", "a", "1"⟩ ∧
    Bundles.value? after.store.inner.bundles (Location.of "m" "p") "a" =
      none := by
  refine ⟨recommitting_reachable, by decide, by decide, by decide, rfl,
    by decide⟩

end Course

end KeyCustody
