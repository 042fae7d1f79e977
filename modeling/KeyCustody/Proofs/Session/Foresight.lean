import KeyCustody.Proofs.Session.Fulfilment
import KeyCustody.Proofs.Session.Work

/-!
# What the methods of a session come to

On a store in memory that refuses nothing, a session of writes always gets its
way.  What a method makes of the session, and which entries it sets and drops,
can then be told from the session alone; nothing depends on what else the store
holds.
-/

namespace KeyCustody

/-- A change to a single entry. -/
inductive Edit
  | set (write : Write)
  | drop (write : Write)
deriving DecidableEq

namespace Edit

def write : Edit → Write
  | .set write | .drop write => write

def applyTo : Edit → Bundles → Bundles
  | .set write => write.setIn
  | .drop write => write.dropIn

/-- What the edited entry holds afterwards. -/
def value? : Edit → Option Json
  | .set write => some (.string write.value)
  | .drop _ => none

def applyAll (edits : List Edit) (bundles : Bundles) : Bundles :=
  edits.foldl (fun bundles edit => edit.applyTo bundles) bundles

@[simp]
theorem applyAll_append (early late : List Edit) (bundles : Bundles) :
    applyAll (early ++ late) bundles = applyAll late (applyAll early bundles) :=
  List.foldl_append

theorem value?_applyTo (edit : Edit) (bundles : Bundles) (place : Location)
    (key : String) :
    (edit.applyTo bundles).value? place key =
      if edit.write.Names place key then edit.value?
      else bundles.value? place key := by
  cases edit with
  | set write => exact write.value?_setIn bundles place key
  | drop write => exact write.value?_dropIn bundles place key

theorem value?_applyAll_elsewhere {edits : List Edit} {place : Location}
    {key : String}
    (elsewhere : ∀ edit ∈ edits, ¬ edit.write.Names place key)
    (bundles : Bundles) :
    (applyAll edits bundles).value? place key = bundles.value? place key := by
  induction edits generalizing bundles with
  | nil => rfl
  | cons edit later ih =>
      have rest := ih (fun other member =>
        elsewhere other (List.mem_cons_of_mem _ member)) (edit.applyTo bundles)
      rw [value?_applyTo, if_neg (elsewhere edit List.mem_cons_self)] at rest
      exact rest

/-- What an entry holds after edits depends on what it held before, and on
nothing else. -/
theorem value?_applyAll_congr (edits : List Edit) {left right : Bundles}
    {place : Location} {key : String}
    (same : left.value? place key = right.value? place key) :
    (applyAll edits left).value? place key =
      (applyAll edits right).value? place key := by
  induction edits generalizing left right with
  | nil => exact same
  | cons edit later ih =>
      refine ih ?_
      rw [value?_applyTo, value?_applyTo, same]

end Edit

namespace Operation

/-- The operation once it is executed. -/
def completed (operation : Operation) : Operation :=
  { operation with executed := true }

/-- The operation once its queue is undone. -/
def reverted (operation : Operation) : Operation :=
  { operation with undone := operation.undone || operation.needsUndo }

/-- The edits that executing an operation makes. -/
def execution (operation : Operation) : List Edit :=
  if operation.executed then [] else (operation.write?.map Edit.set).toList

/-- The edits that undoing an operation makes. -/
def undoing (operation : Operation) : List Edit :=
  if operation.needsUndo then (operation.write?.map Edit.drop).toList else []

theorem mem_edits {operation : Operation} {write : Write}
    (isWrite : operation.task = write.task) {edit : Edit}
    (member : edit ∈ operation.execution ∨ edit ∈ operation.undoing) :
    edit.write = write := by
  rw [execution, undoing, write?_eq_some.2 isWrite] at member
  rcases member with member | member <;> split at member <;>
    simp_all [Edit.write]

end Operation

namespace MemoryStore

/-- A store that refuses nothing. -/
structure Obliging (store : MemoryStore) : Prop where
  refusedKeys : store.refusedKeys = []
  refusedPaths : store.refusedPaths = []

theorem Obliging.continues {before after : MemoryStore}
    (obliging : before.Obliging) (continues : Continues before after) :
    after.Obliging where
  refusedKeys := continues.refusedKeys.trans obliging.refusedKeys
  refusedPaths := continues.refusedPaths.trans obliging.refusedPaths

theorem run_dropEntry_obliged {world : World MemoryStore} {mount : String}
    (obliging : world.store.Obliging)
    (mounted : listedName mount ∈ world.store.listed) (client : Handle)
    (path key : String) :
    ((dropEntry client mount path key).run service world).1 = .value () := by
  have noKeys := obliging.refusedKeys
  have noPaths := obliging.refusedPaths
  rw [run_dropEntry]
  cases held : world.store.bundles[Location.of mount path]? with
  | none =>
      simp [service, answer, readBundle, record, get?, held, noPaths,
        StoreError.noSuchPath]
  | some bundle =>
      by_cases contains : key ∈ bundle
      · simp [service, answer, readBundle, putBundle, writeFault?, record,
          get?, held, noPaths, noKeys, mounted, contains]
      · simp [service, answer, readBundle, record, get?, held, noPaths,
          contains]

end MemoryStore

namespace Operation

open MemoryStore

variable {operation : Operation} {write : Write} {writes : List Write}
  {world : World MemoryStore}

theorem run_foreseen (isWrite : operation.task = write.task)
    (obliging : world.store.Obliging)
    (mounted : listedName operation.mount ∈ world.store.listed)
    (client : Handle) (index : Nat) :
    ∃ reached,
      (operation.run client index).run service world =
        ((.value (), operation.completed), reached) ∧
      reached.store.bundles =
        Edit.applyAll operation.execution world.store.bundles := by
  by_cases executed : operation.executed
  · refine ⟨world, ?_, ?_⟩
    · rw [run_executed executed, completed, ← executed]
      rfl
    · rw [execution, if_pos executed]
      rfl
  · have pending : operation.executed = false := by simpa using executed
    obtain ⟨outcome, reached, attempt, run, attempted⟩ :=
      run_write service_relays isWrite pending client index world trivial
    have admitted : write.key ∉ world.store.refusedKeys := by
      rw [obliging.refusedKeys]
      exact List.not_mem_nil
    rw [(eq_of_task_eq isWrite).1] at mounted
    have succeeds := run_setEntry_admitted admitted
      (Std.ExtTreeSet.contains_iff_mem.2 mounted) client write.path write.value
    rw [attempt] at succeeds
    subst succeeds
    rcases attempted.effect with ⟨_, changed⟩ | ⟨error, failed, _⟩
    · refine ⟨_, run, ?_⟩
      rw [execution, if_neg executed, write?_eq_some.2 isWrite]
      exact changed
    · simp at failed

theorem outcome_undo_write (isWrite : operation.task = write.task)
    (needed : operation.needsUndo) (client : Handle) (index : Nat) :
    ((operation.undo client index).run service world).1.1 =
      ((dropEntry client write.mount write.path write.key).run service
        world).1 := by
  rw [undo_eq_dropEntry service isWrite needed]

theorem undo_foreseen (isWrite : operation.task = write.task)
    (obliging : world.store.Obliging)
    (mounted : operation.executed →
      listedName operation.mount ∈ world.store.listed)
    (client : Handle) (index : Nat) :
    ∃ reached,
      (operation.undo client index).run service world =
        ((.value (), operation.reverted), reached) ∧
      reached.store.bundles =
        Edit.applyAll operation.undoing world.store.bundles := by
  by_cases needed : operation.needsUndo
  · obtain ⟨outcome, reached, run, attempted⟩ :=
      undo_write service_relays isWrite needed client index world trivial
    have executed : operation.executed := (needsUndo_iff.1 needed).1
    rw [(eq_of_task_eq isWrite).1] at mounted
    have succeeds := run_dropEntry_obliged obliging (mounted executed) client
      write.path write.key
    rw [← outcome_undo_write isWrite needed client index, run] at succeeds
    subst succeeds
    have left : { operation with undone := true } = operation.reverted := by
      rw [reverted, needed, Bool.or_true]
    rcases attempted.effect with ⟨_, changed⟩ | ⟨error, failed, _⟩
    · refine ⟨_, left ▸ run, ?_⟩
      rw [undoing, if_pos needed, write?_eq_some.2 isWrite]
      exact changed
    · simp at failed
  · have settled : operation.needsUndo = false := by simpa using needed
    refine ⟨world, ?_, ?_⟩
    · rw [undo_settled settled, reverted, settled, Bool.or_false]
      rfl
    · rw [undoing, if_neg needed]
      rfl

theorem run_runAll_foreseen {queue : List Operation}
    (areWrites : AreWrites writes queue) (obliging : world.store.Obliging)
    (mounted : ∀ operation ∈ queue,
      listedName operation.mount ∈ world.store.listed)
    (client : Handle) (index : Nat) :
    ∃ reached,
      (runAll client index queue).run service world =
        ((.value (), queue.map completed), reached) ∧
      reached.store.bundles =
        Edit.applyAll (queue.flatMap execution) world.store.bundles := by
  induction queue generalizing index world with
  | nil => exact ⟨world, rfl, rfl⟩
  | cons operation later ih =>
      obtain ⟨write, _, isWrite⟩ := areWrites operation List.mem_cons_self
      obtain ⟨next, run, changed⟩ := run_foreseen isWrite obliging
        (mounted operation List.mem_cons_self) client index
      have continues := run_continues (operation.run client index) world
      rw [run] at continues
      obtain ⟨reached, runs, changes⟩ := ih
        (fun other member => areWrites other (List.mem_cons_of_mem _ member))
        (obliging.continues continues)
        (fun other member => continues.mem_listed
          (mounted other (List.mem_cons_of_mem _ member))) (index + 1)
      refine ⟨reached, ?_, ?_⟩
      · rw [run_runAll_cons]
        dsimp only
        rw [run]
        dsimp only
        rw [runs]
        rfl
      · rw [changes, changed, List.flatMap_cons, Edit.applyAll_append]

/-- Undoing a queue of writes; the engines of those that were executed are
mounted. -/
theorem run_undoAll_foreseen {queue : List Operation}
    (areWrites : AreWrites writes queue) (obliging : world.store.Obliging)
    (mounted : ∀ operation ∈ queue, operation.executed →
      listedName operation.mount ∈ world.store.listed)
    (client : Handle) (index : Nat) :
    ∃ reached,
      (undoAll client index queue).run service world =
        ((.value (), queue.map reverted), reached) ∧
      reached.store.bundles =
        Edit.applyAll (queue.reverse.flatMap undoing) world.store.bundles := by
  induction queue generalizing index with
  | nil => exact ⟨world, rfl, rfl⟩
  | cons operation later ih =>
      obtain ⟨next, runs, changes⟩ := ih
        (fun other member => areWrites other (List.mem_cons_of_mem _ member))
        (fun other member => mounted other (List.mem_cons_of_mem _ member))
        (index + 1)
      have continues := run_continues (undoAll client (index + 1) later) world
      rw [runs] at continues
      obtain ⟨write, _, isWrite⟩ := areWrites operation List.mem_cons_self
      obtain ⟨reached, run, changed⟩ := undo_foreseen isWrite
        (obliging.continues continues)
        (fun executed => continues.mem_listed
          (mounted operation List.mem_cons_self executed)) client index
      refine ⟨reached, ?_, ?_⟩
      · rw [run_undoAll_cons]
        dsimp only
        rw [runs]
        dsimp only
        rw [run]
        rfl
      · rw [changed, changes, List.reverse_cons, List.flatMap_append,
          Edit.applyAll_append, List.flatMap_singleton]

end Operation

/-- What a method makes of a session that gets its way, and the edits that it
makes in the store. -/
def Method.foresee (session : Session) : Method → List Edit × Session
  | .flush =>
      (session.operations.flatMap Operation.execution,
        { session with
          operations := session.operations.map Operation.completed })
  | .commit =>
      (session.operations.flatMap Operation.execution,
        { session.cleared with committed := true })
  | .rollback =>
      (session.operations.reverse.flatMap Operation.undoing,
        { session with
          operations := session.operations.map Operation.reverted })
  | .close =>
      (if session.committed then []
        else session.operations.reverse.flatMap Operation.undoing,
        session.cleared)

namespace Session

open MemoryStore

/-- A session of some of the given writes, and a store in which it gets its
way. -/
structure Served (writes : List Write) (session : Session)
    (store : MemoryStore) : Prop where
  areWrites : Operation.AreWrites writes session.operations
  obliging : store.Obliging
  mounted : ∀ operation ∈ session.operations, operation.executed →
    listedName operation.mount ∈ store.listed

namespace Served

variable {writes : List Write} {session : Session}
  {world : World MemoryStore}

theorem continues {before after : MemoryStore}
    (served : Served writes session before) (continues : Continues before after) :
    Served writes session after where
  areWrites := served.areWrites
  obliging := served.obliging.continues continues
  mounted operation member executed :=
    continues.mem_listed (served.mounted operation member executed)

theorem run_flush (served : Served writes session world.store) :
    ∃ reached,
      session.flush.run service world =
        ((.value (), (Method.flush.foresee session).2), reached) ∧
      reached.store.bundles = Edit.applyAll (Method.flush.foresee session).1
        world.store.bundles := by
  obtain ⟨provided, _, same, listed⟩ :=
    run_ensureMounts_mounts session.client session.mounts world
  have continues := run_continues
    (ensureMounts session.client session.mounts) world
  have run := Session.run_flush service session world
  dsimp only at run
  rw [provided] at run
  generalize ((ensureMounts session.client session.mounts).run service
    world).2 = mounted at same listed continues run
  obtain ⟨reached, runs, changes⟩ := Operation.run_runAll_foreseen
    served.areWrites (served.obliging.continues continues)
    (fun operation member => Std.ExtTreeSet.contains_iff_mem.1
      (listed _ (List.mem_eraseDups.2 (List.mem_map_of_mem member))))
    session.client 0
  rw [runs] at run
  exact ⟨reached, run, changes.trans (congrArg _ same)⟩

theorem run_rollback (served : Served writes session world.store) :
    ∃ reached,
      session.rollback.run service world =
        ((.value (), (Method.rollback.foresee session).2), reached) ∧
      reached.store.bundles = Edit.applyAll (Method.rollback.foresee session).1
        world.store.bundles := by
  obtain ⟨reached, run, changes⟩ := Operation.run_undoAll_foreseen
    served.areWrites served.obliging served.mounted session.client 0
  refine ⟨reached, ?_, changes⟩
  rw [Session.run_rollback, run]
  rfl

/-- Every method succeeds and does what was foreseen of it. -/
theorem run_method (served : Served writes session world.store)
    (method : Method) :
    ∃ reached,
      (method.dialogue session).run service world =
        ((.value (), (method.foresee session).2), reached) ∧
      reached.store.bundles = Edit.applyAll (method.foresee session).1
        world.store.bundles := by
  cases method with
  | flush => exact served.run_flush
  | rollback => exact served.run_rollback
  | commit =>
      obtain ⟨reached, run, changes⟩ := served.run_flush
      refine ⟨reached, ?_, changes⟩
      rw [Method.dialogue, run_commit, run]
      rfl
  | close =>
      by_cases committed : session.committed
      · refine ⟨world, ?_, ?_⟩
        · simp [Method.dialogue, close, committed, Method.foresee]
        · rw [Method.foresee, if_pos committed]
          rfl
      · obtain ⟨reached, run, changes⟩ := served.run_rollback
        refine ⟨reached, ?_, ?_⟩
        · simp only [Method.dialogue, close, if_neg committed,
            Dialogue.bind_eq_bind, Dialogue.run_bind, run]
          rfl
        · rw [Method.foresee, if_neg committed]
          exact changes

/-- After a method the session gets its way again. -/
theorem method (served : Served writes session world.store)
    (method : Method) :
    Served writes (method.foresee session).2
      ((method.dialogue session).run service world).2.store := by
  have later := served.continues (run_continues (method.dialogue session) world)
  refine ⟨?_, later.obliging, ?_⟩
  · cases method with
    | flush =>
        refine served.areWrites.of_tasks ?_
        exact (List.map_map ..).trans rfl
    | rollback =>
        refine served.areWrites.of_tasks ?_
        exact (List.map_map ..).trans rfl
    | commit => exact fun _ member => absurd member List.not_mem_nil
    | close => exact fun _ member => absurd member List.not_mem_nil
  · cases method with
    | flush =>
        intro operation member _
        obtain ⟨before, queued, rfl⟩ := List.mem_map.1 member
        have needed : before.mount ∈ session.mounts :=
          List.mem_eraseDups.2 (List.mem_map_of_mem queued)
        exact run_flush_mounts session world before.mount needed
    | rollback =>
        intro operation member executed
        obtain ⟨before, queued, rfl⟩ := List.mem_map.1 member
        exact later.mounted before queued executed
    | commit => exact fun _ member => absurd member List.not_mem_nil
    | close => exact fun _ member => absurd member List.not_mem_nil

theorem mem_foresee {store : MemoryStore}
    (served : Served writes session store) {method : Method} {edit : Edit}
    (member : edit ∈ (method.foresee session).1) : edit.write ∈ writes := by
  have among : ∃ operation ∈ session.operations,
      edit ∈ operation.execution ∨ edit ∈ operation.undoing := by
    cases method with
    | flush =>
        obtain ⟨operation, queued, inside⟩ := List.mem_flatMap.1 member
        exact ⟨operation, queued, Or.inl inside⟩
    | commit =>
        obtain ⟨operation, queued, inside⟩ := List.mem_flatMap.1 member
        exact ⟨operation, queued, Or.inl inside⟩
    | rollback =>
        obtain ⟨operation, queued, inside⟩ := List.mem_flatMap.1 member
        exact ⟨operation, List.mem_reverse.1 queued, Or.inr inside⟩
    | close =>
        rw [Method.foresee] at member
        split at member
        · exact absurd member List.not_mem_nil
        · obtain ⟨operation, queued, inside⟩ := List.mem_flatMap.1 member
          exact ⟨operation, List.mem_reverse.1 queued, Or.inr inside⟩
  obtain ⟨operation, queued, inside⟩ := among
  obtain ⟨write, listed, isWrite⟩ := served.areWrites operation queued
  rw [Operation.mem_edits isWrite inside]
  exact listed

end Served

end Session

end KeyCustody
