import KeyCustody.Proofs.Session.Conduct
import KeyCustody.Proofs.Session.Recovery
import KeyCustody.Proofs.Session.Shape

/-!
# Flushing until it succeeds

A flush that fails leaves its queue in place, and the next one goes on at the
first operation that has not been executed.  So when a session is flushed time
and again, and operations are queued in between, all executions that succeed
together are those of one flush that never fails: each operation once and in the
order of the queue, and over a store in memory the same bundles.

If all operations recover, some flush does succeed, however many faults are
planned.
-/

namespace KeyCustody

variable {σ : Type}

/-- The position of an operation whose execution succeeded, if a note tells of
one. -/
def Note.execution? : Note → Option Nat
  | .acted index _ .execute (.value ()) => some index
  | _ => none

/-- The positions of the operations whose execution succeeded, in the order in
which that happened. -/
def executions (notes : List Note) : List Nat :=
  notes.filterMap Note.execution?

theorem executions_concat (notes : List Note) (index : Nat)
    (label : Option String) (outcome : Outcome Unit) :
    executions (notes ++ [.acted index label .execute outcome]) =
      executions notes ++ if outcome.isValue then [index] else [] := by
  rw [executions, List.filterMap_append]
  cases outcome <;> rfl

namespace Operation

/-- The positions of the operations that have not been executed, if the head of
the queue is at `index`. -/
def pendingFrom (index : Nat) : List Operation → List Nat
  | [] => []
  | operation :: later =>
      (if operation.executed then [] else [index]) ++
        pendingFrom (index + 1) later

theorem pendingFrom_append (index : Nat) (earlier later : List Operation) :
    pendingFrom index (earlier ++ later) =
      pendingFrom index earlier ++
        pendingFrom (index + earlier.length) later := by
  induction earlier generalizing index with
  | nil => rfl
  | cons operation others ih =>
      have rest := ih (index + 1)
      rw [Nat.add_right_comm, Nat.add_assoc] at rest
      rw [List.cons_append, pendingFrom, pendingFrom, rest, List.append_assoc,
        List.length_cons]

theorem pendingFrom_of_executed {queue : List Operation}
    (executed : ∀ operation ∈ queue, operation.executed) (index : Nat) :
    pendingFrom index queue = [] := by
  induction queue generalizing index with
  | nil => rfl
  | cons operation later ih =>
      have rest := ih (fun other member =>
        executed other (List.mem_cons_of_mem _ member)) (index + 1)
      rw [pendingFrom, rest, if_pos (executed operation List.mem_cons_self)]
      rfl

theorem pendingFrom_pending {earlier : List Operation}
    (settled : ∀ other ∈ earlier, other.executed) {operation : Operation}
    (pending : operation.executed = false) (later : List Operation) :
    pendingFrom 0 (earlier ++ operation :: later) =
      earlier.length :: pendingFrom (earlier.length + 1) later := by
  rw [pendingFrom_append, pendingFrom_of_executed settled, Nat.zero_add,
    pendingFrom, pending]
  rfl

end Operation

open Operation

/-- The executions that have succeeded and those that are pending run up the
whole queue, in its order. -/
def OnSchedule (standing : Standing σ) : Prop :=
  executions standing.2.notes ++ pendingFrom 0 standing.1 =
    List.range standing.1.length

namespace OnSchedule

variable {service : Service σ} {client : Handle} {standing next : Standing σ}

theorem executeStep (onSchedule : OnSchedule standing)
    (step : ExecuteStep service client standing next) : OnSchedule next := by
  cases step with
  | provide mount operations world =>
      obtain ⟨_, store, run⟩ :=
        ensureMount_takes_no_notes service client mount world
      rw [run]
      exact onSchedule
  | @execute earlier later operation world done settled pending attempt =>
      obtain ⟨outcome, action, store, run, _⟩ := Operation.run_attempt pending
        service client earlier.length world
      rw [run] at attempt
      subst attempt
      unfold OnSchedule at onSchedule ⊢
      dsimp only at onSchedule ⊢
      rw [pendingFrom_pending settled pending] at onSchedule
      rw [executions_concat]
      cases succeeds : outcome.isValue with
      | true =>
          rw [pendingFrom_append, pendingFrom_of_executed settled]
          simpa [pendingFrom] using onSchedule
      | false =>
          rw [pendingFrom_pending settled rfl]
          simpa using onSchedule

theorem queue (onSchedule : OnSchedule standing) (mount : String)
    (action : Action) :
    OnSchedule (standing.1 ++ [({ mount, action } : Operation)],
      standing.2) := by
  unfold OnSchedule at onSchedule ⊢
  dsimp only
  rw [pendingFrom_append, ← List.append_assoc, onSchedule, Nat.zero_add,
    List.length_append]
  exact List.range_succ.symm

end OnSchedule

/-- What is done with a session up to the flush that succeeds. -/
inductive Errand
  | add (mount : String) (action : Action)
  | flush

/-- A session and the world around it after an errand. -/
def Errand.run (service : Service σ) (state : Session × World σ) :
    Errand → Session × World σ
  | .add mount action => (state.1.add mount action, state.2)
  | .flush =>
      let done := state.1.flush.run service state.2
      (done.1.2, done.2)

def Errand.runAll (service : Service σ) (errands : List Errand)
    (state : Session × World σ) : Session × World σ :=
  errands.foldl (run service) state

/-- The operation that an errand queues, if it queues one. -/
def Errand.operation? : Errand → Option Operation
  | .add mount action => some { mount, action }
  | .flush => none

theorem Operation.write?_run (service : Service σ) (client : Handle)
    (index : Nat) (operation : Operation) (world : World σ) :
    ((operation.run client index).run service world).1.2.write? =
      operation.write? := by
  by_cases executed : operation.executed
  · rw [run_executed executed]
    rfl
  · rw [run_pending (by simpa using executed), run_invoke]
    obtain ⟨mount, action, _, _⟩ := operation
    cases action <;> simp [Action.invoke, write?]

theorem map_write?_flush (service : Service σ) (session : Session)
    (world : World σ) :
    (session.flush.run service world).1.2.operations.map Operation.write? =
      session.operations.map Operation.write? := by
  refine flush_keeps service (fun standing =>
    standing.1.map Operation.write? = session.operations.map Operation.write?)
    session world ?_ rfl
  intro standing next step held
  rw [← held]
  cases step with
  | provide => rfl
  | @execute earlier later operation world done settled pending attempt =>
      have kept := Operation.write?_run service session.client earlier.length
        operation world
      rw [attempt] at kept
      simp [kept]

namespace Errand

variable {service : Service σ} {state : Session × World σ}

/-- What holds of a session and its world, and is kept by queueing an operation
and by each step of executing, holds after all errands. -/
theorem runAll_keeps (keeps : Standing σ → Prop) {errands : List Errand}
    (adds : ∀ standing mount action, .add mount action ∈ errands →
      keeps standing →
      keeps (standing.1 ++ [({ mount, action } : Operation)], standing.2))
    (step : ∀ client standing next,
      ExecuteStep service client standing next →
      keeps standing → keeps next)
    (holds : keeps (state.1.operations, state.2)) :
    let reached := runAll service errands state
    keeps (reached.1.operations, reached.2) := by
  induction errands generalizing state with
  | nil => exact holds
  | cons errand later ih =>
      refine @ih (run service state errand) (fun standing mount action member =>
        adds standing mount action (List.mem_cons_of_mem _ member)) ?_
      cases errand with
      | add mount action =>
          exact adds _ mount action List.mem_cons_self holds
      | flush =>
          exact flush_keeps service keeps state.1 state.2 (step _) holds

theorem map_write?_runAll (errands : List Errand)
    (state : Session × World σ) :
    (runAll service errands state).1.operations.map Operation.write? =
      (state.1.operations ++ errands.filterMap operation?).map
        Operation.write? := by
  induction errands generalizing state with
  | nil => simp [runAll]
  | cons errand later ih =>
      refine (ih (run service state errand)).trans ?_
      cases errand with
      | add mount action => simp [run, Session.add, operation?]
      | flush =>
          rw [List.map_append, List.map_append]
          exact congrArg (· ++ _) (map_write?_flush service state.1 state.2)

end Errand

/-- After a flush that succeeds, all executions that have succeeded are one for
each operation, in the order of the queue. -/
theorem executions_eq_range {service : Service σ} {errands : List Errand}
    {session : Session} (empty : session.operations = []) (store : σ) :
    let reached := Errand.runAll service errands (session, { store })
    let last := reached.1.flush.run service reached.2
    last.1.1 = .value () →
      executions last.2.notes =
        List.range (errands.filterMap Errand.operation?).length := by
  intro reached last flushes
  have outset : OnSchedule
      (session.operations, ({ store } : World σ)) := by
    rw [empty]
    rfl
  have onTheWay : OnSchedule (reached.1.operations, reached.2) :=
    Errand.runAll_keeps OnSchedule
      (fun _ mount action _ holds => holds.queue mount action)
      (fun _ _ _ step holds => holds.executeStep step) outset
  have atLast : OnSchedule (last.1.2.operations, last.2) :=
    flush_keeps service OnSchedule reached.1 reached.2
      (fun _ _ step holds => holds.executeStep step) onTheWay
  have executed := executed_of_flush_eq_value service reached.1 reached.2
    flushes
  unfold OnSchedule at atLast
  rw [pendingFrom_of_executed executed, List.append_nil] at atLast
  have queue := congrArg List.length
    ((map_write?_flush service reached.1 reached.2).trans
      (Errand.map_write?_runAll errands (session, { store })))
  rw [List.length_map, List.length_map, empty, List.nil_append] at queue
  rw [atLast]
  exact congrArg List.range queue

/-- The writes of a queue that have been executed. -/
def Operation.executedWrites (queue : List Operation) : List Write :=
  (queue.filter Operation.executed).filterMap Operation.write?

/-- A queue of writes and a store behind a plan of faults, where the bundles are
those that come of the writes which have been executed. -/
structure Sown (origin : MemoryStore) (queue : List Operation)
    (store : Guarded MemoryStore) : Prop where
  truthful : store.plan.Truthful
  orderly : Orderly queue
  onlyWrites : ∀ operation ∈ queue, operation.write?.isSome
  refusals : store.inner.refusedKeys = origin.refusedKeys
  admitted : ∀ write ∈ executedWrites queue, write.key ∉ origin.refusedKeys
  bundles : store.inner.bundles =
    Write.setAll (executedWrites queue) origin.bundles

namespace Sown

open MemoryStore

variable {origin : MemoryStore} {queue earlier later : List Operation}
variable {operation : Operation} {store : Guarded MemoryStore}

theorem executedWrites_pending
    (orderly : Orderly (earlier ++ operation :: later))
    (pending : operation.executed = false) :
    executedWrites (earlier ++ operation :: later) =
        executedWrites earlier ∧
      executedWrites later = [] := by
  have behind := (List.pairwise_cons.1
    (List.pairwise_append.1 orderly.ordered).2.1).1
  have idle : later.filter Operation.executed = [] := by
    rw [List.filter_eq_nil_iff]
    intro other member executed
    have both := behind other member executed
    simp [pending] at both
  simp [executedWrites, List.filter_append, pending, idle]

theorem executedWrites_executed {write : Write}
    (executed : operation.executed) (isWrite : operation.write? = some write)
    (idle : executedWrites later = []) :
    executedWrites (earlier ++ operation :: later) =
      executedWrites earlier ++ [write] := by
  unfold executedWrites at idle ⊢
  rw [List.filter_append, List.filterMap_append,
    List.filter_cons_of_pos executed, List.filterMap_cons_some isWrite, idle]

theorem add (sown : Sown origin queue store) (mount : String)
    {action : Action}
    (isWrite : ({ mount, action } : Operation).write?.isSome) :
    Sown origin (queue ++ [({ mount, action } : Operation)]) store := by
  have same : executedWrites (queue ++ [({ mount, action } : Operation)]) =
      executedWrites queue := by
    simp [executedWrites, List.filter_append]
  refine ⟨sown.truthful, sown.orderly.concat rfl rfl, ?_, sown.refusals, ?_,
    ?_⟩
  · intro operation member
    rcases List.mem_append.1 member with early | last
    · exact sown.onlyWrites operation early
    · rw [List.mem_singleton.1 last]
      exact isWrite
  · rw [same]
    exact sown.admitted
  · rw [same]
    exact sown.bundles

/-- An attempt at the first pending write sows its entry or nothing. -/
theorem attempt {changed : Operation} {world reached : World
      (Guarded MemoryStore)} {outcome : Outcome Unit} {write : Write}
    (sown : Sown origin (earlier ++ operation :: later) world.store)
    (pending : operation.executed = false)
    (isWrite : operation.write? = some write)
    (sameWrite : changed.write? = operation.write?)
    (executed : changed.executed = outcome.isValue)
    (orderly : Orderly (earlier ++ changed :: later))
    (attempted : AllOrNothing Guarded.inner
      (fun state => state.plan.Truthful) write.setIn world (outcome, reached))
    (refusals : reached.store.inner.refusedKeys =
      world.store.inner.refusedKeys)
    (admitted : outcome = .value () →
      write.key ∉ world.store.inner.refusedKeys) :
    Sown origin (earlier ++ changed :: later) reached.store := by
  have onlyWrites : ∀ other ∈ earlier ++ changed :: later,
      other.write?.isSome := by
    have given := sown.onlyWrites
    rw [List.forall_mem_append, List.forall_mem_cons] at given ⊢
    rw [sameWrite]
    exact given
  obtain ⟨before, idle⟩ := executedWrites_pending sown.orderly pending
  have keys := sown.admitted
  have bundles := sown.bundles
  rw [before] at keys bundles
  have refusedAlike := refusals.trans sown.refusals
  rcases attempted.effect with ⟨succeeded, sets⟩ | ⟨error, failed, same⟩
  · obtain rfl : outcome = .value () := succeeded
    have after : executedWrites (earlier ++ changed :: later) =
        executedWrites earlier ++ [write] :=
      executedWrites_executed executed (sameWrite.trans isWrite) idle
    refine ⟨attempted.fair, orderly, onlyWrites, refusedAlike, ?_, ?_⟩
    · rw [after, ← sown.refusals]
      intro other member
      rcases List.mem_append.1 member with early | last
      · rw [sown.refusals]
        exact keys other early
      · rw [List.mem_singleton.1 last]
        exact admitted rfl
    · rw [after, Write.setAll, List.foldl_append]
      exact sets.trans (congrArg write.setIn bundles)
  · obtain rfl : outcome = .fault error := failed
    have after : executedWrites (earlier ++ changed :: later) =
        executedWrites earlier :=
      (executedWrites_pending orderly executed).1
    refine ⟨attempted.fair, orderly, onlyWrites, refusedAlike, ?_, ?_⟩
    · rw [after]
      exact keys
    · rw [after]
      exact same.trans bundles

theorem executeStep {standing next : Standing (Guarded MemoryStore)}
    {client : Handle} (sown : Sown origin standing.1 standing.2.store)
    (step : ExecuteStep service.guarded client standing next) :
    Sown origin next.1 next.2.store := by
  have orderly := sown.orderly.executeStep step
  cases step with
  | provide mount operations world =>
      obtain ⟨truthful, _, bundles⟩ := ensureMount_keeps_bundles
        guarded_relays client mount world sown.truthful
      have continues := guarded_continues (ensureMount client mount) world
      exact ⟨truthful, orderly, sown.onlyWrites,
        continues.refusedKeys.trans sown.refusals, sown.admitted,
        bundles.trans sown.bundles⟩
  | @execute earlier later operation world done settled pending attempt =>
      obtain ⟨write, found⟩ := Option.isSome_iff_exists.1
        (sown.onlyWrites operation (by simp))
      have continues := guarded_continues
        (operation.run client earlier.length) world
      obtain ⟨outcome, reached, tried, run, attempted⟩ := Operation.run_write
        guarded_relays (Operation.write?_eq_some.1 found) pending client
        earlier.length world sown.truthful
      rw [run] at attempt continues
      subst attempt
      refine @attempt _ _ _ _ _ world reached _ _ sown pending found rfl rfl
        orderly attempted continues.refusedKeys ?_
      rintro rfl refused
      refine guarded_refuses sown.truthful refused client write.mount
        write.path write.value ?_
      rw [tried]

end Sown

/-- Errands leave the store refusing what it refused, and what recovers still
does. -/
theorem Errand.runAll_recovers {state : Session × World (Guarded MemoryStore)}
    {errands : List Errand} {refused : List String}
    (refuses : state.2.store.inner.refusedKeys = refused)
    (recovers : ∀ operation ∈ state.1.operations,
      operation.action.Recovers refused)
    (queued : ∀ operation ∈ errands.filterMap operation?,
      operation.action.Recovers refused) :
    let reached := runAll MemoryStore.service.guarded errands state
    reached.2.store.inner.refusedKeys = refused ∧
      ∀ operation ∈ reached.1.operations,
        operation.action.Recovers refused := by
  refine runAll_keeps (fun standing =>
    standing.2.store.inner.refusedKeys = refused ∧
      ∀ operation ∈ standing.1, operation.action.Recovers refused)
    ?_ ?_ ⟨refuses, recovers⟩
  · rintro standing mount action member ⟨same, held⟩
    refine ⟨same, fun operation inside => ?_⟩
    rcases List.mem_append.1 inside with early | last
    · exact held operation early
    · rw [List.mem_singleton.1 last]
      exact queued _ (List.mem_filterMap.2 ⟨_, member, rfl⟩)
  · rintro client standing next step ⟨same, held⟩
    refine ⟨?_, (recovers_executeStep step held).1⟩
    cases step with
    | provide mount operations world =>
        exact (MemoryStore.guarded_continues (ensureMount client mount)
          world).refusedKeys.trans same
    | @execute earlier later operation world done settled pending attempt =>
        rw [← attempt]
        exact (MemoryStore.guarded_continues
          (operation.run client earlier.length) world).refusedKeys.trans same

/-- As long as each flush that fails uses something up, one of them succeeds. -/
theorem Errand.exists_flush_eq_value
    {state : Session × World (Guarded MemoryStore)} {refused : List String}
    (refuses : state.2.store.inner.refusedKeys = refused)
    (recovers : ∀ operation ∈ state.1.operations,
      operation.action.Recovers refused) :
    ∃ count ≤ state.2.store.plan.size + actsLeft state.1.operations,
      let reached := runAll MemoryStore.service.guarded
        (List.replicate count .flush) state
      (reached.1.flush.run MemoryStore.service.guarded reached.2).1.1 =
        .value () := by
  induction bound : state.2.store.plan.size + actsLeft state.1.operations
    using Nat.strongRecOn generalizing state with
  | ind budget ih =>
      obtain ⟨progress, refusesNext, recoversNext⟩ :=
        Session.run_guarded_flush_recovers refuses recovers
      rcases progress with succeeds | fewer
      · exact ⟨0, Nat.zero_le _, succeeds⟩
      · obtain ⟨count, fits, succeeds⟩ := @ih _ (bound ▸ fewer)
          (run MemoryStore.service.guarded state .flush) refusesNext
          recoversNext rfl
        exact ⟨count + 1, bound ▸ Nat.lt_of_le_of_lt fits fewer, succeeds⟩

section Flushed

open MemoryStore

variable {id : Nat} {client : Handle} {errands : List Errand}

/-- Writes that nothing has become of are given by what they write. -/
theorem Errand.map_operation_filterMap
    (onlyWrites : ∀ operation ∈ errands.filterMap operation?,
      operation.write?.isSome) :
    ((errands.filterMap operation?).filterMap Operation.write?).map
        Write.operation = errands.filterMap operation? := by
  induction errands with
  | nil => rfl
  | cons errand later ih =>
      cases errand with
      | flush => exact ih onlyWrites
      | add mount action =>
          have rest := ih fun other member =>
            onlyWrites other (List.mem_cons_of_mem _ member)
          have here := onlyWrites { mount, action } List.mem_cons_self
          cases action with
          | write path key value => exact congrArg (_ :: ·) rest
          | scripted label execute rollback => simp [write?] at here

/-- After a flush of writes that succeeds, the bundles are those of a single
flush that meets no faults. -/
theorem bundles_eq_of_flush {store : Guarded MemoryStore}
    (truthful : store.plan.Truthful)
    (onlyWrites : ∀ operation ∈ errands.filterMap Errand.operation?,
      operation.write?.isSome) :
    let reached := Errand.runAll service.guarded errands
      ({ id, client }, { store })
    let last := reached.1.flush.run service.guarded reached.2
    let whole := ({ id, client
                    operations := errands.filterMap Errand.operation? } :
      Session).flush.run service { store := store.inner }
    last.1.1 = .value () →
      whole.1.1 = .value () ∧
        last.2.store.inner.bundles = whole.2.store.bundles := by
  intro reached last whole flushes
  have outset : Sown store.inner [] store :=
    ⟨truthful, Orderly.nil, by simp, rfl, by simp [executedWrites], rfl⟩
  have onTheWay : Sown store.inner reached.1.operations reached.2.store :=
    Errand.runAll_keeps (fun standing =>
        Sown store.inner standing.1 standing.2.store)
      (fun _ mount action member holds => holds.add mount
        (onlyWrites _ (List.mem_filterMap.2 ⟨_, member, rfl⟩)))
      (fun _ _ _ step holds => holds.executeStep step) outset
  have atLast : Sown store.inner last.1.2.operations last.2.store :=
    flush_keeps service.guarded (fun standing =>
        Sown store.inner standing.1 standing.2.store) reached.1 reached.2
      (fun _ _ step holds => holds.executeStep step) onTheWay
  have executed := executed_of_flush_eq_value service.guarded reached.1
    reached.2 flushes
  have queue := (map_write?_flush service.guarded reached.1 reached.2).trans
    (Errand.map_write?_runAll errands ({ id, client }, { store }))
  have wrote : executedWrites last.1.2.operations =
      (errands.filterMap Errand.operation?).filterMap Operation.write? := by
    have same := congrArg (List.filterMap fun write => write) queue
    rw [executedWrites, List.filter_eq_self.2 executed]
    simpa only [List.filterMap_map, Function.comp_def, List.nil_append] using
      same
  have admitted := atLast.admitted
  rw [wrote] at admitted
  obtain ⟨settled, run, _, bundles, _⟩ := Session.run_flush_admitted id
    client store.inner [] admitted
  rw [List.append_nil, Session.ofWrites,
    Errand.map_operation_filterMap onlyWrites] at run
  have flushedWhole : whole = _ := run
  rw [flushedWhole]
  refine ⟨rfl, ?_⟩
  rw [atLast.bundles, wrote]
  exact bundles.symm

/-- Flushing until it succeeds executes everything that was queued exactly once
and in the order of the queue, over any service and whatever fails on the way.

Over a store in memory behind a plan of faults that claims no missing path, some
flush does succeed if every operation recovers, and a queue of writes leaves the
bundles of a single flush that meets no faults. -/
theorem flush_resumes (id : Nat) (client : Handle) (errands : List Errand) :
    let queue := errands.filterMap Errand.operation?
    (∀ {σ : Type} (service : Service σ) (store : σ),
      let reached := Errand.runAll service errands ({ id, client }, { store })
      let last := reached.1.flush.run service reached.2
      last.1.1 = .value () →
        executions last.2.notes = List.range queue.length) ∧
    ∀ store : Guarded MemoryStore, store.plan.Truthful →
      let reached := Errand.runAll service.guarded errands
        ({ id, client }, { store })
      ((∀ operation ∈ queue,
          operation.action.Recovers store.inner.refusedKeys) →
        ∃ count ≤ reached.2.store.plan.size + actsLeft reached.1.operations,
          let last := Errand.runAll service.guarded
            (List.replicate count .flush) reached
          (last.1.flush.run service.guarded last.2).1.1 = .value ()) ∧
      ((∀ operation ∈ queue, operation.write?.isSome) →
        let last := reached.1.flush.run service.guarded reached.2
        let whole := ({ id, client, operations := queue } : Session).flush.run
          service { store := store.inner }
        last.1.1 = .value () →
          whole.1.1 = .value () ∧
            last.2.store.inner.bundles = whole.2.store.bundles) := by
  refine ⟨fun service store => executions_eq_range rfl store,
    fun store truthful => ⟨?_, bundles_eq_of_flush truthful⟩⟩
  intro recovers
  obtain ⟨refuses, stillRecovers⟩ := @Errand.runAll_recovers
    ({ id, client }, { store }) errands _ rfl (by simp) recovers
  exact Errand.exists_flush_eq_value refuses stillRecovers

/-- Two writes, two flushes and one more write. -/
def retriedErrands : List Errand :=
  [.add "m" (.write "p" "a" "1"), .add "m" (.write "p" "b" "2"), .flush,
    .flush, .add "/m/" (.write "/p" "c" "3")]

/-- A store whose first listing of engines and second change of a bundle
fail. -/
def failingStore : Guarded MemoryStore where
  inner := {}
  plan := {
    mounts := [.fail (.internal "down")]
    patch := [.pass, .fail (.internal "down")] }

/-- The session and the store as these errands leave them. -/
def retriedState : Session × World (Guarded MemoryStore) :=
  Errand.runAll service.guarded retriedErrands
    ({ id := 1, client := 0 }, { store := failingStore })

set_option maxRecDepth 10000 in
/-- The first flush fails before it executes anything and the second one between
the two writes. -/
theorem flush_resumes_retried :
    let last := retriedState.1.flush.run service.guarded retriedState.2
    let whole := ({ id := 1, client := 0
                    operations := retriedErrands.filterMap Errand.operation? } :
      Session).flush.run service { store := {} }
    retriedState.1.operations.map Operation.executed = [true, false, false] ∧
    (∃ count,
      let reached := Errand.runAll service.guarded
        (List.replicate count .flush) retriedState
      (reached.1.flush.run service.guarded reached.2).1.1 = .value ()) ∧
    executions last.2.notes = [0, 1, 2] ∧
    last.2.store.inner.bundles = whole.2.store.bundles := by
  obtain ⟨inOrder, inMemory⟩ := flush_resumes 1 0 retriedErrands
  have truthful : failingStore.plan.Truthful := by
    intro kind error
    cases kind <;> simp +contextual [failingStore, FaultPlan.faults,
      StoreError.isPathNotFound]
  have recovers : ∀ operation ∈ retriedErrands.filterMap Errand.operation?,
      operation.action.Recovers failingStore.inner.refusedKeys := by
    simp [retriedErrands, failingStore, Errand.operation?, Action.Recovers]
  have flushes : (retriedState.1.flush.run service.guarded
      retriedState.2).1.1 = .value () := by
    decide +kernel
  obtain ⟨succeeds, alike⟩ := inMemory failingStore truthful
  obtain ⟨count, _, succeedsThen⟩ := succeeds recovers
  refine ⟨by decide +kernel, ⟨count, succeedsThen⟩, ?_, ?_⟩
  · exact inOrder service.guarded failingStore flushes
  · exact (alike (by decide) flushes).2

end Flushed

end KeyCustody
