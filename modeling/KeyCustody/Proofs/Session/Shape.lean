import KeyCustody.Proofs.Session.Tally

/-!
# The shape of a session

Whatever is done with a session, and whatever its actions and the store do, the
executed operations are the first ones of its queue, only executed operations
that can be undone are undone, and a committed session has an empty queue.

Flushing therefore executes only operations at the end of the queue, which are
as many as are pending, and each of them only when all before it have been
executed.
-/

namespace KeyCustody

open Relation

variable {σ : Type}

/-- The executed operations of a queue are its first ones, and only executed
operations that can be undone are undone. -/
structure Orderly (queue : List Operation) : Prop where
  ordered : queue.Pairwise fun earlier later =>
    later.executed → earlier.executed
  proper : ∀ operation ∈ queue, operation.undone →
    operation.executed ∧ operation.action.canUndo

namespace Orderly

variable {service : Service σ} {client : Handle} {queue : List Operation}
variable {standing next : Standing σ}

theorem nil : Orderly [] where
  ordered := List.Pairwise.nil
  proper := by simp

theorem concat (orderly : Orderly queue) {operation : Operation}
    (pending : operation.executed = false)
    (kept : operation.undone = false) : Orderly (queue ++ [operation]) where
  ordered := by
    refine List.pairwise_append.2
      ⟨orderly.ordered, List.pairwise_singleton _ _, ?_⟩
    intro earlier _ last member executed
    rw [List.mem_singleton.1 member, pending] at executed
    simp at executed
  proper := by
    intro other member undone
    rcases List.mem_append.1 member with early | last
    · exact orderly.proper other early undone
    · rw [List.mem_singleton.1 last, kept] at undone
      simp at undone

theorem executeStep (orderly : Orderly standing.1)
    (step : ExecuteStep service client standing next) : Orderly next.1 := by
  cases step with
  | provide mount operations world => exact orderly
  | @execute earlier later operation world done settled pending attempt =>
      obtain ⟨outcome, action, store, run, same⟩ := Operation.run_attempt
        pending service client earlier.length world
      rw [run] at attempt
      subst attempt
      obtain ⟨early, late, across⟩ :=
        List.pairwise_append.1 orderly.ordered
      obtain ⟨first, rest⟩ := List.pairwise_cons.1 late
      constructor
      · refine List.pairwise_append.2
          ⟨early, List.pairwise_cons.2 ⟨?_, rest⟩, ?_⟩
        · -- Nothing after a pending operation has been executed.
          intro other member executed
          have both := first other member executed
          simp [pending] at both
        · intro other member _ _ _
          exact settled other member
      · intro other member undone
        rcases List.mem_append.1 member with member | member
        · exact orderly.proper other (List.mem_append_left _ member) undone
        · rcases List.mem_cons.1 member with rfl | member
          · have here := orderly.proper operation (by simp) undone
            simp [pending] at here
          · exact orderly.proper other (by simp [member]) undone

theorem undoStep (orderly : Orderly standing.1)
    (step : UndoStep service client standing next) : Orderly next.1 := by
  have flags := executed_of_undoSteps service client
    (ReflTransGen.single step)
  constructor
  · have ordered := orderly.ordered
    rw [← List.pairwise_map (f := Operation.executed)
      (R := fun earlier later => later → earlier)] at ordered ⊢
    rw [flags]
    exact ordered
  · cases step with
    | warn operations world warning => exact orderly.proper
    | @undo earlier later operation world done needed attempt =>
        obtain ⟨outcome, action, store, run, same⟩ := Operation.undo_attempt
          needed service client earlier.length world
        rw [run] at attempt
        subst attempt
        obtain ⟨executed, _, canUndo⟩ := Operation.needsUndo_iff.1 needed
        intro other member undone
        rcases List.mem_append.1 member with member | member
        · exact orderly.proper other (List.mem_append_left _ member) undone
        · rcases List.mem_cons.1 member with rfl | member
          · exact ⟨executed, same.trans canUndo⟩
          · exact orderly.proper other (by simp [member]) undone

theorem exists_split (orderly : Orderly queue) :
    ∃ settled pending, queue = settled ++ pending ∧
      (∀ operation ∈ settled, operation.executed) ∧
      ∀ operation ∈ pending, operation.executed = false := by
  have ordered := orderly.ordered
  clear orderly
  induction queue with
  | nil => exact ⟨[], [], rfl, by simp, by simp⟩
  | cons operation later ih =>
      obtain ⟨first, rest⟩ := List.pairwise_cons.1 ordered
      obtain ⟨settled, pending, split, executed, notExecuted⟩ := ih rest
      by_cases here : operation.executed
      · exact ⟨operation :: settled, pending, by rw [split, List.cons_append],
          List.forall_mem_cons.2 ⟨here, executed⟩, notExecuted⟩
      · refine ⟨[], operation :: later, rfl, by simp, ?_⟩
        intro other member
        rcases List.mem_cons.1 member with rfl | member
        · simpa using here
        · exact Bool.eq_false_iff.2 (mt (first other member) here)

end Orderly

namespace Session

/-- The executed operations are the first ones of the queue, and the pending
ones are the rest. -/
theorem executed_prefix {session : Session}
    (orderly : Orderly session.operations) :
    session.operations.filter Operation.executed <+: session.operations ∧
    ∀ index, index < session.operations.length →
      (Done session.operations index .execute ↔
        index + session.pending < session.operations.length) := by
  obtain ⟨settled, pending, split, executed, notExecuted⟩ :=
    orderly.exists_split
  have first : session.operations.filter Operation.executed = settled := by
    rw [split, List.filter_append, List.filter_eq_self.2 executed,
      List.filter_eq_nil_iff.2 (by simpa using notExecuted), List.append_nil]
  have count : session.pending = pending.length := by
    unfold Session.pending
    rw [split, List.filter_append,
      List.filter_eq_nil_iff.2 (by simpa using executed),
      List.filter_eq_self.2 (by simpa using notExecuted), List.nil_append]
  refine ⟨by rw [first, split]; exact List.prefix_append _ _, ?_⟩
  intro index inside
  rw [count]
  unfold Done
  rw [split, List.length_append] at *
  rcases Nat.lt_or_ge index settled.length with before | after
  · rw [List.getElem?_append_left before, List.getElem?_eq_getElem before]
    have here := executed _ (List.getElem_mem before)
    constructor
    · intro _
      omega
    · intro _
      exact ⟨_, rfl, here⟩
  · rw [List.getElem?_append_right after]
    constructor
    · rintro ⟨operation, found, done⟩
      have late := notExecuted operation (List.mem_of_getElem? found)
      simp [Operation.done, late] at done
    · intro within
      omega

/-- The shape that a session keeps. -/
structure Coherent (session : Session) : Prop where
  orderly : Orderly session.operations
  emptied : session.committed → session.operations = []

variable {service : Service σ} {session : Session}

/-- The sessions that come of a fresh one, whatever the store is at each use.
Queueing a write is a case of queueing an operation. -/
inductive Reachable (service : Service σ) : Session → Prop
  | fresh (id : Nat) (client : Handle) : Reachable service { id, client }
  | add {session : Session} (mount : String) (action : Action) :
      Reachable service session →
      Reachable service (session.add mount action)
  | flush {session : Session} (world : World σ) :
      Reachable service session →
      Reachable service (session.flush.run service world).1.2
  | commit {session : Session} (world : World σ) :
      Reachable service session →
      Reachable service (session.commit.run service world).1.2
  | rollback {session : Session} (world : World σ) :
      Reachable service session →
      Reachable service (session.rollback.run service world).1.2
  | close {session : Session} (world : World σ) :
      Reachable service session →
      Reachable service (session.close.run service world).1.2

/-- Closing a committed session only empties it.  Any other session is rolled
back and then emptied, unless undoing it crashes. -/
theorem close_cases (service : Service σ) (session : Session)
    (world : World σ) :
    let undone := session.rollback.run service world
    let done := session.close.run service world
    (session.committed ∧ done = ((.value (), session.cleared), world)) ∨
    (session.committed = false ∧
      ((∃ message, done = ((.crash message, undone.1.2), undone.2)) ∨
        done = ((.value (), undone.1.2.cleared), undone.2))) := by
  unfold close
  split
  next committed => exact Or.inl ⟨committed, rfl⟩
  next notCommitted =>
    right
    refine ⟨by simpa using notCommitted, ?_⟩
    simp only [Dialogue.bind_eq_bind, Dialogue.run_bind]
    generalize session.rollback.run service world = undone
    obtain ⟨⟨outcome, left⟩, reached⟩ := undone
    cases outcome with
    | crash message => exact Or.inl ⟨message, rfl⟩
    | _ => exact Or.inr rfl

theorem committed_flush (service : Service σ) (session : Session)
    (world : World σ) :
    (session.flush.run service world).1.2.committed = session.committed := by
  rw [run_flush]
  dsimp only
  split <;> rfl

theorem committed_rollback (service : Service σ) (session : Session)
    (world : World σ) :
    (session.rollback.run service world).1.2.committed =
      session.committed := by
  rw [run_rollback]

namespace Coherent

theorem cleared (session : Session) : session.cleared.Coherent where
  orderly := Orderly.nil
  emptied := by simp [Session.cleared]

theorem add (coherent : session.Coherent) (mount : String) (action : Action) :
    (session.add mount action).Coherent where
  orderly := coherent.orderly.concat rfl rfl
  emptied := by simp [Session.add]

theorem flush (service : Service σ) (coherent : session.Coherent)
    (world : World σ) :
    (session.flush.run service world).1.2.Coherent where
  orderly := flush_keeps service (fun standing => Orderly standing.1) session
    world (fun _ _ step orderly => orderly.executeStep step) coherent.orderly
  emptied := by
    rw [committed_flush]
    intro committed
    have flags := undone_of_executeSteps service session.client
      (flush_steps service session world)
    rw [coherent.emptied committed] at flags
    simpa using flags

theorem rollback (service : Service σ) (coherent : session.Coherent)
    (world : World σ) :
    (session.rollback.run service world).1.2.Coherent where
  orderly := rollback_keeps service (fun standing => Orderly standing.1) session
    world (fun _ _ step orderly => orderly.undoStep step) coherent.orderly
  emptied := by
    rw [committed_rollback]
    intro committed
    have flags := executed_of_undoSteps service session.client
      (rollback_steps service session world)
    rw [coherent.emptied committed] at flags
    simpa using flags

theorem commit (service : Service σ) (coherent : session.Coherent)
    (world : World σ) :
    (session.commit.run service world).1.2.Coherent := by
  have flushed := coherent.flush service world
  rcases commit_cases service session world with
    ⟨_, committed⟩ | ⟨_, _, same | same⟩
  · rw [committed]
    exact ⟨Orderly.nil, fun _ => rfl⟩
  · rw [(Prod.mk.inj same).1]
    exact flushed.rollback service _
  · rw [(Prod.mk.inj same).1]
    exact flushed

theorem close (service : Service σ) (coherent : session.Coherent)
    (world : World σ) :
    (session.close.run service world).1.2.Coherent := by
  have undone := coherent.rollback service world
  rcases close_cases service session world with
    ⟨_, closed⟩ | ⟨_, ⟨message, crashed⟩ | closed⟩
  · rw [closed]
    exact cleared session
  · rw [crashed]
    exact undone
  · rw [closed]
    exact cleared _

theorem rollback_committed (service : Service σ)
    (coherent : session.Coherent) (committed : session.committed)
    (world : World σ) :
    session.rollback.run service world = ((.value (), session), world) := by
  have emptied := coherent.emptied committed
  rw [run_rollback, emptied]
  obtain ⟨id, client, operations, flag⟩ := session
  subst emptied
  rfl

end Coherent

theorem Reachable.coherent (reachable : Reachable service session) :
    session.Coherent := by
  induction reachable with
  | fresh id client => exact ⟨Orderly.nil, by simp⟩
  | add mount action _ ih => exact ih.add mount action
  | flush world _ ih => exact ih.flush service world
  | commit world _ ih => exact ih.commit service world
  | rollback world _ ih => exact ih.rollback service world
  | close world _ ih => exact ih.close service world

theorem phase_of_flush (service : Service σ) (session : Session)
    (store : σ) {index : Nat} {label : Option String} {phase : Phase}
    {outcome : Outcome Unit}
    (noted : .acted index label phase outcome ∈
      (session.flush.run service { store }).2.notes) : phase = .execute := by
  have executes := flush_keeps service (fun standing =>
    ∀ index label phase outcome,
      Note.acted index label phase outcome ∈ standing.2.notes →
        phase = .execute) session { store } ?_ (by simp)
  · exact executes index label phase outcome noted
  · intro standing next step holds index label phase outcome member
    cases step with
    | provide mount operations world =>
        obtain ⟨_, store, run⟩ :=
          ensureMount_takes_no_notes service session.client mount world
        rw [run] at member
        exact holds index label phase outcome member
    | @execute earlier later operation world done settled pending attempt =>
        obtain ⟨_, action, store, run, _⟩ := Operation.run_attempt pending
          service session.client earlier.length world
        rw [run] at attempt
        subst attempt
        rcases List.mem_append.1 member with early | last
        · exact holds index label phase outcome early
        · rw [List.mem_singleton] at last
          injection last

/-- In whatever way a session is used, the executed operations are the first
ones of its queue, an operation that was undone was executed and can be undone,
and a committed session has an empty queue, so that rolling it back does
nothing.

Flushing only executes, and only the operations at the end of the queue, as many
as are pending, each when all before it have been executed. -/
theorem reachable_keeps_shape (reachable : Reachable service session) :
    session.operations.filter Operation.executed <+: session.operations ∧
    (∀ operation ∈ session.operations, operation.undone →
      operation.executed ∧ operation.action.canUndo) ∧
    (session.committed → session.operations = [] ∧ ∀ world,
      session.rollback.run service world = ((.value (), session), world)) ∧
    ∀ (store : σ) (before : List Note) (index : Nat) (label : Option String)
      (phase : Phase) (outcome : Outcome Unit) (after : List Note),
      (session.flush.run service { store }).2.notes =
        before ++ .acted index label phase outcome :: after →
      phase = .execute ∧ index < session.operations.length ∧
      session.operations.length ≤ index + session.pending ∧
      ∀ earlier < index, Done session.operations earlier .execute ∨
        Succeeded before earlier .execute := by
  have coherent := reachable.coherent
  obtain ⟨first, done⟩ := executed_prefix coherent.orderly
  refine ⟨first, coherent.orderly.proper, ?_, ?_⟩
  · intro committed
    exact ⟨coherent.emptied committed,
      coherent.rollback_committed service committed⟩
  · intro store before index label phase outcome after noted
    have member : .acted index label phase outcome ∈
        (session.flush.run service { store }).2.notes := by
      rw [noted]
      exact List.mem_append_right _ List.mem_cons_self
    have executes := phase_of_flush service session store member
    subst executes
    have outset : Tallied session.operations []
        (session.operations, ({ store } : World σ)) :=
      ⟨[], rfl, Tally.refl _⟩
    obtain ⟨notes, taken, tally⟩ := outset.flush service session { store }
    rw [List.nil_append] at taken
    obtain ⟨inside, pending, settled⟩ :=
      tally.timely before _ after (taken.symm.trans noted)
    refine ⟨rfl, inside, ?_, settled⟩
    have notDone : ¬ Done session.operations index .execute :=
      fun isDone => pending (Or.inl isDone)
    rw [done index inside] at notDone
    omega

/-- A session that has failed to commit once, since when an operation was added:
the first operation has been executed and undone, and the others are pending. -/
def retried : Session :=
  let queued := (({ id := 1, client := 1 } : Session).add "m"
    (.scripted "A" [] (some []))).add "m"
    (.scripted "B" [.fail (.internal "down"), .succeed] none)
  (queued.commit.run MemoryStore.service { store := {} }).1.2.add "m"
    (.scripted "C" [] none)

theorem retried_reachable : Reachable MemoryStore.service retried :=
  (((Reachable.fresh 1 1).add _ _).add _ _).commit _ |>.add _ _

set_option maxRecDepth 10000 in
/-- Flushing such a session executes the two pending operations, and the first
operation was executed before. -/
theorem reachable_keeps_shape_retried :
    Reachable MemoryStore.service retried ∧
    retried.operations.map Operation.undone = [true, false, false] ∧
    retried.operations.filter Operation.executed <+: retried.operations ∧
    (retried.flush.run MemoryStore.service { store := {} }).2.notes =
      [.acted 1 (some "B") .execute (.value ()),
        .acted 2 (some "C") .execute (.value ())] ∧
    retried.operations.length ≤ 1 + retried.pending ∧
    (Done retried.operations 0 .execute ∨ Succeeded [] 0 .execute) := by
  obtain ⟨first, _, _, flushes⟩ := reachable_keeps_shape retried_reachable
  have noted : (retried.flush.run MemoryStore.service
      { store := {} }).2.notes =
        [.acted 1 (some "B") .execute (.value ()),
          .acted 2 (some "C") .execute (.value ())] := by
    decide
  obtain ⟨_, _, pending, settled⟩ := flushes {} [] 1 _ _ _ _ noted
  exact ⟨retried_reachable, by decide, first, noted, pending,
    settled 0 (by decide)⟩

end Session

end KeyCustody
