import KeyCustody.Proofs.Session.Runs
import Mathlib.Logic.Relation

/-!
# The steps that flushing and undoing are made of

Flushing a queue looks after mount points and executes operations that have not
been executed, each when all before it have been.  Undoing it undoes operations
that need it and takes a note of each failure.  These are the only steps:
whatever every such step keeps, flushing or rolling back keeps, over any
service and whatever the actions of the operations do.
-/

namespace KeyCustody

open Relation

variable {σ : Type}

/-- A queue of operations and the world around it. -/
abbrev Standing (σ : Type) := List Operation × World σ

/-- The steps of executing a queue. -/
inductive ExecuteStep (service : Service σ) (client : Handle) :
    Standing σ → Standing σ → Prop
  | provide (mount : String) (operations : List Operation) (world : World σ) :
      ExecuteStep service client (operations, world)
        (operations, ((ensureMount client mount).run service world).2)
  | execute {earlier later : List Operation} {operation : Operation}
      {world : World σ} {done : (Outcome Unit × Operation) × World σ}
      (settled : ∀ other ∈ earlier, other.executed)
      (pending : operation.executed = false)
      (attempt : (operation.run client earlier.length).run service world =
        done) :
      ExecuteStep service client (earlier ++ operation :: later, world)
        (earlier ++ done.1.2 :: later, done.2)

/-- The steps of undoing a queue. -/
inductive UndoStep (service : Service σ) (client : Handle) :
    Standing σ → Standing σ → Prop
  | undo {earlier later : List Operation} {operation : Operation}
      {world : World σ} {done : (Outcome Unit × Operation) × World σ}
      (needed : operation.needsUndo)
      (attempt : (operation.undo client earlier.length).run service world =
        done) :
      UndoStep service client (earlier ++ operation :: later, world)
        (earlier ++ done.1.2 :: later, done.2)
  | warn (operations : List Operation) (world : World σ) (warning : Warning) :
      UndoStep service client (operations, world)
        (operations, { world with notes := world.notes ++ [.warned warning] })

variable (service : Service σ) (client : Handle)

theorem ensureMounts_steps (mounts : List String)
    (operations : List Operation) (world : World σ) :
    ReflTransGen (ExecuteStep service client) (operations, world)
      (operations, ((ensureMounts client mounts).run service world).2) := by
  induction mounts generalizing world with
  | nil => exact ReflTransGen.refl
  | cons mount others ih =>
      have first : ExecuteStep service client (operations, world)
          (operations, ((ensureMount client mount).run service world).2) :=
        ExecuteStep.provide mount operations world
      rw [run_ensureMounts_cons]
      dsimp only
      cases ((ensureMount client mount).run service world).1 with
      | value result => exact ReflTransGen.head first (ih _)
      | fault error => exact ReflTransGen.single first
      | crash message => exact ReflTransGen.single first

/-- Executing the rest of a queue is made of steps on the whole queue. -/
theorem runAll_steps (earlier later : List Operation) (world : World σ)
    (settled : ∀ operation ∈ earlier, operation.executed) :
    let done := (Operation.runAll client earlier.length later).run service
      world
    ReflTransGen (ExecuteStep service client) (earlier ++ later, world)
      (earlier ++ done.1.2, done.2) := by
  -- The queue is split where execution stands: all before that is executed.
  induction later generalizing earlier world with
  | nil => exact ReflTransGen.refl
  | cons operation later ih =>
      by_cases executed : operation.executed
      · have rest := ih (earlier ++ [operation]) world (by
          intro other member
          rcases List.mem_append.1 member with before | last
          · exact settled other before
          · rw [List.mem_singleton.1 last]
            exact executed)
        simpa [Operation.run_runAll_cons, Operation.run_executed executed]
          using rest
      · have pending : operation.executed = false := by simpa using executed
        generalize attempt :
          (operation.run client earlier.length).run service world = done
        have first : ExecuteStep service client
            (earlier ++ operation :: later, world)
            (earlier ++ done.1.2 :: later, done.2) :=
          ExecuteStep.execute settled pending attempt
        have leftExecuted := Operation.executed_run service client
          earlier.length operation world
        rw [attempt] at leftExecuted
        obtain ⟨⟨outcome, left⟩, reached⟩ := done
        simp only [Operation.run_runAll_cons, attempt]
        cases outcome with
        | value result =>
            have rest := ih (earlier ++ [left]) reached (by
              intro other member
              rcases List.mem_append.1 member with before | last
              · exact settled other before
              · rw [List.mem_singleton.1 last, leftExecuted]
                rfl)
            refine ReflTransGen.head first ?_
            simpa using rest
        | fault error => exact ReflTransGen.single first
        | crash message => exact ReflTransGen.single first

theorem undo_steps (earlier later : List Operation) (operation : Operation)
    (world : World σ) :
    let done := (operation.undo client earlier.length).run service world
    ReflTransGen (UndoStep service client)
      (earlier ++ operation :: later, world)
      (earlier ++ done.1.2 :: later, done.2) := by
  by_cases needed : operation.needsUndo
  · exact ReflTransGen.single (UndoStep.undo needed rfl)
  · have settled : operation.needsUndo = false := by simpa using needed
    rw [Operation.undo_settled settled]
    exact ReflTransGen.refl

theorem undoAll_steps (earlier later : List Operation) (world : World σ) :
    let done := (Operation.undoAll client earlier.length later).run service
      world
    ReflTransGen (UndoStep service client) (earlier ++ later, world)
      (earlier ++ done.1.2, done.2) := by
  induction later generalizing earlier with
  | nil => exact ReflTransGen.refl
  | cons operation later ih =>
      have rest := ih (earlier ++ [operation])
      simp only [List.length_append, List.length_singleton, List.append_assoc,
        List.singleton_append] at rest
      rw [Operation.run_undoAll_cons]
      generalize (Operation.undoAll client (earlier.length + 1) later).run
        service world = undone at rest ⊢
      have last := undo_steps service client earlier undone.1.2 operation
        undone.2
      dsimp only at last ⊢
      split
      next message crashed => exact rest
      next goesOn =>
        split
        next error failed =>
          exact (rest.trans last).tail (UndoStep.warn _ _ _)
        next => exact rest.trans last

theorem flush_steps (session : Session) (world : World σ) :
    let done := session.flush.run service world
    ReflTransGen (ExecuteStep service session.client)
      (session.operations, world) (done.1.2.operations, done.2) := by
  have provided := ensureMounts_steps service session.client session.mounts
    session.operations world
  rw [Session.run_flush]
  dsimp only
  split
  next =>
    have executed := runAll_steps service session.client []
      session.operations
      ((ensureMounts session.client session.mounts).run service world).2
      (by simp)
    exact provided.trans executed
  next => exact provided

theorem rollback_steps (session : Session) (world : World σ) :
    let done := session.rollback.run service world
    ReflTransGen (UndoStep service session.client)
      (session.operations, world) (done.1.2.operations, done.2) := by
  rw [Session.run_rollback]
  exact undoAll_steps service session.client [] session.operations world

theorem flush_keeps (keeps : Standing σ → Prop) (session : Session)
    (world : World σ)
    (step : ∀ standing next,
      ExecuteStep service session.client standing next →
      keeps standing → keeps next)
    (holds : keeps (session.operations, world)) :
    let done := session.flush.run service world
    keeps (done.1.2.operations, done.2) := by
  intro done
  have steps : ReflTransGen (ExecuteStep service session.client)
      (session.operations, world) (done.1.2.operations, done.2) :=
    flush_steps service session world
  generalize (done.1.2.operations, done.2) = last at steps ⊢
  induction steps with
  | refl => exact holds
  | tail _ next ih => exact step _ _ next ih

theorem rollback_keeps (keeps : Standing σ → Prop) (session : Session)
    (world : World σ)
    (step : ∀ standing next,
      UndoStep service session.client standing next →
      keeps standing → keeps next)
    (holds : keeps (session.operations, world)) :
    let done := session.rollback.run service world
    keeps (done.1.2.operations, done.2) := by
  intro done
  have steps : ReflTransGen (UndoStep service session.client)
      (session.operations, world) (done.1.2.operations, done.2) :=
    rollback_steps service session world
  generalize (done.1.2.operations, done.2) = last at steps ⊢
  induction steps with
  | refl => exact holds
  | tail _ next ih => exact step _ _ next ih

theorem undone_of_executeSteps {standing last : Standing σ}
    (steps : ReflTransGen (ExecuteStep service client) standing last) :
    last.1.map Operation.undone = standing.1.map Operation.undone := by
  induction steps with
  | refl => rfl
  | tail _ step ih =>
      rw [← ih]
      cases step with
      | provide => rfl
      | @execute earlier later operation world done settled pending attempt =>
          have kept := Operation.undone_run service client earlier.length
            operation world
          rw [attempt] at kept
          simp [kept]

theorem executed_of_undoSteps {standing last : Standing σ}
    (steps : ReflTransGen (UndoStep service client) standing last) :
    last.1.map Operation.executed = standing.1.map Operation.executed := by
  induction steps with
  | refl => rfl
  | tail _ step ih =>
      rw [← ih]
      cases step with
      | warn => rfl
      | @undo earlier later operation world done needed attempt =>
          have kept := Operation.executed_undo service client earlier.length
            operation world
          rw [attempt] at kept
          simp [kept]

theorem executed_of_runAll_eq_value (index : Nat) (queue : List Operation)
    (world : World σ) :
    let done := (Operation.runAll client index queue).run service world
    done.1.1 = .value () → ∀ operation ∈ done.1.2, operation.executed := by
  induction queue generalizing index world with
  | nil => simp [Operation.runAll]
  | cons operation later ih =>
      have first := Operation.executed_run service client index operation world
      rw [Operation.run_runAll_cons]
      dsimp only at first ⊢
      split
      next succeeded =>
        intro rest
        rw [succeeded] at first
        exact List.forall_mem_cons.2 ⟨first, ih _ _ rest⟩
      next fails =>
        intro succeeds
        exact absurd succeeds (fails ())

theorem pending_of_runAll_ne_value (index : Nat) (queue : List Operation)
    (world : World σ) :
    let done := (Operation.runAll client index queue).run service world
    done.1.1 ≠ .value () → false ∈ done.1.2.map Operation.executed := by
  induction queue generalizing index world with
  | nil => simp [Operation.runAll]
  | cons operation later ih =>
      have first := Operation.executed_run service client index operation world
      rw [Operation.run_runAll_cons]
      dsimp only at first ⊢
      split
      next succeeded =>
        intro rest
        exact List.mem_cons_of_mem _ (ih _ _ rest)
      next fails =>
        intro _
        have pending : ((operation.run client index).run service
            world).1.1.isValue = false :=
          Bool.eq_false_iff.2 (mt Outcome.isValue_eq_true.1 (fails ()))
        rw [List.map_cons, first, pending]
        exact List.mem_cons_self

theorem pending_of_flush_ne_value (session : Session) (world : World σ)
    (fails : (session.flush.run service world).1.1 ≠ .value ())
    (pending : false ∈ session.operations.map Operation.executed) :
    false ∈ (session.flush.run service world).1.2.operations.map
      Operation.executed := by
  have run := Session.run_flush service session world
  dsimp only at run
  split at run
  next =>
    rw [run] at fails ⊢
    exact pending_of_runAll_ne_value service session.client 0
      session.operations _ fails
  next =>
    rw [run]
    exact pending

theorem executed_of_flush_eq_value (session : Session) (world : World σ)
    (flushes : (session.flush.run service world).1.1 = .value ()) :
    ∀ operation ∈ (session.flush.run service world).1.2.operations,
      operation.executed := by
  have run := Session.run_flush service session world
  dsimp only at run
  split at run
  next =>
    rw [run] at flushes ⊢
    exact executed_of_runAll_eq_value service session.client 0
      session.operations _ flushes
  next fails =>
    rw [run] at flushes
    exact absurd flushes (fails ())

end KeyCustody
