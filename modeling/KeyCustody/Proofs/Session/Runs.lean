import KeyCustody.Proofs.Store.Writing
import KeyCustody.Session.Commit

/-!
# What running the verbs of a session comes to

Each verb of a session is a dialogue.  The equations here give the result and
the world that are left when it runs, in terms of the runs of its parts, for
any service.
-/

namespace KeyCustody

variable {σ : Type}

namespace Outcome

@[simp]
theorem isValue_eq_true {outcome : Outcome Unit} :
    outcome.isValue = true ↔ outcome = .value () := by
  cases outcome <;> simp [isValue]

end Outcome

namespace Operation

theorem run_invoke (service : Service σ) (client : Handle) (index : Nat)
    (phase : Phase) (operation : Operation) (world : World σ) :
    (operation.invoke client index phase).run service world =
      let done := (operation.action.invoke client operation.mount phase).run
        service world
      ((done.1.1, { operation with action := done.1.2 }),
        { done.2 with
          notes := done.2.notes ++
            [.acted index done.1.2.label? phase done.1.1] }) := by
  simp [invoke]

theorem run_executed {operation : Operation} (executed : operation.executed)
    (client : Handle) (index : Nat) :
    operation.run client index = .result (.value (), operation) := by
  simp [run, executed]

theorem run_pending {operation : Operation}
    (pending : operation.executed = false) (service : Service σ)
    (client : Handle) (index : Nat) (world : World σ) :
    (operation.run client index).run service world =
      let done := (operation.invoke client index .execute).run service world
      ((done.1.1, { done.1.2 with executed := done.1.1.isValue }), done.2) := by
  simp [run, pending]

theorem executed_run (service : Service σ) (client : Handle) (index : Nat)
    (operation : Operation) (world : World σ) :
    let done := (operation.run client index).run service world
    done.1.2.executed = done.1.1.isValue := by
  by_cases executed : operation.executed
  · simp [run_executed executed, executed]
  · rw [run_pending (by simpa using executed)]

theorem undone_run (service : Service σ) (client : Handle) (index : Nat)
    (operation : Operation) (world : World σ) :
    let done := (operation.run client index).run service world
    done.1.2.undone = operation.undone := by
  by_cases executed : operation.executed
  · simp [run_executed executed]
  · rw [run_pending (by simpa using executed), run_invoke]

theorem undo_settled {operation : Operation}
    (settled : operation.needsUndo = false) (client : Handle) (index : Nat) :
    operation.undo client index = .result (.value (), operation) := by
  simp [undo, settled]

theorem undo_needed {operation : Operation} (needed : operation.needsUndo)
    (service : Service σ) (client : Handle) (index : Nat) (world : World σ) :
    (operation.undo client index).run service world =
      let done := (operation.invoke client index .rollback).run service world
      ((done.1.1, { done.1.2 with undone := done.1.1.isValue }), done.2) := by
  simp [undo, needed]

theorem executed_undo (service : Service σ) (client : Handle) (index : Nat)
    (operation : Operation) (world : World σ) :
    let done := (operation.undo client index).run service world
    done.1.2.executed = operation.executed := by
  by_cases needed : operation.needsUndo
  · rw [undo_needed needed, run_invoke]
  · rw [undo_settled (by simpa using needed)]
    rfl

theorem run_runAll_cons (service : Service σ) (client : Handle) (index : Nat)
    (operation : Operation) (later : List Operation) (world : World σ) :
    (runAll client index (operation :: later)).run service world =
      let done := (operation.run client index).run service world
      let rest := (runAll client (index + 1) later).run service done.2
      match done.1.1 with
      | .value _ => ((rest.1.1, done.1.2 :: rest.1.2), rest.2)
      | stopped => ((stopped, done.1.2 :: later), done.2) := by
  simp only [runAll, Dialogue.bind_eq_bind, Dialogue.run_bind]
  generalize (operation.run client index).run service world = done
  obtain ⟨⟨outcome, left⟩, reached⟩ := done
  cases outcome with
  | value result => simp
  | fault error => rfl
  | crash message => rfl

theorem run_runAll_single (service : Service σ) (client : Handle)
    (index : Nat) (operation : Operation) (world : World σ) :
    (runAll client index [operation]).run service world =
      let done := (operation.run client index).run service world
      ((done.1.1, [done.1.2]), done.2) := by
  rw [run_runAll_cons]
  generalize (operation.run client index).run service world = done
  obtain ⟨⟨outcome, left⟩, reached⟩ := done
  cases outcome <;> rfl

/-- What is left to do once the first operation of a queue has been undone: a
failure is noted. -/
def noteUndone (index : Nat) (later : List Operation)
    (done : Outcome Unit × Operation) :
    Dialogue (Outcome Unit × List Operation) :=
  match done.1 with
  | .fault error => do
      Dialogue.noted (.warned (.notUndone index done.2.mount error))
      return (.value (), done.2 :: later)
  | outcome => return (outcome, done.2 :: later)

/-- The later operations are undone first.  A failure of the first one is
noted. -/
theorem run_undoAll_cons (service : Service σ) (client : Handle)
    (index : Nat) (operation : Operation) (later : List Operation)
    (world : World σ) :
    (undoAll client index (operation :: later)).run service world =
      let rest := (undoAll client (index + 1) later).run service world
      let done := (operation.undo client index).run service rest.2
      match rest.1.1 with
      | .crash message => ((.crash message, operation :: rest.1.2), rest.2)
      | _ =>
          match done.1.1 with
          | .fault error =>
              ((.value (), done.1.2 :: rest.1.2),
                { done.2 with
                  notes := done.2.notes ++
                    [.warned (.notUndone index done.1.2.mount error)] })
          | outcome => ((outcome, done.1.2 :: rest.1.2), done.2) := by
  simp only [undoAll, Dialogue.bind_eq_bind, Dialogue.run_bind]
  generalize (undoAll client (index + 1) later).run service world = rest
  obtain ⟨⟨outcome, left⟩, reached⟩ := rest
  have goesOn := Dialogue.run_bind service (operation.undo client index)
    (noteUndone index left) reached
  generalize (operation.undo client index).run service reached = done
    at goesOn ⊢
  obtain ⟨⟨undone, changed⟩, last⟩ := done
  cases outcome with
  | value result =>
      refine goesOn.trans ?_
      cases undone <;> rfl
  | fault error =>
      refine goesOn.trans ?_
      cases undone <;> rfl
  | crash message => rfl

theorem undoAll_settled {queue : List Operation}
    (settled : ∀ operation ∈ queue, operation.needsUndo = false)
    (client : Handle) (index : Nat) :
    undoAll client index queue = .result (.value (), queue) := by
  induction queue generalizing index with
  | nil => rfl
  | cons operation later ih =>
      rw [List.forall_mem_cons] at settled
      rw [undoAll, ih settled.2]
      simp [undo_settled settled.1]

end Operation

theorem run_ensureMount (service : Service σ) (client : Handle)
    (mount : String) (world : World σ) :
    (ensureMount client mount).run service world =
      let listing := service.answer client .mounts world.store
      let enabling := service.answer client
        (.enable mount ("KV engine for " ++ mount)) listing.2
      match listing.1.inBackground with
      | .value listed =>
          if listed.contains (listedName mount) then
            (.value (), { world with store := listing.2 })
          else (enabling.1.inBackground, { world with store := enabling.2 })
      | .fault error => (.fault error, { world with store := listing.2 })
      | .crash message =>
          (.crash message, { world with store := listing.2 }) := by
  simp only [ensureMount, Dialogue.bind_eq_bind, Dialogue.run_bind]
  simp only [Dialogue.call, Dialogue.run]
  generalize (service.answer client .mounts world.store).1.inBackground = reply
  cases reply with
  | value listed =>
      dsimp only
      split <;> rfl
  | fault error => rfl
  | crash message => rfl

theorem run_ensureMounts_cons (service : Service σ) (client : Handle)
    (mount : String) (others : List String) (world : World σ) :
    (ensureMounts client (mount :: others)).run service world =
      let done := (ensureMount client mount).run service world
      match done.1 with
      | .value _ => (ensureMounts client others).run service done.2
      | stopped => (stopped, done.2) := by
  simp only [ensureMounts, Dialogue.bind_eq_bind, Dialogue.run_bind]
  generalize (ensureMount client mount).run service world = done
  obtain ⟨outcome, reached⟩ := done
  cases outcome <;> rfl

namespace Session

theorem run_rollback (service : Service σ) (session : Session)
    (world : World σ) :
    session.rollback.run service world =
      let done := (Operation.undoAll session.client 0 session.operations).run
        service world
      ((done.1.1, { session with operations := done.1.2 }), done.2) := by
  simp [rollback]

/-- Nothing in the queue needs undoing. -/
def Settled (session : Session) : Prop :=
  ∀ operation ∈ session.operations, operation.needsUndo = false

theorem rollback_settled {session : Session} (settled : session.Settled) :
    session.rollback = .result (.value (), session) := by
  simp [rollback, Operation.undoAll_settled settled]

theorem run_flush (service : Service σ) (session : Session)
    (world : World σ) :
    session.flush.run service world =
      let provided := (ensureMounts session.client session.mounts).run service
        world
      let done := (Operation.runAll session.client 0 session.operations).run
        service provided.2
      match provided.1 with
      | .value _ =>
          ((done.1.1, { session with operations := done.1.2 }), done.2)
      | stopped => ((stopped, session), provided.2) := by
  simp only [flush, Dialogue.bind_eq_bind, Dialogue.run_bind]
  generalize (ensureMounts session.client session.mounts).run service world =
    provided
  obtain ⟨outcome, reached⟩ := provided
  cases outcome with
  | value result => simp
  | fault error => rfl
  | crash message => rfl

theorem run_flush_provided {service : Service σ} {session : Session}
    {world reached : World σ}
    (provided : (ensureMounts session.client session.mounts).run service
      world = (.value (), reached)) :
    session.flush.run service world =
      let done := (Operation.runAll session.client 0 session.operations).run
        service reached
      ((done.1.1, { session with operations := done.1.2 }), done.2) := by
  rw [run_flush, provided]

theorem run_flush_unprovided {service : Service σ} {session : Session}
    {world reached : World σ} {error : StoreError}
    (failed : (ensureMounts session.client session.mounts).run service
      world = (.fault error, reached)) :
    session.flush.run service world = ((.fault error, session), reached) := by
  rw [run_flush, failed]

theorem run_commit (service : Service σ) (session : Session)
    (world : World σ) :
    session.commit.run service world =
      let flushed := session.flush.run service world
      let undone := flushed.1.2.rollback.run service flushed.2
      match flushed.1.1 with
      | .value _ =>
          ((.value (), { flushed.1.2.cleared with committed := true }),
            flushed.2)
      | .fault error =>
          match undone.1.1 with
          | .crash message => ((.crash message, undone.1.2), undone.2)
          | _ => ((.fault error, undone.1.2), undone.2)
      | .crash message => ((.crash message, flushed.1.2), flushed.2) := by
  simp only [commit, Dialogue.bind_eq_bind, Dialogue.run_bind]
  generalize session.flush.run service world = flushed
  obtain ⟨⟨outcome, left⟩, reached⟩ := flushed
  cases outcome with
  | value result => rfl
  | crash message => rfl
  | fault error =>
      simp only [Dialogue.run_bind]
      generalize left.rollback.run service reached = undone
      obtain ⟨⟨undoing, rolledBack⟩, last⟩ := undone
      cases undoing <;> rfl

/-- A commit succeeds with its flush and then empties the queue.  Otherwise it
fails, and leaves the session as flushing or undoing has left it. -/
theorem commit_cases (service : Service σ) (session : Session)
    (world : World σ) :
    let flushed := session.flush.run service world
    let undone := flushed.1.2.rollback.run service flushed.2
    let done := session.commit.run service world
    (flushed.1.1 = .value () ∧
      done = ((.value (), { flushed.1.2.cleared with committed := true }),
        flushed.2)) ∨
    (flushed.1.1 ≠ .value () ∧ done.1.1 ≠ .value () ∧
      ((done.1.2, done.2) = (undone.1.2, undone.2) ∨
        (done.1.2, done.2) = (flushed.1.2, flushed.2))) := by
  rw [run_commit]
  generalize session.flush.run service world = flushed
  obtain ⟨⟨outcome, left⟩, reached⟩ := flushed
  dsimp only
  generalize left.rollback.run service reached = undone
  obtain ⟨⟨undoing, rolledBack⟩, last⟩ := undone
  cases outcome with
  | value result => exact Or.inl ⟨rfl, rfl⟩
  | crash message => exact Or.inr ⟨by simp, by simp, Or.inr rfl⟩
  | fault error =>
      right
      cases undoing <;> exact ⟨by simp, by simp, Or.inl rfl⟩

/-- When a flush that fails leaves nothing to undo, the commit ends as its flush
and leaves nothing to undo either. -/
theorem run_commit_settled (service : Service σ) (session : Session)
    (world : World σ) :
    let flushed := session.flush.run service world
    (flushed.1.1 ≠ .value () → flushed.1.2.Settled) →
      ∃ left : Session, left.Settled ∧ left.client = flushed.1.2.client ∧
        session.commit.run service world =
          ((flushed.1.1, left), flushed.2) := by
  rw [run_commit]
  generalize session.flush.run service world = flushed
  obtain ⟨⟨outcome, left⟩, reached⟩ := flushed
  dsimp only
  intro settled
  cases outcome with
  | value result =>
      refine ⟨{ left.cleared with committed := true }, ?_, rfl, rfl⟩
      intro operation member
      exact absurd member List.not_mem_nil
  | fault error =>
      have settles := settled (by simp)
      refine ⟨left, settles, rfl, ?_⟩
      rw [rollback_settled settles]
      rfl
  | crash message => exact ⟨left, settled (by simp), rfl, rfl⟩

end Session

end KeyCustody
