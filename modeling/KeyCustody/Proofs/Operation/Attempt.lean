import KeyCustody.Proofs.Session.Runs

/-!
# One attempt at an operation

An attempt to execute or to undo an operation invokes its action once and takes
one note of that.  It changes nothing of the operation but the flag of the
phase and what is left of the scripts of the action; whether the action can be
undone stays as it is.  This holds over any service and whatever the action
does.
-/

namespace KeyCustody

variable {σ : Type}

theorem Act.run_perform (service : Service σ) (client : Handle) (act : Act)
    (world : World σ) :
    ∃ outcome store, (act.perform client).run service world =
      (outcome, { world with store }) := by
  cases act with
  | ask call => exact ⟨_, _, rfl⟩
  | _ => exact ⟨_, world.store, rfl⟩

theorem setEntry_takes_no_notes (service : Service σ) (client : Handle)
    (mount path key value : String) (world : World σ) :
    ∃ outcome store,
      (setEntry client mount path key value).run service world =
        (outcome, { world with store }) := by
  rw [run_setEntry]
  dsimp only
  split <;> exact ⟨_, _, rfl⟩

theorem dropEntry_takes_no_notes (service : Service σ) (client : Handle)
    (mount path key : String) (world : World σ) :
    ∃ outcome store,
      (dropEntry client mount path key).run service world =
        (outcome, { world with store }) := by
  rw [run_dropEntry]
  dsimp only
  split
  · split <;> exact ⟨_, _, rfl⟩
  all_goals exact ⟨_, _, rfl⟩

theorem Action.run_invoke (service : Service σ) (client : Handle)
    (mount : String) (phase : Phase) (action : Action) (world : World σ) :
    ∃ outcome left store,
      (action.invoke client mount phase).run service world =
        ((outcome, left), { world with store }) ∧
      left.canUndo = action.canUndo := by
  cases action with
  | write path key value =>
      cases phase with
      | execute =>
          obtain ⟨outcome, store, run⟩ := setEntry_takes_no_notes service
            client mount path key value world
          refine ⟨outcome, .write path key value, store, ?_, rfl⟩
          simp [invoke, run]
      | rollback =>
          obtain ⟨outcome, store, run⟩ := dropEntry_takes_no_notes service
            client mount path key world
          refine ⟨outcome, .write path key value, store, ?_, rfl⟩
          simp [invoke, run]
  | scripted label execute rollback =>
      cases phase with
      | execute =>
          obtain ⟨outcome, store, run⟩ := (nextAct execute).1.run_perform
            service client world
          refine ⟨outcome,
            .scripted label (nextAct execute).2 rollback, store, ?_, rfl⟩
          simp [invoke, run]
      | rollback =>
          obtain ⟨outcome, store, run⟩ :=
            (nextAct (rollback.getD [])).1.run_perform service client world
          refine ⟨outcome, .scripted label execute
            (rollback.map fun _ => (nextAct (rollback.getD [])).2), store, ?_,
            ?_⟩
          · simp [invoke, run]
          · simp [canUndo]

namespace Operation

variable {operation : Operation}

theorem run_attempt (pending : operation.executed = false)
    (service : Service σ) (client : Handle) (index : Nat) (world : World σ) :
    ∃ outcome action store,
      (operation.run client index).run service world =
        ((outcome, { operation with action, executed := outcome.isValue }),
          { store
            notes := world.notes ++
              [.acted index action.label? .execute outcome] }) ∧
      action.canUndo = operation.action.canUndo := by
  obtain ⟨outcome, action, store, run, same⟩ := operation.action.run_invoke
    service client operation.mount .execute world
  refine ⟨outcome, action, store, ?_, same⟩
  rw [run_pending pending, run_invoke, run]

theorem undo_attempt (needed : operation.needsUndo) (service : Service σ)
    (client : Handle) (index : Nat) (world : World σ) :
    ∃ outcome action store,
      (operation.undo client index).run service world =
        ((outcome, { operation with action, undone := outcome.isValue }),
          { store
            notes := world.notes ++
              [.acted index action.label? .rollback outcome] }) ∧
      action.canUndo = operation.action.canUndo := by
  obtain ⟨outcome, action, store, run, same⟩ := operation.action.run_invoke
    service client operation.mount .rollback world
  refine ⟨outcome, action, store, ?_, same⟩
  rw [undo_needed needed, run_invoke, run]

theorem needsUndo_iff : operation.needsUndo ↔
    operation.executed ∧ operation.undone = false ∧
      operation.action.canUndo := by
  simp [needsUndo, and_assoc]

end Operation

theorem ensureMount_takes_no_notes (service : Service σ) (client : Handle)
    (mount : String) (world : World σ) :
    ∃ outcome store, (ensureMount client mount).run service world =
      (outcome, { world with store }) := by
  rw [run_ensureMount]
  dsimp only
  split
  · split <;> exact ⟨_, _, rfl⟩
  all_goals exact ⟨_, _, rfl⟩

end KeyCustody
