import KeyCustody.Proofs.Session.Runs

/-!
# Operations that write one entry

A write is an entry to be set: where, under which key and to which value.  The
queue of a session that only writes entries is a list of writes together with
what has become of each.

Over a service that relays to a store in memory, executing the operation of a
write sets its entry or changes no bundle, and undoing it drops the entry or
changes no bundle.  Either way the operation notes how its action ended.
-/

namespace KeyCustody

variable {σ : Type}

/-- What an operation is meant to do, apart from what has become of it. -/
def Operation.task (operation : Operation) : String × Action :=
  (operation.mount, operation.action)

/-- An entry to be set. -/
structure Write where
  mount : String
  path : String
  key : String
  value : String
deriving DecidableEq, Repr

namespace Write

def place (write : Write) : Location := Location.of write.mount write.path

def task (write : Write) : String × Action :=
  (write.mount, .write write.path write.key write.value)

/-- The operation that carries the write out, before anything became of it. -/
def operation (write : Write) : Operation where
  mount := write.mount
  action := .write write.path write.key write.value

/-- Whether the write is to an entry. -/
def Names (write : Write) (place : Location) (key : String) : Prop :=
  write.place = place ∧ write.key = key

instance (write : Write) (place : Location) (key : String) :
    Decidable (write.Names place key) :=
  inferInstanceAs (Decidable (_ ∧ _))

theorem names_comm {write other : Write} :
    write.Names other.place other.key ↔ other.Names write.place write.key := by
  unfold Names
  rw [eq_comm, eq_comm (a := write.key)]

def setIn (write : Write) (bundles : Bundles) : Bundles :=
  bundles.withEntry write.place write.key (.string write.value)

/-- The bundles after the write is undone. -/
def dropIn (write : Write) (bundles : Bundles) : Bundles :=
  bundles.withoutEntry write.place write.key

@[simp]
theorem task_operation (write : Write) :
    write.operation.task = write.task :=
  rfl

@[simp]
theorem executed_operation (write : Write) :
    write.operation.executed = false :=
  rfl

@[simp]
theorem undone_operation (write : Write) :
    write.operation.undone = false :=
  rfl

theorem value?_setIn (write : Write) (bundles : Bundles) (place : Location)
    (key : String) :
    (write.setIn bundles).value? place key =
      if write.Names place key then some (.string write.value)
      else bundles.value? place key := by
  rw [setIn, Bundles.value?_withEntry]
  simp only [Names, eq_comm]

theorem value?_dropIn (write : Write) (bundles : Bundles) (place : Location)
    (key : String) :
    (write.dropIn bundles).value? place key =
      if write.Names place key then none else bundles.value? place key := by
  rw [dropIn, Bundles.value?_withoutEntry]
  simp only [Names, eq_comm]

end Write

namespace Operation

variable {service : Service σ} {view : σ → MemoryStore} {fair : σ → Prop}

theorem eq_of_task_eq {operation : Operation} {write : Write}
    (isWrite : operation.task = write.task) :
    operation.mount = write.mount ∧
      operation.action = .write write.path write.key write.value := by
  simpa [task, Write.task] using isWrite

/-- The entry that an operation writes, if that is what it does. -/
def write? (operation : Operation) : Option Write :=
  match operation.action with
  | .write path key value => some ⟨operation.mount, path, key, value⟩
  | .scripted _ _ _ => none

theorem write?_eq_some {operation : Operation} {write : Write} :
    operation.write? = some write ↔ operation.task = write.task := by
  obtain ⟨mount, action, executed, undone⟩ := operation
  obtain ⟨writeMount, path, key, value⟩ := write
  cases action <;> simp [write?, task, Write.task]

theorem run_eq_setEntry (service : Service σ) {operation : Operation}
    {write : Write} (isWrite : operation.task = write.task)
    (pending : operation.executed = false) (client : Handle) (index : Nat)
    (world : World σ) :
    (operation.run client index).run service world =
      let done := (setEntry client write.mount write.path write.key
        write.value).run service world
      ((done.1, { operation with executed := done.1.isValue }),
        { done.2 with
          notes := done.2.notes ++ [.acted index none .execute done.1] }) := by
  have same := eq_of_task_eq isWrite
  rw [run_pending pending, run_invoke]
  simp [same.1, same.2, Action.invoke, Action.label?]

theorem undo_eq_dropEntry (service : Service σ) {operation : Operation}
    {write : Write} (isWrite : operation.task = write.task)
    (needed : operation.needsUndo) (client : Handle) (index : Nat)
    (world : World σ) :
    (operation.undo client index).run service world =
      let done := (dropEntry client write.mount write.path write.key).run
        service world
      ((done.1, { operation with undone := done.1.isValue }),
        { done.2 with
          notes := done.2.notes ++ [.acted index none .rollback done.1] }) := by
  have same := eq_of_task_eq isWrite
  rw [undo_needed needed, run_invoke]
  simp [same.1, same.2, Action.invoke, Action.label?]

/-- A pending write that is executed sets its entry or changes no bundle. -/
theorem run_write (relays : service.Relays view fair) {operation : Operation}
    {write : Write} (isWrite : operation.task = write.task)
    (pending : operation.executed = false) (client : Handle) (index : Nat)
    (world : World σ) (isFair : fair world.store) :
    ∃ outcome reached,
      (setEntry client write.mount write.path write.key write.value).run
        service world = (outcome, reached) ∧
      (operation.run client index).run service world =
        ((outcome, { operation with executed := outcome.isValue }),
          { reached with
            notes := world.notes ++ [.acted index none .execute outcome] }) ∧
      AllOrNothing view fair write.setIn world (outcome, reached) := by
  have attempt := setEntry_allOrNothing relays client write.mount write.path
    write.key write.value world isFair
  rw [run_eq_setEntry service isWrite pending]
  generalize (setEntry client write.mount write.path write.key
    write.value).run service world = done at attempt ⊢
  obtain ⟨outcome, reached⟩ := done
  have notes : reached.notes = world.notes := attempt.notes
  refine ⟨outcome, reached, rfl, ?_, attempt⟩
  rw [← notes]

theorem undo_write (relays : service.Relays view fair) {operation : Operation}
    {write : Write} (isWrite : operation.task = write.task)
    (needed : operation.needsUndo) (client : Handle) (index : Nat)
    (world : World σ) (isFair : fair world.store) :
    ∃ outcome reached,
      (operation.undo client index).run service world =
        ((outcome, { operation with undone := outcome.isValue }),
          { reached with
            notes := world.notes ++ [.acted index none .rollback outcome] }) ∧
      AllOrNothing view fair write.dropIn world (outcome, reached) := by
  have attempt := dropEntry_allOrNothing relays client write.mount write.path
    write.key world isFair
  rw [undo_eq_dropEntry service isWrite needed]
  generalize (dropEntry client write.mount write.path write.key).run service
    world = done at attempt ⊢
  obtain ⟨outcome, reached⟩ := done
  have notes : reached.notes = world.notes := attempt.notes
  refine ⟨outcome, reached, ?_, attempt⟩
  rw [← notes]

theorem needsUndo_write {operation : Operation} {write : Write}
    (isWrite : operation.task = write.task) :
    operation.needsUndo = (operation.executed && !operation.undone) := by
  simp [needsUndo, (eq_of_task_eq isWrite).2, Action.canUndo]

end Operation

theorem ensureMount_keeps_bundles {service : Service σ}
    {view : σ → MemoryStore} {fair : σ → Prop}
    (relays : service.Relays view fair) (client : Handle) (mount : String)
    (world : World σ) (isFair : fair world.store) :
    let reached := ((ensureMount client mount).run service world).2
    fair reached.store ∧ reached.notes = world.notes ∧
      (view reached.store).bundles = (view world.store).bundles := by
  have fairListed := relays.fair_answer client .mounts world.store isFair
  have listed : (view (service.answer client .mounts world.store).2).bundles =
      (view world.store).bundles := by
    rcases relays.answer client .mounts world.store isFair with
      ⟨_, same⟩ | ⟨_, same⟩
    · rw [same]
      rfl
    · rw [same]
  rw [run_ensureMount]
  dsimp only
  split
  next names answered =>
    split
    · exact ⟨fairListed, rfl, listed⟩
    · refine ⟨relays.fair_answer _ _ _ fairListed, rfl, ?_⟩
      rcases relays.answer client
          (.enable mount ("KV engine for " ++ mount)) _ fairListed with
        ⟨_, same⟩ | ⟨_, same⟩
      · rw [same, ← listed]
        simp only [MemoryStore.answer, MemoryStore.enableEngine]
        split <;> rfl
      · rw [same, listed]
  next => exact ⟨fairListed, rfl, listed⟩
  next => exact ⟨fairListed, rfl, listed⟩

end KeyCustody
