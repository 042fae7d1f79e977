import KeyCustody.Proofs.Dialogue.Rules
import KeyCustody.Proofs.Operation.Write
import KeyCustody.Proofs.Session.Provisioning

/-!
# How a session goes about its writes

A session that only writes entries asks for the mounted engines, mounts the
engines of its writes, and patches bundles with one of its entries at a time.
Creating bundles and undoing writes also reads bundles and puts them.  It asks
for nothing else, whatever the replies are.

It puts a bundle only straight after an exchange about the bundle at the same
place: either a patch was answered that the bundle is missing, and the data of
the patch is put; or the bundle was read, and it is put without one of the keys
that are written.
-/

namespace KeyCustody

namespace Write

/-- The bundle of the one entry that is written. -/
def data (write : Write) : Bundle :=
  Bundle.ofEntries [(write.key, .string write.value)]

/-- The calls that a session may make for its writes. -/
def Needs (writes : List Write) : Call → Prop
  | .mounts | .read _ _ | .put _ _ _ => True
  | .enable mount _ => ∃ write ∈ writes, write.mount = mount
  | .patch mount path data => ∃ write ∈ writes,
      write.mount = mount ∧ write.path = path ∧ write.data = data
  | .close => False

/-- The rules that a session keeps to for its writes. -/
def Conduct (writes : List Write) (last : Option Exchange) : Call → Prop
  | .put mount path data => ∃ write ∈ writes,
      write.mount = mount ∧ write.path = path ∧
        ((∃ detail, last = some
            ⟨.patch mount path data, .fault (.pathNotFound detail)⟩) ∨
          ∃ bundle, last = some ⟨.read mount path, .value bundle⟩ ∧
            data = bundle.erase write.key)
  | call => Needs writes call

theorem needs_of_conduct {writes : List Write} (last : Option Exchange)
    (call : Call) (conduct : Conduct writes last call) :
    Needs writes call := by
  cases call with
  | put mount path data => trivial
  | _ => exact conduct

end Write

section Operations

variable {write : Write} {writes : List Write}

theorem abides_setEntry (queued : write ∈ writes) (client : Handle)
    (last : Option Exchange) :
    (setEntry client write.mount write.path write.key write.value).Abides
      (Write.Conduct writes) (fun _ => True) last := by
  refine ⟨⟨write, queued, rfl, rfl, rfl⟩, fun reply => ?_⟩
  dsimp only [Dialogue.result_bind]
  split
  next detail =>
    exact ⟨⟨write, queued, rfl, rfl, Or.inl ⟨detail, rfl⟩⟩, fun _ => trivial⟩
  next => trivial

theorem abides_dropEntry (queued : write ∈ writes) (client : Handle)
    (last : Option Exchange) :
    (dropEntry client write.mount write.path write.key).Abides
      (Write.Conduct writes) (fun _ => True) last := by
  refine ⟨trivial, fun reply => ?_⟩
  dsimp only [Dialogue.result_bind]
  split
  next bundle =>
    split
    · exact ⟨⟨write, queued, rfl, rfl, Or.inr ⟨bundle, rfl, rfl⟩⟩,
        fun _ => trivial⟩
    · trivial
  all_goals trivial

theorem abides_ensureMounts {mounts : List String}
    (queued : ∀ mount ∈ mounts, ∃ write ∈ writes, write.mount = mount)
    (client : Handle) (last : Option Exchange) :
    (ensureMounts client mounts).Abides (Write.Conduct writes)
      (fun _ => True) last := by
  refine (assures_ensureMounts client mounts).abides ?_ last
  rintro asker call before (⟨⟨⟩⟩ | ⟨mount, member, ⟨⟩⟩)
  · trivial
  · exact queued mount member

namespace Operation

variable {operation : Operation} {queue : List Operation}

/-- Whichever action of a write is invoked, it remains the same write. -/
theorem abides_invoke (isWrite : operation.task = write.task)
    (queued : write ∈ writes) (client : Handle) (index : Nat) (phase : Phase)
    (last : Option Exchange) :
    (operation.invoke client index phase).Abides (Write.Conduct writes)
      (fun done => done.2.task = operation.task) last := by
  obtain ⟨sameMount, sameAction⟩ := eq_of_task_eq isWrite
  have action : (operation.action.invoke client operation.mount phase).Abides
      (Write.Conduct writes) (fun done => done.2 = operation.action)
      last := by
    rw [sameMount, sameAction]
    cases phase with
    | execute =>
        exact (abides_setEntry queued client last).bind fun _ _ _ => rfl
    | rollback =>
        exact (abides_dropEntry queued client last).bind fun _ _ _ => rfl
  refine action.bind fun done _ same => ?_
  exact congrArg (Prod.mk operation.mount) same

theorem abides_run (isWrite : operation.task = write.task)
    (queued : write ∈ writes) (client : Handle) (index : Nat)
    (last : Option Exchange) :
    (operation.run client index).Abides (Write.Conduct writes)
      (fun done => done.2.task = operation.task) last := by
  unfold run
  split
  · rfl
  · exact (abides_invoke isWrite queued client index .execute last).bind
      fun _ _ same => same

theorem abides_undo (isWrite : operation.task = write.task)
    (queued : write ∈ writes) (client : Handle) (index : Nat)
    (last : Option Exchange) :
    (operation.undo client index).Abides (Write.Conduct writes)
      (fun done => done.2.task = operation.task) last := by
  unfold undo
  split
  · exact (abides_invoke isWrite queued client index .rollback last).bind
      fun _ _ same => same
  · rfl

/-- The operations of a queue are writes, all of them among the given ones. -/
def AreWrites (writes : List Write) (queue : List Operation) : Prop :=
  ∀ operation ∈ queue, ∃ write ∈ writes, operation.task = write.task

theorem AreWrites.of_tasks {queue left : List Operation}
    (areWrites : AreWrites writes queue)
    (same : left.map task = queue.map task) : AreWrites writes left := by
  intro operation member
  have task : operation.task ∈ queue.map Operation.task := by
    rw [← same]
    exact List.mem_map_of_mem member
  obtain ⟨other, queued, same⟩ := List.mem_map.1 task
  rw [← same]
  exact areWrites other queued

theorem abides_runAll (areWrites : AreWrites writes queue) (client : Handle)
    (index : Nat) (last : Option Exchange) :
    (runAll client index queue).Abides (Write.Conduct writes)
      (fun done => done.2.map task = queue.map task) last := by
  induction queue generalizing index last with
  | nil => rfl
  | cons operation later ih =>
      obtain ⟨write, queued, isWrite⟩ := areWrites operation List.mem_cons_self
      have rest := ih (fun other member =>
        areWrites other (List.mem_cons_of_mem _ member)) (index + 1)
      refine (abides_run isWrite queued client index last).bind ?_
      rintro ⟨outcome, left⟩ reached same
      cases outcome with
      | value result =>
          refine (rest reached).bind ?_
          rintro ⟨outcome, others⟩ _ sameLater
          exact List.cons_eq_cons.2 ⟨same, sameLater⟩
      | fault error => exact congrArg (· :: _) same
      | crash message => exact congrArg (· :: _) same

theorem abides_undoAll (areWrites : AreWrites writes queue) (client : Handle)
    (index : Nat) (last : Option Exchange) :
    (undoAll client index queue).Abides (Write.Conduct writes)
      (fun done => done.2.map task = queue.map task) last := by
  induction queue generalizing index last with
  | nil => rfl
  | cons operation later ih =>
      obtain ⟨write, queued, isWrite⟩ := areWrites operation List.mem_cons_self
      have rest := ih (fun other member =>
        areWrites other (List.mem_cons_of_mem _ member)) (index + 1)
      refine (rest last).bind ?_
      rintro ⟨outcome, others⟩ reached sameLater
      have here : ((operation.undo client index).bind
          (noteUndone index others)).Abides (Write.Conduct writes)
          (fun done => done.2.map task = (operation :: later).map task)
          reached := by
        refine (abides_undo isWrite queued client index reached).bind ?_
        rintro ⟨undone, left⟩ _ same
        have whole : (left :: others).map task =
            (operation :: later).map task :=
          List.cons_eq_cons.2 ⟨same, sameLater⟩
        cases undone <;> exact whole
      cases outcome with
      | crash message => exact congrArg (_ :: ·) sameLater
      | value result => exact here
      | fault error => exact here

end Operation

end Operations

namespace Session

/-- The entries that a session is to write. -/
def writes (session : Session) : List Write :=
  session.operations.filterMap Operation.write?

theorem areWrites_writes {session : Session}
    (onlyWrites : ∀ operation ∈ session.operations,
      operation.write?.isSome) :
    Operation.AreWrites session.writes session.operations := by
  intro operation member
  obtain ⟨write, isWrite⟩ := Option.isSome_iff_exists.1
    (onlyWrites operation member)
  exact ⟨write, List.mem_filterMap.2 ⟨operation, member, isWrite⟩,
    Operation.write?_eq_some.1 isWrite⟩

section Writes

variable {session : Session} {writes : List Write}

theorem mem_mounts
    (areWrites : Operation.AreWrites writes session.operations) :
    ∀ mount ∈ session.mounts, ∃ write ∈ writes, write.mount = mount := by
  intro mount member
  obtain ⟨operation, inside, rfl⟩ :=
    List.mem_map.1 (List.mem_eraseDups.1 member)
  obtain ⟨write, listed, isWrite⟩ := areWrites operation inside
  exact ⟨write, listed, (Operation.eq_of_task_eq isWrite).1.symm⟩

theorem abides_flush
    (areWrites : Operation.AreWrites writes session.operations)
    (last : Option Exchange) :
    session.flush.Abides (Write.Conduct writes)
      (fun done => done.2.operations.map Operation.task =
        session.operations.map Operation.task) last := by
  refine (abides_ensureMounts (mem_mounts areWrites) session.client
    last).bind ?_
  intro outcome reached _
  cases outcome with
  | value result =>
      exact (Operation.abides_runAll areWrites session.client 0 reached).bind
        fun _ _ same => same
  | fault error => rfl
  | crash message => rfl

theorem abides_rollback
    (areWrites : Operation.AreWrites writes session.operations)
    (last : Option Exchange) :
    session.rollback.Abides (Write.Conduct writes)
      (fun done => done.2.operations.map Operation.task =
        session.operations.map Operation.task) last :=
  (Operation.abides_undoAll areWrites session.client 0 last).bind
    fun _ _ same => same

theorem abides_commit
    (areWrites : Operation.AreWrites writes session.operations)
    (last : Option Exchange) :
    session.commit.Abides (Write.Conduct writes) (fun _ => True) last := by
  refine (abides_flush areWrites last).bind ?_
  rintro ⟨outcome, left⟩ reached same
  cases outcome with
  | value result => trivial
  | crash message => trivial
  | fault error =>
      refine (abides_rollback (areWrites.of_tasks same) reached).bind ?_
      rintro ⟨undoing, rolledBack⟩ _ _
      cases undoing <;> trivial

end Writes

end Session

end KeyCustody
