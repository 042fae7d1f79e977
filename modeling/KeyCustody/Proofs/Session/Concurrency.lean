import KeyCustody.Proofs.Session.Standing

/-!
# Two commits at once

Two sessions commit at the same time to one store in memory.  They write
different entries but may share bundles, and the calls of the one come between
the calls of the other in any way.

Setting an entry may take two calls, and dropping one too: a probe of the
bundle, and a put that goes by what the probe found.  A bundle that changes
between the two is overwritten.  That is the only way in which the entries of a
commit that succeeded get lost.
-/

namespace KeyCustody

section Commits

open MemoryStore Dialogue

variable {write : Write} {side : Side} {writes : List Write}
  (apart : ∀ other ∈ writes, ¬ other.Names write.place write.key)

include apart

theorem setEntry_carries (client : Handle) (shared : Shared MemoryStore) :
    (setEntry client write.mount write.path write.key write.value).Withstands
      service side (Write.Conduct writes)
      (fun outcome reached => outcome = .value () → write.Stands side reached)
      shared := by
  intro patching _
  dsimp only [Dialogue.result_bind]
  split
  next detail missing =>
    intro putting _ reply reached disturbed succeeds
    exact (Write.stands_of_put (Outcome.inBackground_eq_value.1 succeeds)
      client).disturbed apart disturbed
  next =>
    intro reached disturbed succeeds
    exact (Write.stands_of_patch (Outcome.inBackground_eq_value.1 succeeds)
      client).disturbed apart disturbed

/-- Setting another entry leaves a write standing: its bundle is there, so
nothing is put in its place. -/
theorem setEntry_spares {other : Write}
    (elsewhere : ¬ other.Names write.place write.key) (client : Handle)
    {shared : Shared MemoryStore} (stands : write.Stands side shared) :
    (setEntry client other.mount other.path other.key other.value).Withstands
      service side (Write.Conduct writes)
      (fun _ reached => write.Stands side reached) shared := by
  intro patching before
  have standing := stands.disturbed apart before
  have patched := standing.own (Write.spares_patch elsewhere) client
  dsimp only [Dialogue.result_bind]
  split
  next detail missing =>
    have spares : (Call.put other.mount other.path other.data).Spares
        write.place write.key := by
      intro here
      refine patch_present ?_ ?_ other.data detail missing
      · rw [listedName_of_place here]
        exact standing.listed
      · rw [here]
        exact standing.present
    intro putting between reply reached disturbed
    exact ((patched.disturbed apart between).own spares client).disturbed apart
      disturbed
  next =>
    intro reached disturbed
    exact patched.disturbed apart disturbed

omit apart in
/-- Executing a pending write withstands what setting its entry does. -/
theorem Operation.run_withstands {operation : Operation}
    (isWrite : operation.task = write.task)
    (pending : operation.executed = false) {client : Handle} {index : Nat}
    {post : Outcome Unit → Shared MemoryStore → Prop}
    {shared : Shared MemoryStore}
    (sets : (setEntry client write.mount write.path write.key
      write.value).Withstands service side (Write.Conduct writes) post
      shared) :
    (operation.run client index).Withstands service side
      (Write.Conduct writes) (fun done reached => post done.1 reached)
      shared := by
  obtain ⟨sameMount, sameAction⟩ := eq_of_task_eq isWrite
  have invoked : (operation.invoke client index .execute).Withstands service
      side (Write.Conduct writes) (fun done reached => post done.1 reached)
      shared := by
    have action : ((Action.write write.path write.key write.value).invoke
        client write.mount .execute).Withstands service side
        (Write.Conduct writes) (fun done reached => post done.1 reached)
        shared := sets.bind fun _ _ lasts => lasts
    rw [Operation.invoke, sameMount, sameAction]
    exact action.bind fun _ _ lasts => lasts
  rw [Operation.run, if_neg (by simp [pending])]
  exact invoked.bind fun _ _ lasts => lasts

theorem run_spares {operation : Operation} {other : Write}
    (isWrite : operation.task = other.task)
    (elsewhere : ¬ other.Names write.place write.key) (client : Handle)
    (index : Nat) {shared : Shared MemoryStore}
    (stands : write.Stands side shared) :
    (operation.run client index).Withstands service side
      (Write.Conduct writes) (fun _ reached => write.Stands side reached)
      shared := by
  by_cases executed : operation.executed
  · rw [Operation.run_executed executed]
    exact fun reached disturbed => stands.disturbed apart disturbed
  · exact Operation.run_withstands isWrite (by simpa using executed)
      (setEntry_spares apart elsewhere client stands)

theorem runAll_spares {queue : List Operation}
    (elsewhere : ∀ operation ∈ queue, ∃ other : Write,
      operation.task = other.task ∧ ¬ other.Names write.place write.key)
    (client : Handle) (index : Nat) {shared : Shared MemoryStore}
    (stands : write.Stands side shared) :
    (Operation.runAll client index queue).Withstands service side
      (Write.Conduct writes) (fun _ reached => write.Stands side reached)
      shared := by
  induction queue generalizing index shared with
  | nil => exact fun reached disturbed => stands.disturbed apart disturbed
  | cons operation later ih =>
      obtain ⟨other, isWrite, differs⟩ :=
        elsewhere operation List.mem_cons_self
      refine (run_spares apart isWrite differs client index stands).bind ?_
      rintro ⟨outcome, left⟩ reached lasts
      cases outcome with
      | value result =>
          refine (ih (fun operation member => elsewhere operation
            (List.mem_cons_of_mem _ member)) (index + 1)
            (lasts reached .calm)).bind ?_
          exact fun _ _ lasts => lasts
      | fault error => exact lasts
      | crash message => exact lasts

/-- A queue that is executed to its end carries out the last write of each
entry. -/
theorem runAll_carries {before after : List Operation} {operation : Operation}
    (isWrite : operation.task = write.task)
    (pending : operation.executed = false)
    (isLast : ∀ later ∈ after, ∃ other : Write,
      later.task = other.task ∧ ¬ other.Names write.place write.key)
    (client : Handle) (index : Nat) (shared : Shared MemoryStore) :
    (Operation.runAll client index (before ++ operation :: after)).Withstands
      service side (Write.Conduct writes)
      (fun done reached => done.1 = .value () → write.Stands side reached)
      shared := by
  induction before generalizing index shared with
  | nil =>
      refine (Operation.run_withstands isWrite pending
        (setEntry_carries apart client shared)).bind ?_
      rintro ⟨outcome, left⟩ reached lasts
      cases outcome with
      | value result =>
          refine (runAll_spares apart isLast client (index + 1)
            (lasts reached .calm rfl)).bind ?_
          exact fun _ _ lasts later disturbed _ => lasts later disturbed
      | fault error => exact fun _ _ => nofun
      | crash message => exact fun _ _ => nofun
  | cons first others ih =>
      refine (withstands_any (first.run client index) service side _
        shared).bind ?_
      rintro ⟨outcome, left⟩ reached _
      cases outcome with
      | value result =>
          refine (ih (index + 1) reached).bind ?_
          exact fun _ _ lasts => lasts
      | fault error => exact fun _ _ => nofun
      | crash message => exact fun _ _ => nofun

theorem flush_carries {session : Session} {before after : List Operation}
    {operation : Operation}
    (queue : session.operations = before ++ operation :: after)
    (isWrite : operation.task = write.task)
    (pending : operation.executed = false)
    (isLast : ∀ later ∈ after, ∃ other : Write,
      later.task = other.task ∧ ¬ other.Names write.place write.key)
    (shared : Shared MemoryStore) :
    session.flush.Withstands service side (Write.Conduct writes)
      (fun done reached => done.1 = .value () → write.Stands side reached)
      shared := by
  refine (withstands_any (ensureMounts session.client session.mounts) service
    side _ shared).bind ?_
  intro outcome reached _
  cases outcome with
  | value result =>
      dsimp only
      rw [queue]
      exact (runAll_carries apart isWrite pending isLast session.client 0
        reached).bind fun _ _ lasts => lasts
  | fault error => exact fun _ _ => nofun
  | crash message => exact fun _ _ => nofun

theorem commit_carries {session : Session} {before after : List Operation}
    {operation : Operation}
    (queue : session.operations = before ++ operation :: after)
    (isWrite : operation.task = write.task)
    (pending : operation.executed = false)
    (isLast : ∀ later ∈ after, ∃ other : Write,
      later.task = other.task ∧ ¬ other.Names write.place write.key)
    (shared : Shared MemoryStore) :
    session.commit.Withstands service side (Write.Conduct writes)
      (fun done reached => done.1 = .value () → write.Stands side reached)
      shared := by
  refine (flush_carries apart queue isWrite pending isLast shared).bind ?_
  rintro ⟨outcome, left⟩ reached lasts
  cases outcome with
  | value result => exact fun later disturbed _ => lasts later disturbed rfl
  | crash message => exact fun _ _ => nofun
  | fault error =>
      refine (withstands_any left.rollback service side _ reached).bind ?_
      rintro ⟨undoing, rolledBack⟩ _ _
      cases undoing <;> exact fun _ _ => nofun

end Commits

namespace Session

open MemoryStore

/-- Two sessions of writes to different entries commit at once, their calls
interleaved in any way.  If the commit of one side succeeds, it has carried out
the last write of each entry that was still pending; and the entry holds what
was written to the end, unless the other side put the bundle right after the
write, going by what it had been told right before it. -/
theorem commits_keep_writes {store : MemoryStore} {session : Side → Session}
    {schedule : List Side} {side : Side} {before after : List Operation}
    {operation : Operation} {write : Write} {left : Session}
    (onlyWrites : ∀ side, ∀ operation ∈ (session side).operations,
      operation.write?.isSome)
    (disjoint : ∀ one ∈ (session .left).writes,
      ∀ other ∈ (session .right).writes, ¬ other.Names one.place one.key)
    (queue : (session side).operations = before ++ operation :: after)
    (isWrite : operation.write? = some write)
    (pending : operation.executed = false)
    (isLast : ∀ later ∈ after, ∀ other, later.write? = some other →
      ¬ other.Names write.place write.key) :
    let done := Duet.play MemoryStore.service schedule
      { part := fun side => (session side).commit, shared := { store } }
    (done.part side).result? = some (.value (), left) →
    ∃ earlier line later,
      done.shared.lines = earlier ++ (side, line) :: later ∧
      line.Carries write ∧
      (∀ exchange ∈ linesOf side later,
        exchange.call.Spares write.place write.key) ∧
      (Bundles.value? done.shared.store.bundles write.place write.key =
          some (.string write.value) ∨
        Straddles write.place (linesOf side.other earlier)
          (linesOf side.other later)) := by
  intro done ends
  have queued : write ∈ (session side).writes := by
    refine List.mem_filterMap.2 ⟨operation, ?_, isWrite⟩
    rw [queue]
    exact List.mem_append_right _ List.mem_cons_self
  have apart : ∀ other ∈ (session side.other).writes,
      ¬ other.Names write.place write.key := by
    intro other queuedThere
    cases side with
    | left => exact disjoint write queued other queuedThere
    | right =>
        rw [Write.names_comm]
        exact disjoint other queuedThere write queued
  have elsewhere : ∀ later ∈ after, ∃ other : Write,
      later.task = other.task ∧ ¬ other.Names write.place write.key := by
    intro later member
    have inQueue : later ∈ (session side).operations := by
      rw [queue]
      exact List.mem_append_right _ (List.mem_cons_of_mem _ member)
    obtain ⟨other, isOther⟩ := Option.isSome_iff_exists.1
      (onlyWrites side later inQueue)
    exact ⟨other, Operation.write?_eq_some.1 isOther,
      isLast later member other isOther⟩
  have carries := @commit_carries write side _ apart _ _ _ _ queue
    (Operation.write?_eq_some.1 isWrite) pending elsewhere { store }
  have abides := abides_commit (areWrites_writes (onlyWrites side.other)) none
  obtain ⟨earlier, line, later, lines, carried, settled, kept⟩ :=
    (Duet.play_withstands carries abides schedule ends rfl).kept
  exact ⟨earlier, line, later, lines, carried, settled, kept.imp_left And.left⟩

/-- Two sessions that write to one bundle, which is not there yet. -/
def racing : Side → Session
  | .left => ({ id := 1, client := 1 } : Session).addWrite "p" "a" "1" "m"
  | .right => ({ id := 2, client := 2 } : Session).addWrite "p" "b" "2" "m"

def racingStore : MemoryStore :=
  MemoryStore.mount {} "m"

/-- The two sessions move by turns, so that both patch the bundle before either
puts it. -/
def byTurns : List Side :=
  [.left, .right, .left, .right, .left, .right, .left, .right]

def race (schedule : List Side) :
    Duet MemoryStore (Outcome Unit × Session) :=
  Duet.play MemoryStore.service schedule
    { part := fun side => (racing side).commit
      shared := { store := racingStore } }

set_option maxRecDepth 10000 in
/-- Both commits succeed, and one of the entries is lost. -/
theorem commits_lose_write :
    racingStore.refusedKeys = [] ∧ racingStore.refusedPaths = [] ∧
    (∀ one ∈ (racing .left).writes, ∀ other ∈ (racing .right).writes,
      ¬ other.Names one.place one.key) ∧
    ((race byTurns).part .left).result? =
      some (.value (), { id := 1, client := 1, committed := true }) ∧
    ((race byTurns).part .right).result? =
      some (.value (), { id := 2, client := 2, committed := true }) ∧
    (racing .left).writes = [⟨"m", "p", "a", "1"⟩] ∧
    Bundles.value? (race byTurns).shared.store.bundles (Location.of "m" "p")
      "a" = none := by
  decide

set_option maxRecDepth 10000 in
/-- The lost entry was written when the other session had patched the bundle
and had yet to put it. -/
theorem commits_keep_writes_race :
    ∃ earlier line later,
      (race byTurns).shared.lines = earlier ++ (.left, line) :: later ∧
      line.Carries ⟨"m", "p", "a", "1"⟩ ∧
      Straddles (Location.of "m" "p") (linesOf .right earlier)
        (linesOf .right later) := by
  have onlyWrites : ∀ side, ∀ operation ∈ (racing side).operations,
      operation.write?.isSome := by
    intro side
    cases side <;> decide
  have disjoint : ∀ one ∈ (racing .left).writes,
      ∀ other ∈ (racing .right).writes,
        ¬ other.Names one.place one.key := by
    decide
  have queue : (racing .left).operations =
      [] ++ Write.operation ⟨"m", "p", "a", "1"⟩ :: [] := by
    decide
  have ends : ((race byTurns).part .left).result? =
      some (.value (), { id := 1, client := 1, committed := true }) := by
    decide
  have lost : Bundles.value? (race byTurns).shared.store.bundles
      (Location.of "m" "p") "a" = none := by
    decide
  obtain ⟨earlier, line, later, lines, carries, _, kept⟩ :=
    commits_keep_writes onlyWrites disjoint queue rfl rfl
      (fun _ member => absurd member List.not_mem_nil) ends
  refine ⟨earlier, line, later, lines, carries, ?_⟩
  rcases kept with held | straddles
  · exact absurd (lost.symm.trans held) nofun
  · exact straddles

end Session

end KeyCustody
