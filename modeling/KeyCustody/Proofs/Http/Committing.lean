import KeyCustody.Proofs.Http.Writes
import KeyCustody.Proofs.Http.Mounting

/-!
# Committing one write through a server

A session that has queued one write and nothing else is committed by providing
its engine and then setting its entry.  Neither of them crashes.  Providing the
engine sends no patches, so the first patch is that of the write, and what
becomes of the commit is what becomes of the write.

When the commit fails the write was not executed, so there is nothing to undo
and nothing more is sent.
-/

namespace KeyCustody

variable {σ : Type}

theorem quiet_ensureMounts (client : Handle) (mounts : List String) :
    (ensureMounts client mounts).Assures (fun _ => True)
      fun outcome => ∀ message, outcome ≠ .crash message := by
  induction mounts with
  | nil => exact fun _ => nofun
  | cons mount others ih =>
      have turn : (ensureMount client mount).Assures (fun _ => True)
          fun outcome => ∀ message, outcome ≠ .crash message := by
        refine ⟨trivial, fun reply => ?_⟩
        dsimp only [Dialogue.call, Dialogue.bind]
        cases listing : reply.inBackground with
        | value listed =>
            dsimp only
            split
            · exact fun _ => nofun
            · exact ⟨trivial, fun enabling => enabling.inBackground_ne_crash⟩
        | fault error => exact fun _ => nofun
        | crash message =>
            exact absurd listing (reply.inBackground_ne_crash message)
      refine turn.bind fun outcome quiet => ?_
      cases outcome with
      | value result => exact ih
      | fault error => exact quiet
      | crash message => exact quiet

namespace Session

variable (service : Service σ) {session : Session} {write : Write}

theorem mounts_single (only : session.operations = [write.operation]) :
    session.mounts = [write.mount] := by
  rw [mounts, only]
  rfl

theorem run_flush_single (only : session.operations = [write.operation])
    {world reached : World σ}
    (provided : (ensureMounts session.client [write.mount]).run service
      world = (.value (), reached)) :
    let done := (setEntry session.client write.mount write.path write.key
      write.value).run service reached
    session.flush.run service world =
      ((done.1, { session with
        operations := [{ write.operation with executed := done.1.isValue }] }),
        { done.2 with
          notes := done.2.notes ++ [.acted 0 none .execute done.1] }) := by
  rw [← mounts_single only] at provided
  rw [run_flush_provided provided, only, Operation.run_runAll_single,
    Operation.run_eq_setEntry service write.task_operation
      write.executed_operation]

/-- Committing a session with one pending write.  Either its engine cannot be
provided, or the write decides. -/
theorem run_commit_single (only : session.operations = [write.operation])
    (world : World σ) :
    let provided := (ensureMounts session.client [write.mount]).run service
      world
    let done := (setEntry session.client write.mount write.path write.key
      write.value).run service provided.2
    ∃ left reached, Settled left ∧ left.client = session.client ∧
      ((∃ error, provided.1 = .fault error ∧
          session.commit.run service world =
            ((.fault error, left), reached) ∧
          reached.store = provided.2.store) ∨
        (provided.1 = .value () ∧
          session.commit.run service world = ((done.1, left), reached) ∧
          reached.store = done.2.store)) := by
  intro provided done
  have commit := run_commit_settled service session world
  have quiet : ∀ message, provided.1 ≠ .crash message :=
    (quiet_ensureMounts session.client [write.mount]).run service world
  cases outcome : provided.1 with
  | crash message => exact absurd outcome (quiet message)
  | fault error =>
      have flush : session.flush.run service world =
          ((.fault error, session), provided.2) := by
        apply run_flush_unprovided
        rw [mounts_single only]
        exact Prod.ext outcome rfl
      rw [flush] at commit
      obtain ⟨left, settled, client, run⟩ := commit fun _ => by
        rw [Settled, only]
        exact List.forall_mem_singleton.2 rfl
      exact ⟨left, provided.2, settled, client,
        Or.inl ⟨error, rfl, run, rfl⟩⟩
  | value result =>
      have flush := run_flush_single service only (Prod.ext outcome rfl :
        provided = (.value (), provided.2))
      rw [flush] at commit
      obtain ⟨left, settled, client, run⟩ := commit fun failed => by
        have unexecuted : done.1.isValue = false :=
          Bool.eq_false_iff.2 fun executed =>
            failed (Outcome.isValue_eq_true.1 executed)
        refine List.forall_mem_singleton.2 ?_
        change (done.1.isValue && _ && _) = false
        rw [unexecuted]
        rfl
      exact ⟨left, _, settled, client, Or.inr ⟨rfl, run, rfl⟩⟩

end Session

namespace Http

variable {settings : Settings} {client : Handle} {world : World Link}

/-- The requests that set entries, where `first` is the answer to the first of
them. -/
def setting (settings : Settings) (url : Url) (entries : List (String × Json))
    (first : Option Response) : List Request :=
  writing settings .patch url entries ::
    if isMissing first then [writing settings .post url entries] else []

namespace Peer

/-- The answer that decides about requests that set entries, of which the one at
a position is the first. -/
def deciding? (peer : Peer) (position : Nat) : Option Response :=
  if isMissing (peer.answer? position) then peer.answer? (position + 1)
  else peer.answer? position

theorem deciding?_afterAll (peer : Peer) (sent : List Request)
    (position : Nat) :
    (peer.afterAll sent).deciding? position =
      peer.deciding? (sent.length + position) := by
  simp only [deciding?, answer?_afterAll, Nat.add_assoc]

end Peer

theorem setEntry_sends {mount path : String} {url : Url}
    (addressed : Addressed settings mount path url)
    (connected : Connected client world.store) (key value : String) :
    let peer := world.store.peer
    let done := (setEntry client mount path key value).run
      (Link.service settings) world
    done.1 = writeOutcome mount path (peer.deciding? 0) ∧
    done.2.store.peer = peer.afterAll
      (setting settings url [(key, .string value)] (peer.answer? 0)) := by
  dsimp only
  rw [run_setEntry_addressed addressed connected, Peer.deciding?, setting]
  split <;> exact ⟨rfl, rfl⟩

theorem provision_sends (settings : Settings) (mounts : List String)
    (connected : Connected client world.store) :
    let left := ((ensureMounts client mounts).run (Link.service settings)
      world).2.store
    Connected client left ∧ ∃ sent, left.peer = world.store.peer.afterAll sent ∧
      ∀ request ∈ sent, request.method ≠ .patch := by
  obtain ⟨unreleased, listening, peer⟩ := peer_run settings
    (asks_ensureMounts client mounts) connected.unreleased connected.listening
  refine ⟨⟨unreleased, listening⟩, _, peer, fun request member patches => ?_⟩
  obtain ⟨⟨asker, call⟩, asked, requested⟩ := List.mem_filterMap.1 member
  obtain ⟨text, content, planned, _⟩ := of_requestFor? requested
  rw [patches] at planned
  obtain ⟨_, rfl | ⟨mount, _, rfl⟩⟩ := mem_requests_ensureMounts asked
  · cases planned
  · cases planned

/-- A session with one pending write sends the requests that set its entry, if
its engine can be provided.  No patch is sent before, and the answers to these
requests decide about the commit. -/
theorem commit_sends {server : String} {home : Url}
    (leads : LeadsTo settings server home)
    (sendable : isSendable settings.token = true) {session : Session}
    {write : Write} (only : session.operations = [write.operation])
    (world : World Link) (connected : Connected session.client world.store) :
    let url := home.beneath (bundleName write.mount write.path)
    let entries := [(write.key, Json.string write.value)]
    let peer := world.store.peer
    ∃ sent outcome left reached,
      session.commit.run (Link.service settings) world =
        ((outcome, left), reached) ∧
      Session.Settled left ∧ left.client = session.client ∧
      (∀ request ∈ sent, request.method ≠ .patch) ∧
      ((∃ error, outcome = .fault error ∧
          reached.store.peer = peer.afterAll sent) ∨
        outcome = writeOutcome write.mount write.path
            (peer.deciding? sent.length) ∧
          reached.store.peer = peer.afterAll (sent ++
            setting settings url entries (peer.answer? sent.length))) := by
  intro url entries peer
  obtain ⟨connectedNext, sent, provides, unpatched⟩ :=
    provision_sends settings [write.mount] connected
  obtain ⟨left, reached, settled, client, ends⟩ := Session.run_commit_single
    (Link.service settings) only world
  have addressed := leads.addressed sendable write.mount write.path
  obtain ⟨outcome, sets⟩ := setEntry_sends addressed connectedNext
    write.key write.value
  rw [provides, Peer.deciding?_afterAll, Nat.add_zero] at outcome
  rw [provides, Peer.answer?_afterAll, Nat.add_zero] at sets
  rcases ends with ⟨error, _, run, store⟩ | ⟨_, run, store⟩
  · refine ⟨sent, _, left, reached, run, settled, client, unpatched,
      Or.inl ⟨error, rfl, ?_⟩⟩
    rw [store, provides]
  · refine ⟨sent, _, left, reached, run, settled, client, unpatched,
      Or.inr ⟨outcome, ?_⟩⟩
    rw [store, sets, Peer.afterAll_append]

end Http

end KeyCustody
