import KeyCustody.Proofs.Dialogue.Trace
import KeyCustody.Proofs.Session.Runs
import KeyCustody.Session.Scope

/-!
# Whether a scope releases its client

Cleaning up behind the work of a scope undoes what was not committed, in one
pass or in two, and then releases the client.  Crashes of the work are caught
before that.  Crashes of the undoing are not: the client is released exactly if
no operation crashes while it is undone.
-/

namespace KeyCustody

variable {α β σ : Type}

namespace Event

/-- The undoing of an operation crashes. -/
def IsCrash (event : Event) : Prop :=
  ∃ index label message,
    event = .noted (.acted index label .rollback (.crash message))

def IsClose (event : Event) : Prop :=
  ∃ client, event = .asked client .close

end Event

namespace Session

/-- The part of cleaning up that undoes operations and empties the queue. -/
def compensate (outcome : Outcome α) (session : Session) :
    Dialogue (Outcome Unit × Session) :=
  if outcome.isValue then session.close
  else do
    let (rolledBack, session) ← session.rollback
    match rolledBack with
    | .crash message => return (.crash message, session)
    | _ => session.close

/-- Cleaning up is undoing, and releasing the client unless that crashes. -/
theorem leave_eq (outcome : Outcome α) (session : Session) :
    leave outcome session =
      (compensate outcome session).bind fun done =>
        match done.1 with
        | .crash message => .result (.crash message)
        | _ => done.2.release := by
  unfold leave compensate disconnect
  split
  · rfl
  · simp only [Dialogue.bind_eq_bind, Dialogue.bind_assoc]
    congr 1
    funext done
    obtain ⟨rolledBack, left⟩ := done
    cases rolledBack <;> rfl

end Session

/-- The undoing of an action may make a call. -/
def Action.MayAsk (call : Call) : Action → Prop
  | .scripted _ _ (some script) => .ask call ∈ script
  | _ => False

/-- A call is made, and it is one of the given ones. -/
def Event.IsCall (calls : Call → Prop) (event : Event) : Prop :=
  ∃ client call, event = .asked client call ∧ calls call

section Asking

variable {calls : Call → Prop} {kind : β → Prop}

theorem nextAct_mem (script : List Act) :
    (nextAct script).1 = .succeed ∨ (nextAct script).1 ∈ script := by
  rcases script with _ | ⟨first, _ | ⟨second, later⟩⟩ <;> simp [nextAct]

theorem nextAct_subset (script : List Act) :
    (nextAct script).2 ⊆ script := by
  rcases script with _ | ⟨first, _ | ⟨second, later⟩⟩ <;> simp [nextAct]

theorem Act.assures_perform (client : Handle) {act : Act}
    (permitted : ∀ call, act = .ask call → calls call) :
    (act.perform client).Assures (Event.IsCall calls) fun _ => True := by
  cases act with
  | ask call =>
      exact ⟨⟨client, call, rfl, permitted call rfl⟩, fun _ => trivial⟩
  | _ => trivial

theorem assures_dropEntry (liberal : ∀ call, call ≠ .close → calls call)
    (client : Handle) (mount path key : String) :
    (dropEntry client mount path key).Assures (Event.IsCall calls)
      fun _ => True := by
  refine ⟨⟨client, _, rfl, liberal _ (by simp)⟩, fun reply => ?_⟩
  dsimp only [Dialogue.result_bind]
  split
  next bundle =>
    split
    · exact ⟨⟨client, _, rfl, liberal _ (by simp)⟩, fun _ => trivial⟩
    · trivial
  all_goals trivial

theorem Action.assures_rollback (liberal : ∀ call, call ≠ .close → calls call)
    (client : Handle) (mount : String) {action : Action}
    (permitted : ∀ call, action.MayAsk call → calls call) :
    (action.invoke client mount .rollback).Assures (Event.IsCall calls)
      fun done => ∀ call, done.2.MayAsk call → calls call := by
  cases action with
  | write path key value =>
      refine (assures_dropEntry liberal client mount path key).bind ?_
      intro outcome _ call asks
      exact asks.elim
  | scripted label execute rollback =>
      have act : ((nextAct (rollback.getD [])).1.perform client).Assures
          (Event.IsCall calls) fun _ => True := by
        refine Act.assures_perform client fun call asks => ?_
        cases rollback with
        | none => simp [nextAct] at asks
        | some script =>
            rcases nextAct_mem script with succeeds | member
            · simp [succeeds] at asks
            · rw [Option.getD_some] at asks
              rw [asks] at member
              exact permitted call member
      refine act.bind fun outcome _ call asks => ?_
      cases rollback with
      | none => exact asks.elim
      | some script => exact permitted call (nextAct_subset script asks)

theorem Action.asks_rollback (service : Service σ) (client : Handle)
    (mount : String) (action : Action) (world : World σ) :
    ∀ event ∈ (action.invoke client mount .rollback).trace service world,
      event.IsCall fun _ => True :=
  (assures_rollback (fun _ _ => trivial) client mount
    fun _ _ => trivial).mem_trace service world

end Asking

/-- No operation of a queue may close a client when it is undone. -/
def Discreet (queue : List Operation) : Prop :=
  ∀ operation ∈ queue, ¬ operation.action.MayAsk .close

namespace Operation

theorem assures_undo (client : Handle) (index : Nat) {operation : Operation}
    (discreet : ¬ operation.action.MayAsk .close) :
    (operation.undo client index).Assures (fun event => ¬ event.IsClose)
      fun done => ¬ done.2.action.MayAsk .close := by
  unfold undo invoke
  split
  · have permitted : ∀ call, operation.action.MayAsk call → call ≠ .close :=
      fun call asks same => discreet (same ▸ asks)
    have quiet : (operation.action.invoke client operation.mount
        .rollback).Assures (fun event => ¬ event.IsClose)
        fun done => ¬ done.2.MayAsk .close := by
      refine (Action.assures_rollback (fun _ => id) client operation.mount
        permitted).mono ?_ ?_
      · rintro event ⟨other, call, rfl, calls⟩ ⟨client, closes⟩
        injection closes with _ same
        exact calls same
      · intro done stays asks
        exact stays .close asks rfl
    simp only [Dialogue.bind_eq_bind, Dialogue.bind_assoc]
    refine quiet.bind fun done permitted => ⟨?_, permitted⟩
    rintro ⟨client, closes⟩
    cases closes
  · exact discreet

theorem assures_undoAll (client : Handle) (index : Nat)
    {queue : List Operation} (discreet : Discreet queue) :
    (undoAll client index queue).Assures (fun event => ¬ event.IsClose)
      fun done => Discreet done.2 := by
  induction queue generalizing index with
  | nil => exact discreet
  | cons operation later ih =>
      have rest := ih (index + 1) fun other member =>
        discreet other (List.mem_cons_of_mem _ member)
      have here := discreet operation List.mem_cons_self
      unfold undoAll
      refine rest.bind fun done discreetLater => ?_
      obtain ⟨outcome, left⟩ := done
      have undoes : ((operation.undo client index).bind
          (noteUndone index left)).Assures
          (fun event => ¬ event.IsClose) fun done => Discreet done.2 := by
        refine (assures_undo client index here).bind fun done permitted => ?_
        obtain ⟨undone, changed⟩ := done
        have whole : Discreet (changed :: left) :=
          List.forall_mem_cons.2 ⟨permitted, discreetLater⟩
        cases undone with
        | fault error =>
            refine ⟨?_, whole⟩
            rintro ⟨client, closes⟩
            cases closes
        | _ => exact whole
      cases outcome with
      | crash message =>
          exact List.forall_mem_cons.2 ⟨here, discreetLater⟩
      | _ => exact undoes

end Operation

namespace Dialogue

/-- A dialogue ends in a crash exactly if the undoing of an operation crashes on
the way. -/
def CrashesOpenly (service : Service σ)
    (dialogue : Dialogue (Outcome Unit × β)) : Prop :=
  ∀ world, (∃ message, (dialogue.run service world).1.1 = .crash message) ↔
    ∃ event ∈ dialogue.trace service world, event.IsCrash

variable {service : Service σ} {γ : Type}

theorem crashesOpenly_result {done : Outcome Unit × β}
    (goesOn : ∀ message, done.1 ≠ .crash message) :
    (result done).CrashesOpenly service := by
  intro world
  simp [goesOn]

/-- Work that goes on unless it has crashed crashes openly if its parts do. -/
theorem CrashesOpenly.bind {dialogue : Dialogue (Outcome Unit × β)}
    {after : Outcome Unit × β → Dialogue (Outcome Unit × γ)}
    (first : dialogue.CrashesOpenly service)
    (stops : ∀ message left, ∃ last,
      after (.crash message, left) = .result (.crash message, last))
    (rest : ∀ done, (∀ message, done.1 ≠ .crash message) →
      (after done).CrashesOpenly service) :
    (dialogue.bind after).CrashesOpenly service := by
  intro world
  have firstOpenly := first world
  rw [run_bind, trace_bind]
  generalize dialogue.run service world = reached at firstOpenly ⊢
  obtain ⟨⟨outcome, left⟩, next⟩ := reached
  by_cases crashed : ∃ message, outcome = .crash message
  · obtain ⟨event, member, isCrash⟩ := firstOpenly.1 crashed
    obtain ⟨message, rfl⟩ := crashed
    obtain ⟨last, same⟩ := stops message left
    rw [same]
    constructor
    · intro _
      exact ⟨event, List.mem_append_left _ member, isCrash⟩
    · intro _
      exact ⟨message, rfl⟩
  · have quiet : ¬ ∃ event ∈ dialogue.trace service world, event.IsCrash :=
      fun found => crashed (firstOpenly.2 found)
    have goesOn : ∀ message, outcome ≠ .crash message :=
      fun message same => crashed ⟨message, same⟩
    rw [rest (outcome, left) goesOn next]
    constructor
    · rintro ⟨event, member, isCrash⟩
      exact ⟨event, List.mem_append_right _ member, isCrash⟩
    · rintro ⟨event, member, isCrash⟩
      rcases List.mem_append.1 member with early | late
      · exact absurd ⟨event, early, isCrash⟩ quiet
      · exact ⟨event, late, isCrash⟩

end Dialogue

namespace Operation

theorem trace_undo {operation : Operation} (needed : operation.needsUndo)
    (service : Service σ) (client : Handle) (index : Nat) (world : World σ) :
    (operation.undo client index).trace service world =
      let act := operation.action.invoke client operation.mount .rollback
      let done := act.run service world
      act.trace service world ++
        [.noted (.acted index done.1.2.label? .rollback done.1.1)] := by
  simp [undo, needed, invoke]

theorem crashesOpenly_undo (service : Service σ) (client : Handle)
    (index : Nat) (operation : Operation) :
    (operation.undo client index).CrashesOpenly service := by
  intro world
  by_cases needed : operation.needsUndo
  · have asks := Action.asks_rollback service client operation.mount
      operation.action world
    rw [undo_needed needed, run_invoke, trace_undo needed]
    dsimp only
    generalize (operation.action.invoke client operation.mount
      .rollback).trace service world = asked at asks ⊢
    generalize ((operation.action.invoke client operation.mount
      .rollback).run service world).1 = done
    obtain ⟨outcome, left⟩ := done
    constructor
    · rintro ⟨message, rfl⟩
      exact ⟨_, List.mem_append_right _ (List.mem_singleton_self _), index,
        left.label?, message, rfl⟩
    · rintro ⟨event, member, position, label, message, isCrash⟩
      rcases List.mem_append.1 member with early | last
      · obtain ⟨_, _, isCall, _⟩ := asks event early
        simp [isCall] at isCrash
      · rw [List.mem_singleton.1 last] at isCrash
        injection isCrash with same
        injection same with _ _ _ crashed
        exact ⟨message, crashed⟩
  · have settled : operation.needsUndo = false := by simpa using needed
    rw [undo_settled settled]
    exact Dialogue.crashesOpenly_result (by simp) world

theorem crashesOpenly_undoAll (service : Service σ) (client : Handle)
    (index : Nat) (queue : List Operation) :
    (undoAll client index queue).CrashesOpenly service := by
  induction queue generalizing index with
  | nil => exact Dialogue.crashesOpenly_result (by simp)
  | cons operation later ih =>
      unfold undoAll
      refine (ih (index + 1)).bind ?_ ?_
      · intro message left
        exact ⟨operation :: left, rfl⟩
      · rintro ⟨outcome, left⟩ goesOn
        have here : ((operation.undo client index).bind
            (noteUndone index left)).CrashesOpenly service := by
          refine (crashesOpenly_undo service client index operation).bind ?_ ?_
          · intro message changed
            exact ⟨changed :: left, rfl⟩
          · rintro ⟨undone, changed⟩ goesOn world
            cases undone with
            | value result => simp [noteUndone]
            | crash message => exact absurd rfl (goesOn message)
            | fault error =>
                simp [noteUndone, Event.IsCrash, Dialogue.trace,
                  Dialogue.noted]
        cases outcome with
        | crash message => exact absurd rfl (goesOn message)
        | _ => exact here

end Operation

namespace Session

variable (service : Service σ) (session : Session)

theorem crashesOpenly_rollback : session.rollback.CrashesOpenly service := by
  refine (Operation.crashesOpenly_undoAll service session.client 0
    session.operations).bind ?_ ?_
  · intro message left
    exact ⟨_, rfl⟩
  · intro done goesOn
    exact Dialogue.crashesOpenly_result goesOn

theorem crashesOpenly_close : session.close.CrashesOpenly service := by
  unfold close
  split
  · exact Dialogue.crashesOpenly_result (by simp)
  · refine (crashesOpenly_rollback service session).bind ?_ ?_
    · intro message left
      exact ⟨left, rfl⟩
    · rintro ⟨outcome, left⟩ goesOn
      cases outcome with
      | crash message => exact absurd rfl (goesOn message)
      | _ => exact Dialogue.crashesOpenly_result (by simp)

theorem crashesOpenly_compensate (outcome : Outcome α) :
    (compensate outcome session).CrashesOpenly service := by
  unfold compensate
  split
  · exact crashesOpenly_close service session
  · refine (crashesOpenly_rollback service session).bind ?_ ?_
    · intro message left
      exact ⟨left, rfl⟩
    · rintro ⟨outcome, left⟩ goesOn
      cases outcome with
      | crash message => exact absurd rfl (goesOn message)
      | _ => exact crashesOpenly_close service left

theorem keepsClient_rollback :
    session.rollback.Assures (fun _ => True)
      fun done => done.2.client = session.client :=
  (Operation.undoAll session.client 0 session.operations).assures_any.bind
    fun _ _ => rfl

theorem keepsClient_close :
    session.close.Assures (fun _ => True)
      fun done => done.2.client = session.client := by
  unfold close
  split
  · exact rfl
  · refine session.keepsClient_rollback.bind ?_
    rintro ⟨outcome, left⟩ same
    cases outcome <;> exact same

theorem keepsClient_compensate (outcome : Outcome α) :
    (compensate outcome session).Assures (fun _ => True)
      fun done => done.2.client = session.client := by
  unfold compensate
  split
  · exact session.keepsClient_close
  · refine session.keepsClient_rollback.bind ?_
    rintro ⟨outcome, left⟩ same
    cases outcome with
    | crash message => exact same
    | _ =>
        refine left.keepsClient_close.mono (fun _ allowed => allowed) ?_
        exact fun _ kept => kept.trans same

theorem run_release (world : World σ) :
    (session.release.run service world).1 = .value () ∧
    session.release.requests service world = [(session.client, .close)] ∧
    ∀ event ∈ session.release.trace service world, ¬ event.IsCrash := by
  unfold release Dialogue.requests
  simp only [Dialogue.bind_eq_bind, Dialogue.run_bind, Dialogue.trace_bind]
  split <;> simp [Event.request?, Event.IsCrash, Dialogue.trace,
    Dialogue.call, Dialogue.noted]

theorem leave_settled (settled : session.Settled) (outcome : Outcome α) :
    leave outcome session = session.release := by
  have disconnects : session.disconnect = session.release := by
    rw [disconnect, close, rollback_settled settled]
    split <;> rfl
  rw [leave, rollback_settled settled]
  split
  · exact disconnects
  · exact disconnects

theorem assures_rollback (discreet : Discreet session.operations) :
    session.rollback.Assures (fun event => ¬ event.IsClose)
      fun done => Discreet done.2.operations :=
  (Operation.assures_undoAll session.client 0 discreet).bind
    fun _ permitted => permitted

theorem assures_close (discreet : Discreet session.operations) :
    session.close.Assures (fun event => ¬ event.IsClose) fun _ => True := by
  unfold close
  split
  · trivial
  · refine (assures_rollback session discreet).bind ?_
    rintro ⟨outcome, left⟩ _
    cases outcome <;> trivial

theorem assures_compensate (outcome : Outcome α)
    (discreet : Discreet session.operations) :
    (compensate outcome session).Assures (fun event => ¬ event.IsClose)
      fun _ => True := by
  unfold compensate
  split
  · exact assures_close session discreet
  · refine (assures_rollback session discreet).bind ?_
    rintro ⟨outcome, left⟩ permitted
    cases outcome with
    | crash message => trivial
    | _ => exact assures_close left permitted

/-- The client is closed once, and nothing is asked after that. -/
def ReleasedLast (client : Handle) (requests : List (Handle × Call)) : Prop :=
  ∃ before, requests = before ++ [(client, .close)] ∧
    ∀ request ∈ before, request.2 ≠ .close

section Leaving

variable (outcome : Outcome α) (world : World σ)

/-- Some operation crashes while it is undone behind the work. -/
def CrashesOnLeaving : Prop :=
  ∃ event ∈ (leave outcome session).trace service world, event.IsCrash

theorem crashesOnLeaving_iff :
    CrashesOnLeaving service session outcome world ↔
      ∃ message, ((compensate outcome session).run service world).1.1 =
        .crash message := by
  have openly := crashesOpenly_compensate service session outcome world
  unfold CrashesOnLeaving
  rw [openly, leave_eq, Dialogue.trace_bind]
  constructor
  · rintro ⟨event, member, isCrash⟩
    rcases List.mem_append.1 member with early | late
    · exact ⟨event, early, isCrash⟩
    · split at late
      · simp at late
      · exact absurd isCrash ((run_release service _ _).2.2 event late)
  · rintro ⟨event, member, isCrash⟩
    exact ⟨event, List.mem_append_left _ member, isCrash⟩

theorem leave_crashes
    (crashes : CrashesOnLeaving service session outcome world) :
    (∃ message, ((leave outcome session).run service world).1 =
      .crash message) ∧
    (leave outcome session).requests service world =
      (compensate outcome session).requests service world := by
  obtain ⟨message, crashed⟩ :=
    (crashesOnLeaving_iff service session outcome world).1 crashes
  rw [leave_eq, Dialogue.run_bind, Dialogue.requests_bind, crashed]
  exact ⟨⟨message, rfl⟩, List.append_nil _⟩

theorem leave_releases
    (quiet : ¬ CrashesOnLeaving service session outcome world) :
    ((leave outcome session).run service world).1 = .value () ∧
    (leave outcome session).requests service world =
      (compensate outcome session).requests service world ++
        [(session.client, .close)] := by
  rw [crashesOnLeaving_iff] at quiet
  rw [leave_eq, Dialogue.run_bind, Dialogue.requests_bind]
  split
  next message crashed => exact absurd ⟨message, crashed⟩ quiet
  next =>
    obtain ⟨released, requests, _⟩ := run_release service
      ((compensate outcome session).run service world).1.2
      ((compensate outcome session).run service world).2
    rw [requests,
      (session.keepsClient_compensate outcome).run service world]
    exact ⟨released, rfl⟩

/-- A client is released last exactly if no operation crashes while it is
undone, provided that no undoing closes clients itself. -/
theorem releasedLast_iff (discreet : Discreet session.operations) :
    ReleasedLast session.client
        ((leave outcome session).requests service world) ↔
      ¬ CrashesOnLeaving service session outcome world := by
  have kept : ∀ request ∈ (compensate outcome session).requests service world,
      request.2 ≠ .close := by
    intro request member closes
    obtain ⟨event, made, asked⟩ := List.mem_filterMap.1 member
    refine (assures_compensate session outcome discreet).mem_trace service
      world event made ⟨request.1, ?_⟩
    cases event with
    | asked client call =>
        rw [Event.request?, Option.some.injEq] at asked
        subst asked
        exact congrArg (Event.asked client) closes
    | _ => simp [Event.request?] at asked
  constructor
  · rintro ⟨before, split, _⟩ crashes
    rw [(leave_crashes service session outcome world crashes).2] at split
    rw [split] at kept
    exact kept (session.client, .close)
      (List.mem_append_right _ (List.mem_singleton_self _)) rfl
  · intro quiet
    exact ⟨_, (leave_releases service session outcome world quiet).2, kept⟩

end Leaving

theorem run_opened {service : Service σ} {client : Handle} {world : World σ}
    (connected : (service.connect world.store).1 = .value client) (id : Nat) :
    (opened id).run service world =
      (.value { id, client },
        { world with store := (service.connect world.store).2 }) := by
  simp [opened, Dialogue.connected, Dialogue.run, connected,
    Outcome.inBackground, Outcome.map]

theorem run_scope {service : Service σ} {client : Handle} {world : World σ}
    (connected : (service.connect world.store).1 = .value client) (id : Nat)
    (work : Session → StateM (World σ) (Outcome α × Session)) :
    scope (m := StateM (World σ)) (fun dialogue => dialogue.run service) id
        work world =
      let worked := work { id, client }
        { world with store := (service.connect world.store).2 }
      let left := (leave worked.1.1 worked.1.2).run service worked.2
      match left.1 with
      | .crash message => (.crash message, left.2)
      | _ => (worked.1.1, left.2) := by
  have opens := run_opened connected id
  simp only [scope, within, bind, StateT.bind]
  rw [opens]
  dsimp only
  simp only [StateT.bind, bind]
  generalize work { id, client }
    { world with store := (service.connect world.store).2 } = worked
  obtain ⟨⟨outcome, session⟩, reached⟩ := worked
  dsimp only
  cases ((leave outcome session).run service reached).1 <;> rfl

theorem run_scope_dialogue {service : Service σ} {client : Handle}
    {world : World σ}
    (connected : (service.connect world.store).1 = .value client) (id : Nat)
    (work : Session → Dialogue (Outcome α × Session)) :
    (scope (m := Dialogue) (fun dialogue => dialogue) id work).run service
        world =
      let worked := (work { id, client }).run service
        { world with store := (service.connect world.store).2 }
      let left := (leave worked.1.1 worked.1.2).run service worked.2
      match left.1 with
      | .crash message => (.crash message, left.2)
      | _ => (worked.1.1, left.2) := by
  have opens := run_opened connected id
  simp only [scope, within, Dialogue.bind_eq_bind, Dialogue.run_bind]
  rw [opens]
  simp only [Dialogue.run_bind]
  generalize (work { id, client }).run service
    { world with store := (service.connect world.store).2 } = worked
  obtain ⟨⟨outcome, session⟩, reached⟩ := worked
  dsimp only
  cases ((leave outcome session).run service reached).1 <;> rfl

/-- A scope whose work has begun ends with cleaning up behind it.  If no
operation crashes while it is undone there, the client is released last, and
the scope ends as the work does.  Otherwise the client is not released, and the
scope ends in a crash. -/
theorem scope_releases_iff (service : Service σ) (id : Nat) {client : Handle}
    {world : World σ}
    (work : Session → StateM (World σ) (Outcome α × Session))
    (connected : (service.connect world.store).1 = .value client) :
    let worked := work { id, client }
      { world with store := (service.connect world.store).2 }
    let outcome := worked.1.1
    let session := worked.1.2
    let done := scope (m := StateM (World σ))
      (fun dialogue => dialogue.run service) id work world
    let crashes := CrashesOnLeaving service session outcome worked.2
    let requests := (leave outcome session).requests service worked.2
    let undoing := (compensate outcome session).requests service worked.2
    done.2 = ((leave outcome session).run service worked.2).2 ∧
    (¬ crashes → done.1 = outcome ∧
      requests = undoing ++ [(session.client, .close)]) ∧
    (crashes → (∃ message, done.1 = .crash message) ∧ requests = undoing) ∧
    (Discreet session.operations →
      (ReleasedLast session.client requests ↔ ¬ crashes)) := by
  dsimp only
  rw [run_scope connected]
  refine ⟨?_, ?_, ?_, releasedLast_iff _ _ _ _⟩
  · dsimp only
    split <;> rfl
  · intro quiet
    obtain ⟨released, requests⟩ := leave_releases _ _ _ _ quiet
    dsimp only
    rw [released]
    exact ⟨rfl, requests⟩
  · intro crashes
    obtain ⟨⟨message, crashed⟩, requests⟩ := leave_crashes _ _ _ _ crashes
    dsimp only
    rw [crashed]
    exact ⟨⟨message, rfl⟩, requests⟩

def flushing (action : Action) (outcome : Outcome Unit) (session : Session) :
    StateM (World MemoryStore) (Outcome Unit × Session) :=
  fun world =>
    let done := (session.add "m" action).flush.run MemoryStore.service world
    ((outcome, done.1.2), done.2)

set_option maxRecDepth 10000 in
/-- A client is released behind work that crashes. -/
theorem scope_releases_crashed_work :
    let worked := flushing (.write "p" "a" "1") (.crash "work")
      { id := 1, client := 0 } { store := MemoryStore.record {} .connect }
    (MemoryStore.service.connect {}).1 = .value 0 ∧
    Discreet worked.1.2.operations ∧
    ReleasedLast 0 ((leave worked.1.1 worked.1.2).requests
      MemoryStore.service worked.2) := by
  intro worked
  have discreet : Discreet worked.1.2.operations := by
    have only : worked.1.2.operations =
        [{ mount := "m", action := .write "p" "a" "1", executed := true }] := by
      decide
    intro operation member
    rw [only, List.mem_singleton] at member
    rw [member]
    exact fun asks => asks
  have trace : (leave worked.1.1 worked.1.2).trace MemoryStore.service
      worked.2 =
        [.asked 0 (.read "m" "p"), .asked 0 (.put "m" "p" ∅),
          .noted (.acted 0 none .rollback (.value ())),
          .asked 0 .close] := by
    decide
  have quiet : ¬ CrashesOnLeaving MemoryStore.service worked.1.2 worked.1.1
      worked.2 := by
    rintro ⟨event, member, index, label, message, rfl⟩
    rw [trace] at member
    simp at member
  have connected : (MemoryStore.service.connect
      ({ store := {} } : World MemoryStore).store).1 = .value 0 :=
    rfl
  have releases := scope_releases_iff MemoryStore.service 1
    (flushing (.write "p" "a" "1") (.crash "work")) connected
  exact ⟨connected, discreet, (releases.2.2.2 discreet).2 quiet⟩

set_option maxRecDepth 10000 in
/-- When the undoing of an operation crashes, no client is released. -/
theorem scope_abandons_client :
    let done := scope (m := StateM (World MemoryStore))
      (fun dialogue => dialogue.run MemoryStore.service) 1
      (flushing (.scripted "A" [] (some [.crash "undoing"])) (.value ()))
      { store := {} }
    (MemoryStore.service.connect {}).1 = .value 0 ∧
    done.1 = .crash "undoing" ∧
    done.2.store.seen = [.connect, .mounts, .enable "m"] := by
  decide

end Session

end KeyCustody
