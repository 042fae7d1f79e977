import KeyCustody.Proofs.Http.Confinement
import KeyCustody.Proofs.Http.Crowd
import KeyCustody.Proofs.Session.Stranding

/-!
# A client stays released

Once a client is released, be it by a call of its own or at the end of one of
the sessions over it, whoever makes a call through it is refused at once.
Requests are still sent through it by those alone that got hold of its
connection before, one request each.

A session over the client cannot flush anything from then on, and a rollback
strands its writes.  Releasing the client once more makes no difference to
anybody.
-/

namespace KeyCustody

variable {α β : Type}

namespace Dialogue

/-- Whatever the replies are, a dialogue releases a client before it ends,
unless it ends with a result of a kind. -/
def Releases (client : Handle) (spared : α → Prop) : Dialogue α → Prop
  | .result value => spared value
  | .connect next => ∀ reply, (next reply).Releases client spared
  | .ask asker call next =>
      (asker = client ∧ call = .close) ∨
        ∀ reply, (next reply).Releases client spared
  | .note _ next => next.Releases client spared

/-- What comes first need not release the client. -/
theorem Assures.bind_releases {allowed : Event → Prop} {kind : α → Prop}
    {dialogue : Dialogue α} (assures : dialogue.Assures allowed kind)
    {client : Handle} {spared : β → Prop} {after : α → Dialogue β}
    (releases : ∀ value, kind value → (after value).Releases client spared) :
    (dialogue.bind after).Releases client spared := by
  induction dialogue with
  | result value => exact releases value assures
  | connect next ih => exact fun reply => ih reply (assures.2 reply)
  | ask asker call next ih =>
      exact Or.inr fun reply => ih reply (assures.2 reply)
  | note entry next ih => exact ih assures.2

end Dialogue

namespace Session

variable (session : Session)

theorem leave_releases_client (outcome : Outcome α) :
    (leave outcome session).Releases session.client
      fun ended => ∃ message, ended = .crash message := by
  rw [leave_eq]
  refine (session.keepsClient_compensate outcome).bind_releases ?_
  rintro ⟨undoing, left⟩ same
  cases undoing with
  | crash message => exact ⟨message, rfl⟩
  | _ => exact Or.inl ⟨same, rfl⟩

theorem disconnect_releases_client :
    session.disconnect.Releases session.client
      fun ended => ∃ message, ended = .crash message :=
  session.leave_releases_client (Outcome.value ())

end Session

namespace Http

variable {settings : Settings} {client : Handle}

/-- A worker that is still going to release a client, or is spared from it. -/
def Worker.Releases (client : Handle) (spared : α → Prop) (worker : Worker α) :
    Prop :=
  match worker.progress with
  | .ready rest => rest.Releases client spared
  | .sending _ _ next => ∀ reply, (next reply).Releases client spared

/-- A turn of a worker leaves it to release the client, unless it has just done
so. -/
theorem Worker.Releases.move {spared : α → Prop} {worker : Worker α}
    (releases : worker.Releases client spared) (settings : Settings)
    (site : Site) :
    let done := worker.move settings site
    done.1.Releases client spared ∨ .released client ∈ done.2.log := by
  obtain ⟨progress, notes⟩ := worker
  match progress with
  | .ready (.result _) => exact Or.inl releases
  | .ready (.connect next) => exact Or.inl (releases _)
  | .ready (.note entry next) => exact Or.inl releases
  | .sending asker call next => exact Or.inl (releases _)
  | .ready (.ask asker call next) =>
      rcases releases with ⟨rfl, rfl⟩ | later
      · right
        simp [Worker.move, Site.settle]
      · left
        cases settled : site.settle asker call with
        | some settlement =>
            simp only [Worker.move, settled]
            exact later _
        | none =>
            simp only [Worker.move, settled]
            exact later

namespace Crowd

/-- A worker has released a client, or is still going to. -/
def Releases (client : Handle) (spared : α → Prop) (position : Nat)
    (crowd : Crowd α) : Prop :=
  .released client ∈ crowd.site.log ∨
    ∃ worker, crowd.workers[position]? = some worker ∧
      worker.Releases client spared

variable {spared : α → Prop} {position : Nat} {crowd : Crowd α}

theorem Releases.turn (releases : crowd.Releases client spared position)
    (settings : Settings) (other : Nat) :
    (crowd.turn settings other).Releases client spared position := by
  rcases releases with logged | ⟨worker, present, releases⟩
  · obtain ⟨effects, advances, _⟩ := turn_advances settings crowd other
    left
    rw [advances.log]
    exact List.mem_append_left _ logged
  · by_cases same : other = position
    · subst same
      rcases releases.move settings crowd.site with later | logged
      · exact Or.inr ⟨_, workers_turn_self present, later⟩
      · left
        rw [turn_of_present present]
        exact logged
    · exact Or.inr
        ⟨worker, (workers_turn_of_ne same).trans present, releases⟩

theorem Releases.play (releases : crowd.Releases client spared position)
    (settings : Settings) (schedule : List Nat) :
    (crowd.play settings schedule).Releases client spared position := by
  induction schedule generalizing crowd with
  | nil => exact releases
  | cons other later ih => exact ih (releases.turn settings other)

/-- A worker whose dialogue releases a client has released it by the time it is
through with the dialogue, whatever the others do meanwhile. -/
theorem released_of_through {link : Link} {dialogues : List (Dialogue α)}
    {dialogue : Dialogue α} {schedule : List Nat} {value : α}
    {notes : List Note} (given : dialogues[position]? = some dialogue)
    (releases : dialogue.Releases client spared)
    (through : ((start link dialogues).play settings schedule).Awaits position
      (.result value) notes)
    (unspared : ¬ spared value) :
    .released client ∈
      ((start link dialogues).play settings schedule).site.log := by
  have begins : (start link dialogues).Releases client spared position := by
    refine Or.inr ⟨{ progress := .ready dialogue }, ?_, releases⟩
    rw [start, List.getElem?_map, given]
    rfl
  rcases begins.play settings schedule with logged | ⟨worker, present, later⟩
  · exact logged
  · cases present.symm.trans through
    exact absurd later unspared

section Released

variable (released : client ∈ crowd.site.link.released)
include released

theorem released_play (settings : Settings) (schedule : List Nat) :
    client ∈ (crowd.play settings schedule).site.link.released := by
  obtain ⟨effects, advances, _⟩ := play_advances settings crowd schedule
  exact advances.kept released

theorem turn_refused {call : Call} {next : Outcome call.Reply → Dialogue α}
    {notes : List Note} (asks : call ≠ .close)
    (awaits : crowd.Awaits position (.ask client call next) notes) :
    crowd.turn settings position =
      { crowd with
        workers := crowd.workers.set position
          { progress := .ready (next (.fault .sessionClosed)), notes } } := by
  rw [turn_of_present awaits]
  simp only [Worker.move, Site.settle_of_released released asks]

theorem awaits_turn {call : Call} {next : Outcome call.Reply → Dialogue α}
    {notes : List Note}
    (awaits : crowd.Awaits position (.ask client call next) notes) :
    (crowd.turn settings position).Awaits position (next call.refusal)
      notes := by
  by_cases asks : call = .close
  · subst asks
    exact workers_turn_self awaits
  · rw [turn_refused released asks awaits, Call.refusal_of_ne asks]
    exact List.getElem?_set_self (List.getElem?_eq_some_iff.1 awaits).1

theorem turn_flush {session : Session}
    {after : Outcome Unit × Session → Dialogue α} {notes : List Note}
    (held : session.client = client) (queued : session.operations ≠ [])
    (awaits : crowd.Awaits position (session.flush.bind after) notes) :
    crowd.turn settings position =
      { crowd with
        workers := crowd.workers.set position
          { progress := .ready (after (.fault .sessionClosed, session))
            notes } } := by
  subst held
  have needed : session.mounts ≠ [] := by
    obtain ⟨operation, later, queue⟩ := List.exists_cons_of_ne_nil queued
    rw [Session.mounts, queue, List.map_cons, List.eraseDups_cons]
    exact List.cons_ne_nil _ _
  obtain ⟨mount, others, mounts⟩ := List.exists_cons_of_ne_nil needed
  unfold Session.flush at awaits
  rw [mounts] at awaits
  exact turn_refused released (by simp) awaits

/-- Before its next turn a worker stays where it is, and the client stays
released. -/
theorem exists_own_turn (settings : Settings) {rest : Dialogue α}
    {notes : List Note} {schedule : List Nat} {turns : Nat}
    (awaits : crowd.Awaits position rest notes)
    (count : schedule.count position = turns + 1) :
    ∃ (before : Crowd α) (late : List Nat),
      client ∈ before.site.link.released ∧
      before.Awaits position rest notes ∧ late.count position = turns ∧
      crowd.play settings schedule =
        (before.turn settings position).play settings late := by
  have member : position ∈ schedule := by
    rw [← List.count_pos_iff]
    omega
  obtain ⟨early, late, rfl, others⟩ := List.eq_append_cons_of_mem member
  refine ⟨crowd.play settings early, late,
    released_play released settings early,
    (workers_play_of_notMem others).trans awaits, ?_, play_append ..⟩
  rw [List.count_append, List.count_eq_zero.2 others,
    List.count_cons_self] at count
  omega

end Released

/-- What comes of a dialogue over a released client does not depend on the turns
of the others, but only on the number of its own. -/
theorem play_steadfast (settings : Settings) {dialogue : Dialogue β}
    (through : dialogue.GoesThrough client) (after : β → Dialogue α) :
    ∃ turns, ∀ {crowd : Crowd α} {notes : List Note} {schedule : List Nat},
      client ∈ crowd.site.link.released →
      crowd.Awaits position (dialogue.bind after) notes →
      schedule.count position = turns →
      let done := dialogue.run refusing { store := (), notes }
      (crowd.play settings schedule).Awaits position (after done.1)
        done.2.notes := by
  -- All replies are refusals, so the number of turns is known before the
  -- schedule is.
  induction dialogue with
  | result value =>
      refine ⟨0, fun _ awaits count => ?_⟩
      exact (workers_play_of_notMem (List.count_eq_zero.1 count)).trans awaits
  | connect next ih => exact through.1.elim
  | note entry next ih =>
      obtain ⟨turns, rest⟩ := ih through.2
      refine ⟨turns + 1, fun released awaits count => ?_⟩
      obtain ⟨before, late, stays, awaits, own, played⟩ :=
        exists_own_turn released settings awaits count
      rw [played]
      exact rest (released_play stays settings [position])
        (workers_turn_self awaits) own
  | ask asker call next ih =>
      cases through.1
      obtain ⟨turns, rest⟩ := ih call.refusal (through.2 _)
      refine ⟨turns + 1, fun released awaits count => ?_⟩
      obtain ⟨before, late, stays, awaits, own, played⟩ :=
        exists_own_turn released settings awaits count
      rw [played]
      exact rest (released_play stays settings [position])
        (awaits_turn stays awaits) own

/-- A rollback over a released client strands the writes of its session, however
many turns others have meanwhile. -/
theorem play_rollback (settings : Settings) (session : Session)
    (after : Outcome Unit × Session → Dialogue α) (notes : List Note) :
    ∃ turns outcome left taken reached,
      Stranded 0 session.operations outcome left taken reached ∧
      ∀ {crowd : Crowd α} {schedule : List Nat},
        session.client ∈ crowd.site.link.released →
        crowd.Awaits position (session.rollback.bind after) notes →
        schedule.count position = turns →
        (crowd.play settings schedule).Awaits position
          (after (outcome, { session with operations := left }))
          (notes ++ taken) := by
  obtain ⟨turns, plays⟩ := @play_steadfast _ _ session.client position
    settings _ session.goesThrough_rollback after
  obtain ⟨taken, reached, noted, same, stranded⟩ :=
    session.rollback_strands { store := (), notes }
  refine ⟨turns, _, _, taken, reached, stranded, ?_⟩
  intro crowd schedule released awaits count
  have played := plays released awaits count
  dsimp only at played
  rw [noted] at played
  rw [← same]
  exact played

end Crowd

/-- Links that nobody can tell apart. -/
structure Link.Alike (one other : Link) : Prop where
  connected : one.connected = other.connected
  peer : one.peer = other.peer
  released : ∀ client, client ∈ one.released ↔ client ∈ other.released

theorem Link.alike_release {link : Link} (released : client ∈ link.released) :
    (link.release client).Alike link where
  connected := rfl
  peer := rfl
  released other := by
    constructor
    · intro member
      rcases List.mem_cons.1 member with rfl | member
      · exact released
      · exact member
    · exact List.mem_cons_of_mem client

theorem Link.Alike.request {one other : Link} (alike : one.Alike other)
    (settings : Settings) (call : Call) :
    (one.request settings call).1 = (other.request settings call).1 ∧
      (one.request settings call).2.Alike (other.request settings call).2 := by
  unfold Link.request
  cases requestFor? settings call with
  | none => exact ⟨rfl, alike⟩
  | some request =>
      rw [alike.peer]
      exact ⟨rfl, alike.connected, rfl, alike.released⟩

theorem Worker.move_alike {one other : Site} (alike : one.link.Alike other.link)
    (settings : Settings) (worker : Worker α) :
    (worker.move settings one).1 = (worker.move settings other).1 ∧
      (worker.move settings one).2.link.Alike
        (worker.move settings other).2.link := by
  obtain ⟨progress, notes⟩ := worker
  match progress with
  | .ready (.result _) => exact ⟨rfl, alike⟩
  | .ready (.note entry next) => exact ⟨rfl, alike⟩
  | .ready (.connect next) =>
      have same := alike.connected
      simp only [Worker.move, Link.connect, same]
      exact ⟨trivial, rfl, alike.peer, alike.released⟩
  | .sending asker call next =>
      obtain ⟨reply, left⟩ := alike.request settings call
      simp only [Worker.move, Site.send, reply]
      exact ⟨trivial, left⟩
  | .ready (.ask asker call next) =>
      by_cases asks : call = .close
      · subst asks
        refine ⟨rfl, alike.connected, alike.peer, fun client => ?_⟩
        exact List.mem_cons.trans
          ((or_congr_right (alike.released client)).trans List.mem_cons.symm)
      · by_cases refused : asker ∈ one.link.released
        · have refusedToo := (alike.released asker).1 refused
          simp only [Worker.move, Site.settle_of_released refused asks,
            Site.settle_of_released refusedToo asks]
          exact ⟨trivial, alike⟩
        · have admitted : asker ∉ other.link.released :=
            fun member => refused ((alike.released asker).2 member)
          simp only [Worker.move, Site.settle_of_unreleased refused asks,
            Site.settle_of_unreleased admitted asks]
          exact ⟨trivial, alike⟩

namespace Crowd

/-- Crowds with the same workers at links that are alike. -/
structure Alike (one other : Crowd α) : Prop where
  workers : one.workers = other.workers
  link : one.site.link.Alike other.site.link

theorem Alike.turn {one other : Crowd α} (alike : one.Alike other)
    (settings : Settings) (position : Nat) :
    (one.turn settings position).Alike (other.turn settings position) := by
  cases present : one.workers[position]? with
  | none =>
      have presentToo := alike.workers ▸ present
      rw [turn_of_absent present, turn_of_absent presentToo]
      exact alike
  | some worker =>
      have presentToo := alike.workers ▸ present
      rw [turn_of_present present, turn_of_present presentToo]
      obtain ⟨same, link⟩ := Worker.move_alike alike.link settings worker
      refine ⟨?_, link⟩
      rw [same, alike.workers]

theorem Alike.play {one other : Crowd α} (alike : one.Alike other)
    (settings : Settings) (schedule : List Nat) :
    (one.play settings schedule).Alike (other.play settings schedule) := by
  induction schedule generalizing one other with
  | nil => exact alike
  | cons position later ih => exact ih (alike.turn settings position)

/-- What is true from the release of a client on. -/
structure Shut (settings : Settings) (client : Handle) (crowd : Crowd α) :
    Prop where
  released : client ∈ crowd.site.link.released
  /-- Through the client only those workers send a call that hold its connection
  already, each of them one. -/
  sends : ∀ schedule, ∃ effects,
    let after := crowd.play settings schedule
    Site.Advances settings crowd.site after.site effects ∧
      effects.countP (Effect.isThrough client) + after.holders client =
        crowd.holders client
  /-- Any call through the client is refused, and nothing else happens. -/
  refuses : ∀ {position : Nat} {call : Call}
    {next : Outcome call.Reply → Dialogue α} {notes : List Note},
    call ≠ .close →
    crowd.Awaits position (.ask client call next) notes →
    crowd.turn settings position =
      { crowd with
        workers := crowd.workers.set position
          { progress := .ready (next (.fault .sessionClosed)), notes } }
  /-- A session over the client that has something to flush fails at once. -/
  flush : ∀ {position : Nat} {session : Session}
    {after : Outcome Unit × Session → Dialogue α} {notes : List Note},
    session.client = client → session.operations ≠ [] →
    crowd.Awaits position (session.flush.bind after) notes →
    crowd.turn settings position =
      { crowd with
        workers := crowd.workers.set position
          { progress := .ready (after (.fault .sessionClosed, session))
            notes } }
  /-- A rollback of a session over the client strands its writes. -/
  rollback : ∀ {position : Nat} {session : Session}
    {after : Outcome Unit × Session → Dialogue α} {notes : List Note},
    session.client = client →
    crowd.Awaits position (session.rollback.bind after) notes →
    ∃ turns outcome left taken reached,
      Stranded 0 session.operations outcome left taken reached ∧
      ∀ schedule : List Nat, schedule.count position = turns →
        (crowd.play settings schedule).Awaits position
          (after (outcome, { session with operations := left }))
          (notes ++ taken)
  /-- To release the client again succeeds and makes no difference. -/
  again : ∀ {position : Nat} {next : Outcome Unit → Dialogue α}
    {notes : List Note},
    crowd.Awaits position (.ask client .close next) notes →
    ∀ schedule,
      ((crowd.turn settings position).play settings schedule).Alike
        (play settings
          { crowd with
            workers := crowd.workers.set position
              { progress := .ready (next (.value ())), notes } }
          schedule)

theorem shut_of_released (settings : Settings) {client : Handle}
    {crowd : Crowd α} (released : client ∈ crowd.site.link.released) :
    crowd.Shut settings client where
  released := released
  sends schedule := by
    obtain ⟨effects, advances, counts⟩ :=
      play_advances settings crowd schedule
    exact ⟨effects, advances, counts client released⟩
  refuses := turn_refused released
  flush := turn_flush released
  rollback {position session after notes} held awaits := by
    subst held
    obtain ⟨turns, outcome, left, taken, reached, stranded, plays⟩ :=
      @play_rollback _ position settings session after notes
    exact ⟨turns, outcome, left, taken, reached, stranded,
      fun _ => plays released awaits⟩
  again {position next notes} awaits schedule := by
    have alike : (crowd.turn settings position).Alike
        { crowd with
          workers := crowd.workers.set position
            { progress := .ready (next (.value ())), notes } } := by
      rw [turn_of_present awaits]
      exact ⟨rfl, Link.alike_release released⟩
    exact alike.play settings schedule

/-- Once a client of a link was released, in the course of whatever dialogues
any number of workers have taking turns, it is released for good.  A session
that disconnects and a scope that is left release their client as a call of its
own does, by `released_of_through`. -/
theorem released_stays_shut (settings : Settings) (link : Link)
    (dialogues : List (Dialogue α)) {early : List Nat} {client : Handle}
    (logged : .released client ∈
      ((start link dialogues).play settings early).site.log)
    (late : List Nat) :
    ((start link dialogues).play settings (early ++ late)).Shut settings
      client := by
  have released := released_of_mem_log logged
  rw [play_append]
  exact shut_of_released settings (released_play released settings late)

/-- Two sessions and a reader that share a client.  One session disconnects, and
the other one rolls a write back. -/
def sharing : List (Dialogue (Outcome Unit)) :=
  [({ id := 1, client := 0 } : Session).disconnect,
    ({ id := 2
       client := 0
       operations :=
        [{ mount := "m", action := .write "p" "a" "1", executed := true }]
     } : Session).rollback.bind fun done => .result done.1,
    (Dialogue.call 0 (.read "m" "p")).bind fun reply =>
      .result (reply.map fun _ => ())]

/-- The first session is through with its disconnecting while the reader holds
the connection. -/
theorem released_stays_shut_disconnected :
    let crowd := start { connected := 1 } sharing
    .released 0 ∈ (crowd.play usual [2, 0]).site.log ∧
      (crowd.play usual ([2, 0] ++ [1])).Shut usual 0 := by
  have through : ((start { connected := 1 } sharing).play usual
      [2, 0]).Awaits 0 (.result (.value ())) [] :=
    rfl
  have logged : .released 0 ∈
      ((start { connected := 1 } sharing).play usual [2, 0]).site.log :=
    released_of_through rfl
      (Session.disconnect_releases_client { id := 1, client := 0 }) through
      (by simp)
  exact ⟨logged, released_stays_shut usual _ sharing logged [1]⟩

/-- A session that writes, that closes its client and that rolls back, where the
last operation of its queue crashes. -/
def closingEarly : Dialogue (Outcome Unit × Session) := do
  let session := ({ id := 1, client := 0 } : Session).addWrite "p" "a" "1" "m"
  let session := session.add "m"
    (.scripted "A" [] (some [.crash "undoing"]))
  let (_, session) ← session.flush
  let _ ← Dialogue.call session.client .close
  session.rollback

/-- A peer that lists no engines and accepts what comes next. -/
def accepting : Peer where
  answers :=
    [.respond { status := 200, body := some [123, 125] },
      .respond { status := 204, body := none },
      .respond { status := 204, body := none }]

set_option maxRecDepth 10000 in
/-- A reader that holds the connection sends its request after the release.  A
rollback that crashes leaves an executed write without a warning. -/
theorem release_overtaken_unwarned :
    let crowd := start { connected := 1 } sharing
    let closed := crowd.play usual [2, 0]
    let after := closed.play usual [2]
    let done := closingEarly.run (Link.service usual)
      { store := { connected := 1, peer := accepting } }
    (closed.site.log = [.released 0] ∧
      closed.site.link.peer.received = [] ∧
      after.site.log = [.released 0, .sent 0 (.read "m" "p")] ∧
      after.site.link.peer.received.length = 1) ∧
    done.2.store.released = [0] ∧
    done.1.1 = .crash "undoing" ∧
    done.1.2.operations[0]? =
      some { mount := "m", action := .write "p" "a" "1", executed := true } ∧
    warningsOf 0 done.2.notes = [] := by
  decide +kernel

end Crowd

end Http

end KeyCustody
