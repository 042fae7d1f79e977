import KeyCustody.Proofs.Http.Sending

/-!
# Workers that share the clients of a link

Any number of workers take turns at one link, each with a dialogue of its own.
A call that needs a request takes two turns: at the first the worker gets hold
of the connection of the client, unless the client was released, and at the
second it sends the request.  In between others have their turns, and one of
them may release the client.

A schedule tells whose turn it is.  A worker that has all the turns does what
its dialogue does when it runs with the service of the link.
-/

namespace KeyCustody

variable {α β : Type}

namespace Http

/-- What turns have done to a link.  A call is sent when its connection is used,
whether or not there is a request for it. -/
inductive Effect
  | released (client : Handle)
  | sent (client : Handle) (call : Call)
deriving DecidableEq

/-- The call that is sent. -/
def Effect.call? : Effect → Option Call
  | .sent _ call => some call
  | .released _ => none

/-- Whether a call is sent through a client. -/
def Effect.isThrough (client : Handle) : Effect → Bool
  | .sent asker _ => asker == client
  | .released _ => false

/-- The requests that a list of effects has sent. -/
def requestsOf (settings : Settings) (effects : List Effect) : List Request :=
  effects.filterMap fun effect => effect.call?.bind (requestFor? settings)

/-- A link and what was done to it, oldest first. -/
structure Site where
  link : Link
  log : List Effect := []

namespace Site

/-- What a call comes to without a request.  There is nothing if the connection
of the client is at hand, for the call has to be sent then. -/
def settle (site : Site) (client : Handle) (call : Call) :
    Option (Outcome call.Reply × Site) :=
  match call with
  | .close =>
      some (.value (),
        { link := site.link.release client
          log := site.log ++ [.released client] })
  | _ =>
      if site.link.released.contains client then
        some (.fault .sessionClosed, site)
      else none

/-- Sends a call. -/
def send (settings : Settings) (site : Site) (client : Handle) (call : Call) :
    Outcome call.Reply × Site :=
  let (reply, link) := site.link.request settings call
  (reply, { link, log := site.log ++ [.sent client call] })

theorem settle_of_released {site : Site} {client : Handle} {call : Call}
    (released : client ∈ site.link.released) (asks : call ≠ .close) :
    site.settle client call = some (.fault .sessionClosed, site) := by
  cases call with
  | close => exact absurd rfl asks
  | read _ _ | patch _ _ _ | put _ _ _ | mounts | enable _ _ =>
      simp [settle, released]

theorem settle_of_unreleased {site : Site} {client : Handle} {call : Call}
    (unreleased : client ∉ site.link.released) (asks : call ≠ .close) :
    site.settle client call = none := by
  cases call with
  | close => exact absurd rfl asks
  | read _ _ | patch _ _ _ | put _ _ _ | mounts | enable _ _ =>
      simp [settle, unreleased]

theorem settle_cases {site : Site} {client : Handle} {call : Call}
    {done : Outcome call.Reply × Site}
    (settled : site.settle client call = some done) :
    (call = .close ∧
      done.2 = { link := site.link.release client
                 log := site.log ++ [.released client] }) ∨
    (call ≠ .close ∧ client ∈ site.link.released ∧
      done = (.fault .sessionClosed, site)) := by
  by_cases closes : call = .close
  · subst closes
    cases settled
    exact Or.inl ⟨rfl, rfl⟩
  · by_cases released : client ∈ site.link.released
    · rw [settle_of_released released closes] at settled
      cases settled
      exact Or.inr ⟨closes, released, rfl⟩
    · rw [settle_of_unreleased released closes] at settled
      cases settled

theorem answer_eq (settings : Settings) (site : Site) (client : Handle)
    (call : Call) :
    let done := (site.settle client call).getD
      (site.send settings client call)
    Link.answer settings client call site.link = (done.1, done.2.link) := by
  by_cases closes : call = .close
  · subst closes
    rfl
  · by_cases released : client ∈ site.link.released
    · rw [settle_of_released released closes]
      cases call with
      | close => exact absurd rfl closes
      | read _ _ | patch _ _ _ | put _ _ _ | mounts | enable _ _ =>
          simp [Link.answer, released]
    · rw [settle_of_unreleased released closes,
        answer_eq_request closes released]
      rfl

end Site

/-- Where a worker stands: before the rest of its dialogue, or in a call for
which it holds the connection of the client. -/
inductive Progress (α : Type)
  | ready (rest : Dialogue α)
  | sending (client : Handle) (call : Call)
      (next : Outcome call.Reply → Dialogue α)

structure Worker (α : Type) where
  progress : Progress α
  notes : List Note := []

namespace Worker

/-- Whether a worker holds the connection of a client. -/
def holds (client : Handle) (worker : Worker α) : Bool :=
  match worker.progress with
  | .ready _ => false
  | .sending held _ _ => held == client

/-- One turn of a worker. -/
def move (settings : Settings) (worker : Worker α) (site : Site) :
    Worker α × Site :=
  match worker.progress with
  | .ready (.result _) => (worker, site)
  | .ready (.connect next) =>
      let (client, link) := site.link.connect
      ({ worker with progress := .ready (next (.value client)) },
        { site with link })
  | .ready (.note entry next) =>
      ({ progress := .ready next, notes := worker.notes ++ [entry] }, site)
  | .ready (.ask client call next) =>
      match site.settle client call with
      | some (reply, site) =>
          ({ worker with progress := .ready (next reply) }, site)
      | none => ({ worker with progress := .sending client call next }, site)
  | .sending client call next =>
      let (reply, site) := site.send settings client call
      ({ worker with progress := .ready (next reply) }, site)

end Worker

/-- Workers at a link. -/
structure Crowd (α : Type) where
  site : Site
  workers : List (Worker α)

namespace Crowd

/-- Workers that are about to begin their dialogues. -/
def start (link : Link) (dialogues : List (Dialogue α)) : Crowd α where
  site := { link }
  workers := dialogues.map fun dialogue => { progress := .ready dialogue }

/-- The turn of the worker at a position. -/
def turn (settings : Settings) (crowd : Crowd α) (position : Nat) : Crowd α :=
  match crowd.workers[position]? with
  | none => crowd
  | some worker =>
      let (worker, site) := worker.move settings crowd.site
      { site, workers := crowd.workers.set position worker }

def play (settings : Settings) (crowd : Crowd α) (schedule : List Nat) :
    Crowd α :=
  schedule.foldl (turn settings) crowd

/-- How many workers hold the connection of a client. -/
def holders (client : Handle) (crowd : Crowd α) : Nat :=
  crowd.workers.countP (Worker.holds client)

variable {settings : Settings} {crowd : Crowd α} {position : Nat}
variable {worker : Worker α}

theorem turn_of_present (present : crowd.workers[position]? = some worker) :
    crowd.turn settings position =
      { site := (worker.move settings crowd.site).2
        workers := crowd.workers.set position
          (worker.move settings crowd.site).1 } := by
  rw [turn, present]

theorem turn_of_absent (absent : crowd.workers[position]? = none) :
    crowd.turn settings position = crowd := by
  rw [turn, absent]

@[simp]
theorem play_nil : crowd.play settings [] = crowd :=
  rfl

@[simp]
theorem play_cons (later : List Nat) :
    crowd.play settings (position :: later) =
      (crowd.turn settings position).play settings later :=
  rfl

theorem play_append (early late : List Nat) :
    crowd.play settings (early ++ late) =
      (crowd.play settings early).play settings late :=
  List.foldl_append

theorem workers_turn_of_ne {other : Nat} (differs : other ≠ position) :
    (crowd.turn settings other).workers[position]? =
      crowd.workers[position]? := by
  cases present : crowd.workers[other]? with
  | none => rw [turn_of_absent present]
  | some worker =>
      rw [turn_of_present present]
      exact List.getElem?_set_ne differs

theorem workers_play_of_notMem {schedule : List Nat}
    (others : position ∉ schedule) :
    (crowd.play settings schedule).workers[position]? =
      crowd.workers[position]? := by
  induction schedule generalizing crowd with
  | nil => rfl
  | cons other later ih =>
      rw [List.mem_cons, not_or] at others
      rw [play_cons, ih others.2, workers_turn_of_ne (Ne.symm others.1)]

theorem workers_turn_self (present : crowd.workers[position]? = some worker) :
    (crowd.turn settings position).workers[position]? =
      some (worker.move settings crowd.site).1 := by
  rw [turn_of_present present]
  exact List.getElem?_set_self (List.getElem?_eq_some_iff.1 present).1

/-- A worker stands before the rest of its dialogue. -/
def Awaits (crowd : Crowd α) (position : Nat) (rest : Dialogue α)
    (notes : List Note) : Prop :=
  crowd.workers[position]? = some { progress := .ready rest, notes }

/-- The worker may come from one state to another, all turns being its own. -/
def Arrives (settings : Settings) (position : Nat) (workers : List (Worker α))
    (worker : Worker α) (site : Site) (last : Worker α) (link : Link) : Prop :=
  ∃ turns log,
    play settings { site, workers := workers.set position worker }
        (List.replicate turns position) =
      { site := { link, log }, workers := workers.set position last }

theorem Arrives.step {workers : List (Worker α)} {next last : Worker α}
    {site reached : Site} {link : Link} (bound : position < workers.length)
    (moves : worker.move settings site = (next, reached))
    (arrives : Arrives settings position workers next reached last link) :
    Arrives settings position workers worker site last link := by
  obtain ⟨turns, log, played⟩ := arrives
  refine ⟨turns + 1, log, ?_⟩
  rw [List.replicate_succ, play_cons,
    turn_of_present (List.getElem?_set_self bound)]
  dsimp only
  rw [moves, List.set_set]
  exact played

theorem arrives_alone {workers : List (Worker α)} (dialogue : Dialogue β)
    (after : β → Dialogue α) (bound : position < workers.length)
    (site : Site) (notes : List Note) :
    let done := dialogue.run (Link.service settings)
      { store := site.link, notes }
    Arrives settings position workers
      { progress := .ready (dialogue.bind after), notes } site
      { progress := .ready (after done.1), notes := done.2.notes }
      done.2.store := by
  induction dialogue generalizing site notes with
  | result value => exact ⟨0, site.log, rfl⟩
  | connect next ih => exact .step bound rfl (ih _ _ _)
  | note entry next ih => exact .step bound rfl (ih _ _)
  | ask client call next ih =>
      have answered := site.answer_eq settings client call
      intro done
      have same : done = (next (Link.answer settings client call
          site.link).1).run (Link.service settings)
          { store := (Link.answer settings client call site.link).2
            notes } :=
        rfl
      rw [same, answered]
      cases settled : site.settle client call with
      | some settlement =>
          refine .step bound ?_ (ih settlement.1 settlement.2 notes)
          simp only [Worker.move, Dialogue.bind, settled]
      | none =>
          let sending : Worker α :=
            { progress := .sending client call fun reply =>
                (next reply).bind after
              notes }
          have takes : Worker.move settings
              { progress := .ready ((Dialogue.ask client call next).bind after)
                notes } site = (sending, site) := by
            simp only [Worker.move, Dialogue.bind, settled, sending]
          exact .step bound takes (.step bound rfl (ih _ _ notes))

/-- A worker that has all the turns does what its dialogue does when it
runs. -/
theorem play_alone {dialogue : Dialogue β} {after : β → Dialogue α}
    {notes : List Note}
    (awaits : crowd.Awaits position (dialogue.bind after) notes) :
    let done := dialogue.run (Link.service settings)
      { store := crowd.site.link, notes }
    ∃ turns log,
      crowd.play settings (List.replicate turns position) =
        { site := { link := done.2.store, log }
          workers := crowd.workers.set position
            { progress := .ready (after done.1), notes := done.2.notes } } := by
  obtain ⟨bound, same⟩ := List.getElem?_eq_some_iff.1 awaits
  have arrives := @arrives_alone _ _ settings position _ dialogue after bound
    crowd.site notes
  rw [← same] at arrives
  unfold Arrives at arrives
  rw [List.set_getElem_self] at arrives
  exact arrives

end Crowd

/-- What some turns do to a link: the effects they add to its log. -/
structure Site.Advances (settings : Settings) (before after : Site)
    (effects : List Effect) : Prop where
  log : after.log = before.log ++ effects
  kept : before.link.released ⊆ after.link.released
  released : ∀ client, .released client ∈ effects →
    client ∈ after.link.released
  listening : after.link.peer.listening = before.link.peer.listening
  received : after.link.peer.received = before.link.peer.received ++
    if before.link.peer.listening then requestsOf settings effects else []

namespace Site

variable {settings : Settings} {site : Site}

theorem Advances.refl (settings : Settings) (site : Site) :
    Advances settings site site [] where
  log := (List.append_nil _).symm
  kept := List.Subset.refl _
  released _ member := absurd member List.not_mem_nil
  listening := rfl
  received := by simp [requestsOf]

theorem Advances.trans {first second third : Site} {early late : List Effect}
    (one : Advances settings first second early)
    (other : Advances settings second third late) :
    Advances settings first third (early ++ late) where
  log := by rw [other.log, one.log, List.append_assoc]
  kept := List.Subset.trans one.kept other.kept
  released client member := by
    rcases List.mem_append.1 member with before | after
    · exact other.kept (one.released client before)
    · exact other.released client after
  listening := other.listening.trans one.listening
  received := by
    rw [other.received, one.received, one.listening, List.append_assoc]
    congr 1
    split
    · exact (List.filterMap_append ..).symm
    · rfl

theorem advances_release (client : Handle) :
    Advances settings site
      { link := site.link.release client
        log := site.log ++ [.released client] } [.released client] where
  log := rfl
  kept := List.subset_cons_self _ _
  released other member := by
    cases List.mem_singleton.1 member
    exact List.mem_cons_self
  listening := rfl
  received := by simp [Link.release, requestsOf, Effect.call?]

theorem advances_send (client : Handle) (call : Call) :
    Advances settings site (site.send settings client call).2
      [.sent client call] := by
  have whole : requestsOf settings [.sent client call] =
      (requestFor? settings call).toList := by
    unfold requestsOf
    cases requested : requestFor? settings call <;>
      simp [Effect.call?, requested]
  unfold send
  cases requested : requestFor? settings call with
  | none =>
      rw [Link.request, requested]
      refine ⟨rfl, List.Subset.refl _, by simp, rfl, ?_⟩
      rw [whole, requested]
      simp
  | some request =>
      rw [Link.request, requested]
      dsimp only
      by_cases listening : site.link.peer.listening = true
      · rw [Peer.exchange_of_listening listening]
        refine ⟨rfl, List.Subset.refl _, by simp, rfl, ?_⟩
        rw [whole, requested, if_pos listening]
        rfl
      · have unchanged : site.link.peer.exchange request =
            (none, site.link.peer) := by
          rw [Peer.exchange, if_neg listening]
        rw [unchanged]
        refine ⟨rfl, List.Subset.refl _, by simp, rfl, ?_⟩
        rw [if_neg listening]
        exact (List.append_nil _).symm

theorem settle_advances (settings : Settings) {client : Handle} {call : Call}
    {done : Outcome call.Reply × Site}
    (settled : site.settle client call = some done) :
    ∃ effects, Advances settings site done.2 effects ∧
      ∀ other, effects.countP (Effect.isThrough other) = 0 := by
  rcases settle_cases settled with ⟨_, closed⟩ | ⟨_, _, refused⟩
  · refine ⟨[.released client], ?_, fun other => rfl⟩
    rw [closed]
    exact advances_release client
  · refine ⟨[], ?_, fun other => rfl⟩
    rw [refused]
    exact .refl settings site

/-- What cannot be settled is not a call through a released client. -/
theorem unreleased_of_settle_eq_none {client : Handle} {call : Call}
    (unsettled : site.settle client call = none) :
    client ∉ site.link.released := by
  intro released
  by_cases closes : call = .close
  · subst closes
    cases unsettled
  · rw [settle_of_released released closes] at unsettled
    cases unsettled

end Site

/-- What a turn does to a link.  Through a client that is released, calls are
sent only by workers that hold its connection, and none gets hold of it. -/
theorem Worker.move_advances (settings : Settings) (worker : Worker α)
    (site : Site) :
    let done := worker.move settings site
    ∃ effects, Site.Advances settings site done.2 effects ∧
      ∀ client ∈ site.link.released,
        effects.countP (Effect.isThrough client) +
            (if done.1.holds client then 1 else 0) =
          if worker.holds client then 1 else 0 := by
  obtain ⟨progress, notes⟩ := worker
  match progress with
  | .ready (.result _) =>
      exact ⟨[], .refl settings site, by simp [holds, move]⟩
  | .ready (.connect next) =>
      exact ⟨[], ⟨(List.append_nil _).symm, List.Subset.refl _, by simp, rfl,
        by simp [requestsOf, Link.connect, move]⟩, by simp [holds, move]⟩
  | .ready (.note entry next) =>
      exact ⟨[], .refl settings site, by simp [holds, move]⟩
  | .sending asker call next =>
      refine ⟨[.sent asker call], site.advances_send asker call, ?_⟩
      intro client _
      cases same : asker == client <;>
        simp [holds, move, Effect.isThrough, same]
  | .ready (.ask asker call next) =>
      cases settled : site.settle asker call with
      | some settlement =>
          obtain ⟨effects, advances, unsent⟩ :=
            Site.settle_advances settings settled
          simp only [move, settled]
          exact ⟨effects, advances, fun client _ => by simp [holds, unsent]⟩
      | none =>
          simp only [move, settled]
          refine ⟨[], .refl settings site, fun client released => ?_⟩
          have differs : asker ≠ client := by
            rintro rfl
            exact Site.unreleased_of_settle_eq_none settled released
          simp [holds, differs]

namespace Crowd

variable {settings : Settings} {crowd : Crowd α}

theorem turn_advances (settings : Settings) (crowd : Crowd α)
    (position : Nat) :
    let after := crowd.turn settings position
    ∃ effects, Site.Advances settings crowd.site after.site effects ∧
      ∀ client ∈ crowd.site.link.released,
        effects.countP (Effect.isThrough client) + after.holders client =
          crowd.holders client := by
  cases present : crowd.workers[position]? with
  | none =>
      rw [turn_of_absent present]
      exact ⟨[], .refl settings crowd.site, by simp⟩
  | some worker =>
      rw [turn_of_present present]
      obtain ⟨effects, advances, counts⟩ :=
        worker.move_advances settings crowd.site
      refine ⟨effects, advances, fun client released => ?_⟩
      obtain ⟨bound, same⟩ := List.getElem?_eq_some_iff.1 present
      have counted := counts client released
      have before : (if worker.holds client then 1 else 0) ≤
          crowd.workers.countP (Worker.holds client) := by
        split
        next held =>
          exact List.countP_pos_iff.2
            ⟨worker, List.mem_of_getElem? present, held⟩
        next => exact Nat.zero_le _
      simp only [holders, List.countP_set bound, same]
      omega

/-- What a schedule does to a link.  Through a client that is released, each
worker that holds the connection sends one call, and that is all. -/
theorem play_advances (settings : Settings) (crowd : Crowd α)
    (schedule : List Nat) :
    let after := crowd.play settings schedule
    ∃ effects, Site.Advances settings crowd.site after.site effects ∧
      ∀ client ∈ crowd.site.link.released,
        effects.countP (Effect.isThrough client) + after.holders client =
          crowd.holders client := by
  induction schedule generalizing crowd with
  | nil => exact ⟨[], .refl settings crowd.site, by simp⟩
  | cons position later ih =>
      obtain ⟨early, advances, counts⟩ := turn_advances settings crowd position
      obtain ⟨late, advancesOn, countsOn⟩ := ih (crowd.turn settings position)
      refine ⟨early ++ late, advances.trans advancesOn, ?_⟩
      intro client released
      have first := counts client released
      have second := countsOn client (advances.kept released)
      rw [List.countP_append, play_cons]
      omega

theorem released_of_mem_log {link : Link} {dialogues : List (Dialogue α)}
    {schedule : List Nat} {client : Handle}
    (logged : .released client ∈
      ((start link dialogues).play settings schedule).site.log) :
    client ∈ ((start link dialogues).play settings
      schedule).site.link.released := by
  obtain ⟨effects, advances, _⟩ :=
    play_advances settings (start link dialogues) schedule
  rw [advances.log] at logged
  exact advances.released client logged

end Crowd

end Http

end KeyCustody
