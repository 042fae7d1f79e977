import KeyCustody.Http.Link
import KeyCustody.Proofs.Dialogue.Trace
import KeyCustody.Proofs.Http.Resource

/-!
# Sending calls to a server

Settings lead to a server when their url is its name behind an open scheme, with
any number of slashes at the end.  Every call is then sent to that server, to an
address beneath the version prefix that tells what the call is about.

A call through a client that was not released is one request to a peer that is
listening.
-/

namespace KeyCustody

open Text

namespace Http

/-- The url of a server with the segments of a name as its path. -/
def Url.beneath (home : Url) (name : String) : Url :=
  { home with
    path := resolveDots []
      ((segments (· == '/') name.toList).map encodeSegment) }

@[simp]
theorem Url.host_beneath (home : Url) (name : String) :
    (home.beneath name).host = home.host :=
  rfl

@[simp]
theorem Url.port_beneath (home : Url) (name : String) :
    (home.beneath name).port = home.port :=
  rfl

/-- A url that is read from the name of a server alone. -/
structure Url.IsHome (home : Url) (server : String) : Prop where
  within : ∀ c ∈ server.toList, Url.isServerChar c = true
  found : Url.ofString? ("http://" ++ server) = some home

/-- Settings whose url names a server, with slashes behind it. -/
structure LeadsTo (settings : Settings) (server : String) (home : Url) :
    Prop where
  isHome : home.IsHome server
  named : ∃ slashes, settings.url =
    "http://" ++ server ++ .ofList (List.replicate slashes '/')

namespace Url.IsHome

variable {home : Url} {server : String} (isHome : home.IsHome server)
include isHome

theorem named : server.toList ≠ [] := by
  intro empty
  have nameless : server = "" := String.toList_injective empty
  have unread : Url.ofString? ("http://" ++ "") = none := by decide
  have found := isHome.found
  rw [nameless, unread] at found
  cases found

theorem ofAuthority? (path : List (List Char)) :
    Url.ofAuthority? server.toList path = some { home with path } ∧
      home.query = none := by
  have text : "http://" ++ server =
      .ofList ("http://".toList ++ server.toList ++ []) := by
    apply String.toList_injective
    simp
  have found := isHome.found
  rw [text, Url.ofString?_open isHome.named isHome.within (by simp)
    (Or.inl rfl)] at found
  unfold Url.ofAuthority? at found ⊢
  obtain ⟨host, hostFound, found⟩ := Option.bind_eq_some_iff.1 found
  obtain ⟨port, portFound, found⟩ := Option.bind_eq_some_iff.1 found
  obtain rfl := Option.some.inj found
  refine ⟨?_, rfl⟩
  dsimp only at hostFound portFound ⊢
  rw [hostFound, portFound]
  rfl

theorem ofString?_encodeName (name : String) :
    Url.ofString? ("http://" ++ server ++ "/" ++ encodeName name) =
      some (home.beneath name) := by
  have plain : ∀ c ∈ (encodeName name).toList, Url.isPlain c = true := by
    intro c member
    rw [Url.isPlain, Bool.or_eq_true, beq_iff_eq]
    exact of_mem_encodeName member
  have text : "http://" ++ server ++ "/" ++ encodeName name =
      .ofList ("http://".toList ++ server.toList ++
        '/' :: (encodeName name).toList) := by
    apply String.toList_injective
    simp
  rw [text, Url.ofString?_open isHome.named isHome.within
    (List.forall_mem_cons.2 ⟨rfl, plain⟩) (Or.inr rfl),
    Url.pathOf_of_isPlain plain, segments_encodeName,
    (isHome.ofAuthority? _).1]
  rfl

end Url.IsHome

namespace LeadsTo

variable {settings : Settings} {server : String} {home : Url}
variable (leads : LeadsTo settings server home)
include leads

theorem baseUrl : settings.baseUrl = "http://" ++ server := by
  obtain ⟨slashes, url⟩ := leads.named
  have named := leads.isHome.named
  have last : isSlash (server.toList.getLast named) = false := by
    have shown := leads.isHome.within _ (List.getLast_mem named)
    simp only [Url.isServerChar, Url.endsAuthority, Url.isSeparator,
      Bool.and_eq_true, Bool.not_eq_true', Bool.or_eq_false_iff] at shown
    exact shown.2.1.1.1
  have whole : ("http://" ++ server).toList =
      ("http://".toList ++ server.toList.dropLast) ++
        [server.toList.getLast named] := by
    rw [String.toList_append, List.append_assoc,
      List.dropLast_concat_getLast named]
  rw [Settings.baseUrl, url, dropEndSlashes, String.toList_append,
    String.toList_ofList, dropEnd_append _ (by simp [isSlash]), whole,
    dropEnd_concat _ last, ← whole, String.ofList_toList]

theorem ofString?_urlText (resource : String) :
    Url.ofString? (urlText settings (encodeName resource)) =
      some (home.beneath (versioned resource)) := by
  have text : urlText settings (encodeName resource) =
      "http://" ++ server ++ "/" ++ encodeName (versioned resource) := by
    rw [urlText, leads.baseUrl, encodeName_versioned, String.append_assoc,
      slash_versioned, ← String.append_assoc]
  rw [text, leads.isHome.ofString?_encodeName]

theorem requestFor?_of_plan (sendable : isSendable settings.token = true)
    {call : Call} {method : Method} {text : String}
    {content : Option (String × Json)}
    (planned : plan settings call = some (method, text, content)) :
    ∃ resource, resource? call = some resource ∧
      requestFor? settings call = some {
        method
        url := home.beneath (versioned resource)
        token := settings.token
        contentType := content.map Prod.fst
        body := content.map Prod.snd } := by
  obtain ⟨resource, about, rfl⟩ := text_of_plan planned
  refine ⟨resource, about, ?_⟩
  rw [requestFor?, planned]
  simp [leads.ofString?_urlText, sendable]

theorem exists_request (sendable : isSendable settings.token = true)
    {call : Call} {resource : String}
    (about : resource? call = some resource) :
    ∃ request, requestFor? settings call = some request ∧
      request.url = home.beneath (versioned resource) := by
  have planned : ∃ method text content,
      plan settings call = some (method, text, content) := by
    cases call with
    | close => cases about
    | read _ _ | patch _ _ _ | put _ _ _ | mounts | enable _ _ =>
        exact ⟨_, _, _, rfl⟩
  obtain ⟨method, text, content, planned⟩ := planned
  obtain ⟨same, about', request⟩ := leads.requestFor?_of_plan sendable planned
  obtain rfl : resource = same := Option.some.inj (about.symm.trans about')
  exact ⟨_, request, rfl⟩

end LeadsTo

namespace Peer

/-- The response to the next request, unless the connection fails. -/
def next? (peer : Peer) : Option Response :=
  match peer.answers with
  | .respond response :: _ => some response
  | _ => none

/-- The peer after another request. -/
def after (peer : Peer) (request : Request) : Peer :=
  { peer with
    answers := peer.answers.tail
    received := peer.received ++ [request] }

@[simp]
theorem received_after (peer : Peer) (request : Request) :
    (peer.after request).received = peer.received ++ [request] :=
  rfl

/-- The peer after any number of further requests. -/
def afterAll (peer : Peer) (requests : List Request) : Peer :=
  requests.foldl after peer

@[simp]
theorem received_afterAll (peer : Peer) (requests : List Request) :
    (peer.afterAll requests).received = peer.received ++ requests := by
  induction requests generalizing peer with
  | nil => exact (List.append_nil _).symm
  | cons request later ih =>
      exact (ih (peer.after request)).trans (List.append_assoc _ _ _)

theorem afterAll_append (peer : Peer) (before later : List Request) :
    peer.afterAll (before ++ later) = (peer.afterAll before).afterAll later :=
  List.foldl_append

theorem exchange_of_listening {peer : Peer} (listening : peer.listening = true)
    (request : Request) :
    peer.exchange request = (peer.next?, peer.after request) := by
  rw [exchange, if_pos listening, next?, after]
  cases answers : peer.answers with
  | nil => simp
  | cons answer others => cases answer <;> rfl

end Peer

section Through

variable {settings : Settings} {client : Handle} {call : Call} {link : Link}
variable (sent : call ≠ .close) (unreleased : client ∉ link.released)
include sent unreleased

theorem answer_eq_request :
    Link.answer settings client call link =
      Link.request settings call link := by
  cases call with
  | close => exact absurd rfl sent
  | read _ _ | patch _ _ _ | put _ _ _ | mounts | enable _ _ =>
      simp [Link.answer, unreleased]

variable (listening : link.peer.listening = true)
include listening

theorem answer_of_request {request : Request}
    (requested : requestFor? settings call = some request) :
    Link.answer settings client call link =
      (replyOf call link.peer.next?,
        { link with peer := link.peer.after request }) := by
  rw [answer_eq_request sent unreleased, Link.request, requested]
  dsimp only
  rw [Peer.exchange_of_listening listening]

variable (settings) in
theorem link_answer :
    let left := (Link.answer settings client call link).2
    client ∉ left.released ∧ left.peer.listening = true ∧
      left.peer = link.peer.afterAll (requestFor? settings call).toList := by
  cases requested : requestFor? settings call with
  | none =>
      rw [answer_eq_request sent unreleased, Link.request, requested]
      exact ⟨unreleased, listening, rfl⟩
  | some request =>
      rw [answer_of_request sent unreleased listening requested]
      exact ⟨unreleased, listening, rfl⟩

end Through

/-- An event that is a call through a client, but not its release. -/
def AsksThrough (client : Handle) (event : Event) : Prop :=
  ∃ call, call ≠ .close ∧ event = .asked client call

section Asking

variable {α : Type} {settings : Settings} {client : Handle} {kind : α → Prop}
variable {dialogue : Dialogue α}
variable (asks : dialogue.Assures (AsksThrough client) kind)
variable {world : World Link} (unreleased : client ∉ world.store.released)
variable (listening : world.store.peer.listening = true)
include asks unreleased listening

variable (settings) in
/-- Work that only makes calls through a client that was not released sends the
peer the request for each call. -/
theorem peer_run :
    let left := (dialogue.run (Link.service settings) world).2.store
    client ∉ left.released ∧ left.peer.listening = true ∧
      left.peer = world.store.peer.afterAll
        ((dialogue.requests (Link.service settings) world).filterMap
          fun asked => requestFor? settings asked.2) := by
  induction dialogue generalizing world with
  | result value => exact ⟨unreleased, listening, rfl⟩
  | connect next ih =>
      obtain ⟨_, _, same⟩ := asks.1
      cases same
  | note entry next ih =>
      obtain ⟨_, _, same⟩ := asks.1
      cases same
  | ask asker call next ih =>
      obtain ⟨⟨_, sent, same⟩, rest⟩ := asks
      cases same
      obtain ⟨kept, listens, peer⟩ :=
        link_answer settings sent unreleased listening
      obtain ⟨keptOn, listensOn, peerOn⟩ := @ih _ (rest _)
        { world with store := (Link.answer settings client call world.store).2 }
        kept listens
      refine ⟨keptOn, listensOn, peerOn.trans ?_⟩
      rw [peer, ← Peer.afterAll_append]
      refine congrArg _ ?_
      change _ = ((client, call) :: _).filterMap _
      rw [List.filterMap_cons]
      cases requestFor? settings call <;> rfl

theorem received_run :
    let left := (dialogue.run (Link.service settings) world).2.store
    client ∉ left.released ∧ left.peer.listening = true ∧
      left.peer.received = world.store.peer.received ++
        (dialogue.requests (Link.service settings) world).filterMap
          fun asked => requestFor? settings asked.2 := by
  obtain ⟨kept, listens, peer⟩ := peer_run settings asks unreleased listening
  exact ⟨kept, listens, by rw [peer, Peer.received_afterAll]⟩

end Asking

end Http

end KeyCustody
