import KeyCustody.Proofs.Http.Confinement
import KeyCustody.Proofs.Store.Writing

/-!
# Requests about a bundle and their answers

All calls about a bundle are requests to one address.  Reading asks for the
bundle, and both ways of writing send entries under `data`.

A write succeeds with the status of its answer, whatever the body.  Otherwise
the error is that of the status, and its detail are the texts among the errors
that the body lists, or the label of the bundle when there are none.
-/

namespace KeyCustody

namespace Http

open Text

theorem of_requestFor? {settings : Settings} {call : Call} {request : Request}
    (requested : requestFor? settings call = some request) :
    ∃ text content,
      plan settings call = some (request.method, text, content) ∧
      Url.ofString? text = some request.url ∧
      isSendable settings.token = true := by
  obtain ⟨⟨method, text, content⟩, planned, rest⟩ :=
    Option.bind_eq_some_iff.1 requested
  obtain ⟨url, found, rest⟩ := Option.bind_eq_some_iff.1 rest
  split at rest
  next sendable =>
    cases rest
    exact ⟨text, content, planned, found, sendable⟩
  next => cases rest

/-- Requests about the bundle at a place can be sent, to a url. -/
structure Addressed (settings : Settings) (mount path : String) (url : Url) :
    Prop where
  found : Url.ofString? (dataUrl settings mount path) = some url
  sendable : isSendable settings.token = true

def reading (settings : Settings) (url : Url) : Request where
  method := .get
  url := url
  token := settings.token

/-- The request that sends entries, to be merged into a bundle or to replace
it. -/
def writing (settings : Settings) (method : Method) (url : Url)
    (entries : List (String × Json)) : Request where
  method := method
  url := url
  token := settings.token
  contentType := some
    (if method = .patch then "application/merge-patch+json"
    else "application/json")
  body := some (.object [("data", .object entries)])

section Addressed

variable {settings : Settings} {mount path : String} {url : Url}

theorem LeadsTo.addressed {server : String} {home : Url}
    (leads : LeadsTo settings server home)
    (sendable : isSendable settings.token = true) (mount path : String) :
    Addressed settings mount path (home.beneath (bundleName mount path)) where
  found := by
    obtain ⟨resource, about, text⟩ := text_of_plan
      (rfl : plan settings (.read mount path) = _)
    cases about
    rw [text, leads.ofString?_urlText, bundleName]
  sendable := sendable

theorem Addressed.requestFor?_of_plan
    (addressed : Addressed settings mount path url)
    {call : Call} {method : Method} {content : Option (String × Json)}
    (planned : plan settings call =
      some (method, dataUrl settings mount path, content)) :
    requestFor? settings call = some {
      method
      url
      token := settings.token
      contentType := content.map Prod.fst
      body := content.map Prod.snd } := by
  rw [requestFor?, planned]
  simp [addressed.found, addressed.sendable]

theorem Addressed.read (addressed : Addressed settings mount path url) :
    requestFor? settings (.read mount path) = some (reading settings url) := by
  have requested := addressed.requestFor?_of_plan
    (rfl : plan settings (.read mount path) = _)
  exact requested

theorem Addressed.patch (addressed : Addressed settings mount path url)
    (data : Bundle) :
    requestFor? settings (.patch mount path data) =
      some (writing settings .patch url data.toList) := by
  have requested := addressed.requestFor?_of_plan
    (rfl : plan settings (.patch mount path data) = _)
  exact requested

theorem Addressed.put (addressed : Addressed settings mount path url)
    (data : Bundle) :
    requestFor? settings (.put mount path data) =
      some (writing settings .post url data.toList) := by
  have requested := addressed.requestFor?_of_plan
    (rfl : plan settings (.put mount path data) = _)
  exact requested

theorem exists_addressed {call : Call} {request : Request}
    (concerns : Concerns call mount path)
    (requested : requestFor? settings call = some request) :
    ∃ url, Addressed settings mount path url := by
  obtain ⟨text, content, planned, found, sendable⟩ :=
    of_requestFor? requested
  refine ⟨request.url, ?_, sendable⟩
  generalize request.method = method at planned
  rcases concerns with rfl | ⟨data, rfl⟩ | ⟨data, rfl⟩
  all_goals
    cases planned
    exact found

end Addressed

namespace Peer

/-- The response to one of the next requests, unless the connection fails. -/
def answer? (peer : Peer) (index : Nat) : Option Response :=
  match peer.answers[index]? with
  | some (.respond response) => some response
  | _ => none

theorem next?_eq_answer? (peer : Peer) : peer.next? = peer.answer? 0 := by
  rw [next?, answer?]
  cases peer.answers with
  | nil => rfl
  | cons answer later => cases answer <;> rfl

@[simp]
theorem answer?_after (peer : Peer) (request : Request) (index : Nat) :
    (peer.after request).answer? index = peer.answer? (index + 1) := by
  rw [answer?, answer?, after, List.getElem?_tail]

theorem answer?_afterAll (peer : Peer) (sent : List Request) (index : Nat) :
    (peer.afterAll sent).answer? index =
      peer.answer? (sent.length + index) := by
  induction sent generalizing peer with
  | nil => rw [List.length_nil, Nat.zero_add, afterAll, List.foldl_nil]
  | cons request later ih =>
      rw [List.length_cons, Nat.add_right_comm, ← answer?_after peer request]
      exact ih (peer.after request)

end Peer

/-- A client that was not released, of a peer that is listening. -/
structure Connected (client : Handle) (link : Link) : Prop where
  unreleased : client ∉ link.released
  listening : link.peer.listening = true

/-- The link after another request. -/
def Link.after (link : Link) (request : Request) : Link :=
  { link with peer := link.peer.after request }

@[simp]
theorem Link.peer_after (link : Link) (request : Request) :
    (link.after request).peer = link.peer.after request :=
  rfl

theorem Connected.after {client : Handle} {link : Link}
    (connected : Connected client link) (request : Request) :
    Connected client (link.after request) :=
  ⟨connected.unreleased, connected.listening⟩

theorem Connected.answer {settings : Settings} {client : Handle} {link : Link}
    (connected : Connected client link) {call : Call} {request : Request}
    (requested : requestFor? settings call = some request) :
    (Link.service settings).answer client call link =
      (replyOf call (link.peer.answer? 0), link.after request) := by
  have sent : call ≠ .close := by
    rintro rfl
    cases requested
  rw [← Peer.next?_eq_answer?]
  exact answer_of_request sent connected.unreleased connected.listening
    requested

/-- The texts among the errors that a body lists at its top.  A body that broke
off or is no JSON lists none. -/
def listedErrors (body : Option (List UInt8)) : List String :=
  match body.map fun bytes => Json.read (utf8Chars bytes) with
  | some (.ok (.object members)) =>
      match members.lookup "errors" with
      | some (.array items) => items.filterMap Json.string?
      | _ => []
  | _ => []

/-- The detail of an error about a bundle. -/
def bundleDetail (mount path : String) (body : Option (List UInt8)) : String :=
  if listedErrors body = [] then trimSlashes mount ++ "/" ++ trimSlashes path
  else "; ".intercalate (listedErrors body)

/-- How a write to a bundle ends that was answered so. -/
def writeOutcome (mount path : String) : Option Response → Outcome Unit
  | none => .fault .network
  | some response =>
      if response.isSuccess then .value ()
      else .fault
        (.ofStatus response.status (bundleDetail mount path response.body))

theorem errorDetail?_eq (body : Option (List UInt8)) :
    errorDetail? (body.getD []) =
      if listedErrors body = [] then none
      else some ("; ".intercalate (listedErrors body)) := by
  cases body with
  | none =>
      have unread : Json.read (utf8Chars []) = .error .unfinished := by decide
      rw [errorDetail?, Option.getD_none, unread]
      rfl
  | some bytes =>
      rw [errorDetail?, listedErrors, Option.getD_some, Option.map_some]
      cases Json.read (utf8Chars bytes) with
      | error malformed => rfl
      | ok value =>
          cases value with
          | object members =>
              simp only [Except.toOption, Json.get?, Json.members,
                Option.bind_eq_bind, Option.bind_some]
              cases members.lookup "errors" with
              | none => rfl
              | some errors =>
                  cases errors with
                  | array items =>
                      simp only [Json.array?, Option.bind_some]
                      cases items.filterMap Json.string? with
                      | nil => rfl
                      | cons text texts => simp
                  | _ => rfl
          | _ => rfl

theorem errorOf_eq {call : Call} {mount path : String}
    (concerns : Concerns call mount path) (response : Response) :
    errorOf call response =
      .ofStatus response.status (bundleDetail mount path response.body) := by
  have about : subject call = trimSlashes mount ++ "/" ++ trimSlashes path := by
    rcases concerns with rfl | ⟨data, rfl⟩ | ⟨data, rfl⟩ <;> rfl
  rw [errorOf, errorDetail?_eq, about, bundleDetail]
  split <;> rfl

theorem replyOf_patch (mount path : String) (data : Bundle)
    (response : Option Response) :
    replyOf (.patch mount path data) response =
      writeOutcome mount path response := by
  cases response with
  | none => rfl
  | some response =>
      rw [replyOf, writeOutcome,
        errorOf_eq (Or.inr (Or.inl ⟨data, rfl⟩)) response]
      rfl

theorem replyOf_put (mount path : String) (data : Bundle)
    (response : Option Response) :
    replyOf (.put mount path data) response =
      writeOutcome mount path response := by
  cases response with
  | none => rfl
  | some response =>
      rw [replyOf, writeOutcome,
        errorOf_eq (Or.inr (Or.inr ⟨data, rfl⟩)) response]
      rfl

end Http

end KeyCustody
