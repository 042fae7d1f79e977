import KeyCustody.Call
import KeyCustody.Http.Url
import KeyCustody.Json.Printer
import KeyCustody.Json.Reader
import KeyCustody.Settings.Basic

/-!
# Calls as requests and responses

Each call to the store is one request to the server and is answered by its
response.  Bundles lie under the `data` part of their engine, and engines are
listed and mounted under `sys/mounts`.

A response counts as a success by its status.  Any other response is an error
whose detail the server may give in its body.
-/

namespace KeyCustody

namespace Http

open Text

inductive Method
  | get
  | patch
  | post
deriving DecidableEq, Repr

def Method.name : Method → String
  | .get => "GET"
  | .patch => "PATCH"
  | .post => "POST"

structure Request where
  method : Method
  url : Url
  token : String
  contentType : Option String := none
  body : Option Json := none
deriving DecidableEq, Repr

/-- The form in which responses are asked for. -/
def acceptedForm : String := "application/json"

def userAgent : String := "vault_session/0.1.0"

/-- A response.  Its body is missing when it broke off. -/
structure Response where
  status : Nat
  body : Option (List UInt8)
deriving DecidableEq, Repr

def Response.isSuccess (response : Response) : Bool :=
  200 ≤ response.status && response.status < 300

/-- The url of a part of the server. -/
def urlText (settings : Settings) (tail : String) : String :=
  settings.baseUrl ++ "/v1/" ++ tail

def dataUrl (settings : Settings) (mount path : String) : String :=
  urlText settings
    (encodeName (trimSlashes mount) ++ "/data/" ++
      encodeName (trimSlashes path))

def mountUrl (settings : Settings) (mount : String) : String :=
  urlText settings ("sys/mounts/" ++ encodeName (trimSlashes mount))

def dataBody (data : Bundle) : Json :=
  .object [("data", data.toJson)]

/-- The body of the request that mounts an engine. -/
def engineBody (description : String) : Json :=
  .object [("description", .string description),
    ("options", .object [("version", .string "2")]),
    ("type", .string "kv")]

/-- A token that can be sent in a header: it has no control characters but
tabs. -/
def isSendable (token : String) : Bool :=
  token.toList.all fun c => c == '\t' || (0x20 ≤ c.toNat && c.toNat != 0x7F)

/-- The method, url and body of a call, with the form of the body.  Releasing a
client needs no request. -/
def plan (settings : Settings) :
    Call → Option (Method × String × Option (String × Json))
  | .read mount path => some (.get, dataUrl settings mount path, none)
  | .patch mount path data =>
      some (.patch, dataUrl settings mount path,
        some ("application/merge-patch+json", dataBody data))
  | .put mount path data =>
      some (.post, dataUrl settings mount path,
        some ("application/json", dataBody data))
  | .mounts => some (.get, urlText settings "sys/mounts", none)
  | .enable mount description =>
      some (.post, mountUrl settings mount,
        some ("application/json", engineBody description))
  | .close => none

/-- The request for a call, if it can be sent at all. -/
def requestFor? (settings : Settings) (call : Call) : Option Request := do
  let (method, text, content) ← plan settings call
  let url ← Url.ofString? text
  if isSendable settings.token then
    some { method, url, token := settings.token
           contentType := content.map Prod.fst
           body := content.map Prod.snd }
  else none

/-- What an error is about when the server does not say. -/
def subject : Call → String
  | .read mount path | .patch mount path _ | .put mount path _ =>
      trimSlashes mount ++ "/" ++ trimSlashes path
  | .mounts => "sys/mounts"
  | .enable mount _ => "sys/mounts/" ++ trimSlashes mount
  | .close => ""

/-- The errors that the body of an unsuccessful response lists, on one line. -/
def errorDetail? (body : List UInt8) : Option String := do
  let value ← (Json.read (utf8Chars body)).toOption
  let errors ← (← value.get? "errors").array?
  match errors.filterMap Json.string? with
  | [] => none
  | texts => some ("; ".intercalate texts)

/-- The bundle in the body of a response.  A bundle that was deleted reads as
an empty one. -/
def bundleOf (body : Json) : Bundle :=
  Bundle.ofEntries <|
    (((body.get? "data").bind (·.get? "data")).bind Json.object?).getD []

/-- The names of the engines in the body of a response.  The table of engines
lies under `data`, or is the whole body when there is no object there. -/
def enginesOf (body : Json) : List String :=
  let table := ((body.get? "data").bind Json.object?).getD body.members
  (table.map Prod.fst).filter fun name => name.toList.getLast? == some '/'

/-- Reads the body of a successful response. -/
def readBody {α : Type} (take : Json → α) (body : Option (List UInt8)) :
    Outcome α :=
  match body.bind Json.ofBytes? with
  | some value => .value (take value)
  | none => .fault .network

/-- The reply in a successful response. -/
def accept (call : Call) (body : Option (List UInt8)) : Outcome call.Reply :=
  match call with
  | .read _ _ => readBody bundleOf body
  | .mounts => readBody enginesOf body
  | .patch _ _ _ | .put _ _ _ | .enable _ _ | .close => .value ()

/-- The error that an unsuccessful response stands for.  A body that cannot be
read counts as an empty one. -/
def errorOf (call : Call) (response : Response) : StoreError :=
  .ofStatus response.status
    ((errorDetail? (response.body.getD [])).getD (subject call))

/-- The reply to a call, from the response to its request; there is none when
the connection failed. -/
def replyOf (call : Call) : Option Response → Outcome call.Reply
  | none => .fault .network
  | some response =>
      if response.isSuccess then accept call response.body
      else .fault (errorOf call response)

end Http

end KeyCustody
