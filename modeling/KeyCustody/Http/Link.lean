import KeyCustody.Dialogue
import KeyCustody.Http.Exchange

/-!
# The store behind a connection

A link is the state of the connections to a server: the clients that were
connected and released, and the server's side.  A released client stays
released, and whatever is asked through it fails without a request.

The server's side is a peer that answers requests from a prepared list, in the
order in which they arrive.
-/

namespace KeyCustody

namespace Http

/-- What a peer does with a request. -/
inductive Answer
  | respond (response : Response)
  | hangUp
deriving DecidableEq, Repr

/-- The far end of a connection. -/
structure Peer where
  listening : Bool := true
  /-- The answers to the next requests; after them the peer hangs up. -/
  answers : List Answer := []
  received : List Request := []
deriving DecidableEq, Repr

namespace Peer

/-- Sends a request.  The result is the response, unless the connection
failed. -/
def exchange (peer : Peer) (request : Request) : Option Response × Peer :=
  if peer.listening then
    let received := peer.received ++ [request]
    match peer.answers with
    | [] => (none, { peer with received })
    | .hangUp :: answers => (none, { peer with answers, received })
    | .respond response :: answers =>
        (some response, { peer with answers, received })
  else (none, peer)

end Peer

/-- The connections to a server. -/
structure Link where
  connected : Nat := 0
  released : List Handle := []
  peer : Peer := {}
deriving DecidableEq, Repr

namespace Link

def connect (link : Link) : Handle × Link :=
  (link.connected, { link with connected := link.connected + 1 })

def release (link : Link) (client : Handle) : Link :=
  { link with released := client :: link.released }

/-- Answers a call that needs a request. -/
def request (settings : Settings) (call : Call) (link : Link) :
    Outcome call.Reply × Link :=
  match requestFor? settings call with
  | none => (.fault .network, link)
  | some request =>
      let (response, peer) := link.peer.exchange request
      (replyOf call response, { link with peer })

/-- Answers a call.  Nothing is asked through a released client. -/
def answer (settings : Settings) (client : Handle) (call : Call)
    (link : Link) : Outcome call.Reply × Link :=
  match call with
  | .close => (.value (), link.release client)
  | call =>
      if link.released.contains client then (.fault .sessionClosed, link)
      else link.request settings call

/-- A server reached with the given settings, as a service. -/
def service (settings : Settings) : Service Link where
  connect link :=
    let (client, link) := link.connect
    (.value client, link)
  answer := answer settings

end Link

end Http

end KeyCustody
