import KeyCustody.CommandLine
import KeyCustody.Http.Link
import KeyCustody.Http.Message
import Std.Async.DNS
import Std.Async.TCP
import Std.Async.Timer
import Std.Time.DateTime.Timestamp

/-!
# The program

Reads the arguments and the variables, does the command over real connections
and prints what comes of it.  Encrypted connections are not available, so a url
that asks for one fails like a server that cannot be reached.
-/

open KeyCustody
open Std.Async

namespace KeyCustody.Program

def variableNames : List String :=
  ["VAULT_TOKEN", "VAULT_URL", "VAULT_API_KEYS_MOUNT_POINT",
    "VAULT_TIMEOUT_SECONDS"]

partial def receiveAll (socket : TCP.Socket.Client) (received : ByteArray) :
    Async ByteArray := do
  match ← socket.recv? 65536 with
  | none => return received
  | some bytes => receiveAll socket (received ++ bytes)

def socketAddress (port : Nat) : Std.Net.IPAddr → Std.Net.SocketAddress
  | .v4 address => .v4 ⟨address, UInt16.ofNat port⟩
  | .v6 address => .v6 ⟨address, UInt16.ofNat port⟩

/-- The host of a url without the brackets around a version 6 address. -/
def plainHost (url : Http.Url) : String :=
  .ofList (url.host.toList.filter fun c => c != '[' && c != ']')

def converse (request : Http.Request) : Async (Option Http.Response) := do
  let addresses ← DNS.getAddrInfo (plainHost request.url) ""
  match addresses.toList with
  | [] => return none
  | address :: _ =>
      let socket ← TCP.Socket.Client.mk
      socket.connect (socketAddress request.url.port address)
      socket.send request.message.toUTF8
      let received ← receiveAll socket .empty
      return Http.Response.ofBytes? 16 received.toList

/-- The longest time limit that is kept, in milliseconds: about a year. -/
def longestLimit : Nat := 366 * 24 * 60 * 60 * 1000

/-- Waits until the time for a request is over. -/
def timeOver (settings : Settings) : Async (Option Http.Response) := do
  sleep (.ofNat (min settings.timeoutMilliseconds longestLimit))
  return none

/-- The response to a request, unless the connection fails or takes too
long. -/
def exchange (settings : Settings) (request : Http.Request) :
    IO (Option Http.Response) := do
  if request.url.encrypted then return none
  try (Async.race (converse request) (timeOver settings)).block
  catch _ => return none

/-- The clients connected and released so far. -/
structure Clients where
  connected : Nat := 0
  released : List Handle := []

/-- Answers a call that needs a request over a real connection. -/
def request (settings : Settings) (call : Call) : IO (Outcome call.Reply) := do
  match Http.requestFor? settings call with
  | none => return .fault .network
  | some request => return Http.replyOf call (← exchange settings request)

/-- Answers a call over a real connection.  Nothing is asked through a released
client. -/
def answer (settings : Settings) (client : Handle) :
    (call : Call) → StateT Clients IO (Outcome call.Reply)
  | .close => do
      modify fun clients =>
        { clients with released := client :: clients.released }
      return .value ()
  | call => do
      if (← get).released.contains client then return .fault .sessionClosed
      else request settings call

/-- Carries out a dialogue over real connections. -/
def carryOut (settings : Settings) {α : Type} :
    Dialogue α → StateT Clients IO α
  | .result value => return value
  | .connect next => do
      let client := (← get).connected
      modify fun clients => { clients with connected := client + 1 }
      carryOut settings (next (.value client))
  | .ask client call next => do
      carryOut settings (next (← answer settings client call))
  | .note _ next => carryOut settings next

/-- A new key.  Its id is random; the key itself starts with the time, so that
keys issued later are greater. -/
def freshKey : IO IssuedKey := do
  let random (count : Nat) : IO Nat := do
    let bytes ← IO.getRandomBytes (.ofNat count)
    return bytes.toList.foldl (fun n byte => n * 256 + byte.toNat) 0
  let now ← Std.Time.Timestamp.now
  let time := now.toMillisecondsSinceUnixEpoch.val.toNat
  return { id := .ofBits 4 (← random 16)
           key := .ofBits 7 (time <<< 80 + (← random 10)) }

def valueOf (environment : List (String × Option String)) (name : String) :
    Option String :=
  (environment.lookup name).join

def exitFor (arguments : List String) : IO CommandLine.Exit := do
  let environment ← variableNames.mapM fun name => do
    return (name, ← IO.getEnv name)
  match CommandLine.prepare (valueOf environment) arguments with
  | .error exit => return exit
  | .ok (settings, command) =>
      let work := command.perform ⟨settings.apiKeysMount⟩ (← freshKey)
      let (outcome, _) ← (carryOut settings work).run {}
      return .ofOutcome outcome

end KeyCustody.Program

def main (arguments : List String) : IO UInt32 := do
  let exit ← KeyCustody.Program.exitFor arguments
  (← IO.getStdout).putStr exit.output
  (← IO.getStderr).putStr exit.errors
  return .ofNat exit.code
