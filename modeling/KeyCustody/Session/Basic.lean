import KeyCustody.Operation

/-!
# Sessions

A session queues operations on the store.  Nothing reaches the store before the
queue is flushed or committed.

Undoing is cleanup and no promise of consistency: what was written stays in
place when the program stops in the middle, and undoing can itself fail.
-/

namespace KeyCustody

/-- A unit of work on the store over one client. -/
structure Session where
  id : Nat
  client : Handle
  operations : List Operation := []
  committed : Bool := false
deriving DecidableEq

namespace Session

def pending (session : Session) : Nat :=
  (session.operations.filter fun operation => !operation.executed).length

/-- The session with one more operation.  A committed session is open again. -/
def add (session : Session) (mount : String) (action : Action) : Session :=
  { session with
    operations := session.operations ++ [{ mount, action }]
    committed := false }

def addWrite (session : Session) (path key value mount : String) : Session :=
  session.add mount (.write path key value)

def cleared (session : Session) : Session :=
  { session with operations := [], committed := false }

def readBundle (session : Session) (path mount : String) :
    Dialogue (Outcome Bundle) := do
  let reply ← Dialogue.call session.client (.read mount path)
  return reply.inBackground

/-- Makes a call through the session's client on a background task. -/
def ask (session : Session) (call : Call) :
    Dialogue (Outcome call.Reply) := do
  let reply ← Dialogue.call session.client call
  return reply.inBackground

/-- A session in words, under the given number. -/
def describe (session : Session) (id : Nat) : String :=
  "VaultSession \x7b id: " ++ toString id ++ ", operations: [" ++
    ", ".intercalate (session.operations.map Operation.describe) ++
    "], committed: " ++ toString session.committed ++ " \x7d"

end Session

end KeyCustody
