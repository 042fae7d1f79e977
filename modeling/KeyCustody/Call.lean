import KeyCustody.Json.Basic
import KeyCustody.Outcome

/-!
# Calls to the secrets store

A client of the store understands six calls.  What a call is answered with
depends on the call.

Clients are connected one at a time and are known by a handle.
-/

namespace KeyCustody

/-- The handle of a connected client. -/
abbrev Handle := Nat

/-- A call to the secrets store. -/
inductive Call
  /-- Asks for the bundle at a path. -/
  | read (mount path : String)
  /-- Adds entries to the bundle at a path, which has to exist. -/
  | patch (mount path : String) (data : Bundle)
  /-- Replaces the bundle at a path, or creates it. -/
  | put (mount path : String) (data : Bundle)
  /-- Asks for the names under which the mounted engines are listed. -/
  | mounts
  /-- Mounts a new engine for keys and values. -/
  | enable (mount description : String)
  /-- Releases the client. -/
  | close
deriving DecidableEq

/-- What a call is answered with when it succeeds. -/
@[reducible]
def Call.Reply : Call → Type
  | .read _ _ => Bundle
  | .mounts => List String
  | .patch _ _ _ | .put _ _ _ | .enable _ _ | .close => Unit

/-- The kinds of requests that reach the store's side: connecting a client, and
the calls without their arguments. -/
inductive CallKind
  | connect
  | close
  | mounts
  | enable
  | read
  | patch
  | put
deriving DecidableEq, Repr

def Call.kind : Call → CallKind
  | .read _ _ => .read
  | .patch _ _ _ => .patch
  | .put _ _ _ => .put
  | .mounts => .mounts
  | .enable _ _ => .enable
  | .close => .close

end KeyCustody
