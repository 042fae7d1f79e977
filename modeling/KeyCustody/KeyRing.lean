import KeyCustody.Json.Printer
import KeyCustody.Session.Commit
import KeyCustody.Uuid

/-!
# The API keys of users

Each user has one bundle under the mount point of a key ring, at the path that
is the user's identifier.  The entries of the bundle are the user's API keys by
key id.
-/

namespace KeyCustody

structure IssuedKey where
  id : Uuid
  key : Uuid
deriving DecidableEq, Repr

structure ResolvedKey where
  id : String
  key : Option String
deriving DecidableEq, Repr

/-- The text of a stored value: a string is its own text, and any other value
is written as JSON. -/
def keyText : Json → String
  | .string text => text
  | value => value.render

def noKeysRequested : StoreError :=
  .invalidRequest
    "Before you can use this feature, you need to create an API key first."

/-- Where the API keys of users are kept. -/
structure KeyRing where
  mount : String
deriving DecidableEq, Repr

namespace KeyRing

def keysOf (ring : KeyRing) (session : Session) (user : Uuid) :
    Dialogue (Outcome Bundle) :=
  session.readBundle user.toString ring.mount

def add (ring : KeyRing) (session : Session) (user : Uuid) (id : String)
    (key : Uuid) : Session :=
  session.addWrite user.toString id key.toString ring.mount

/-- Stores a new key for a user and commits the session.  The key is the
outcome only if the commit succeeds. -/
def issue (ring : KeyRing) (session : Session) (user : Uuid)
    (fresh : IssuedKey) : Dialogue (Outcome IssuedKey × Session) := do
  let queued := ring.add session user fresh.id.toString fresh.key
  let (outcome, session) ← queued.commit
  return (outcome.map fun _ => fresh, session)

/-- Pairs key ids with the keys stored under them, in the given order. -/
def resolve (ring : KeyRing) (session : Session) (user : Uuid)
    (ids : List String) : Dialogue (Outcome (List ResolvedKey)) :=
  if ids.isEmpty then return .fault noKeysRequested
  else do
    let stored ← ring.keysOf session user
    return stored.map fun bundle =>
      ids.map fun id => ⟨id, bundle[id]?.map keyText⟩

end KeyRing

end KeyCustody
