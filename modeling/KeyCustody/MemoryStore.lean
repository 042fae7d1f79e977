import KeyCustody.Dialogue
import KeyCustody.Location
import Std.Data.ExtTreeSet

/-!
# A secrets store in memory

This store keeps its bundles in memory and answers every call at once.  Writing
needs a mounted engine and adding to a bundle needs the bundle, as in the real
store.  It records each call it sees, and it can be told to refuse writes of a
key and reads of a path.
-/

namespace KeyCustody

/-- What the store remembers of a request: of data only the keys. -/
inductive Sighting
  | connect
  | close
  | mounts
  | enable (mount : String)
  | read (mount path : String)
  | patch (mount path : String) (keys : List String)
  | put (mount path : String) (keys : List String)
deriving DecidableEq, Repr

/-- What the store remembers of a call. -/
def Call.sighting : Call → Sighting
  | .read mount path => .read mount path
  | .patch mount path data => .patch mount path data.keys
  | .put mount path data => .put mount path data.keys
  | .mounts => .mounts
  | .enable mount _ => .enable mount
  | .close => .close

/-- A secrets store in memory. -/
structure MemoryStore where
  /-- The names under which the mounted engines are listed. -/
  listed : Std.ExtTreeSet String := ∅
  bundles : Std.ExtTreeMap Location Bundle := ∅
  seen : List Sighting := []
  refusedKeys : List String := []
  refusedPaths : List String := []

namespace MemoryStore

def get? (store : MemoryStore) (mount path : String) : Option Bundle :=
  store.bundles[Location.of mount path]?

def mount (store : MemoryStore) (mount : String) : MemoryStore :=
  { store with listed := store.listed.insert (listedName mount) }

/-- The store with a bundle put at a place, whose engine is mounted if it is
missing. -/
def insert (store : MemoryStore) (mount path : String) (data : Bundle) :
    MemoryStore :=
  { store.mount mount with
    bundles := store.bundles.insert (Location.of mount path) data }

def remove (store : MemoryStore) (mount path : String) : MemoryStore :=
  { store with bundles := store.bundles.erase (Location.of mount path) }

/-- The store that refuses to write a key from now on. -/
def refuseKey (store : MemoryStore) (key : String) : MemoryStore :=
  { store with refusedKeys := key :: store.refusedKeys }

/-- The store that refuses to read a path from now on, under any mount point.
Only the very spelling of the path is refused. -/
def refusePath (store : MemoryStore) (path : String) : MemoryStore :=
  { store with refusedPaths := path :: store.refusedPaths }

def forget (store : MemoryStore) : MemoryStore :=
  { store with seen := [] }

def record (store : MemoryStore) (sighting : Sighting) : MemoryStore :=
  { store with seen := store.seen ++ [sighting] }

/-- Why the store does not write data at a place, if it does not.  A refused
key counts before a missing engine. -/
def writeFault? (store : MemoryStore) (mount path : String) (data : Bundle) :
    Option StoreError :=
  if data.keys.any store.refusedKeys.contains then
    some (.internal
      ("injected write failure at " ++ (Location.of mount path).label))
  else if store.listed.contains (listedName mount) then none
  else some (.noSuchPath mount path)

/-- The bundle at a place, or why it cannot be read. -/
def readBundle (store : MemoryStore) (mount path : String) : Outcome Bundle :=
  if store.refusedPaths.contains path then
    .fault (.internal
      ("injected read failure at " ++ (Location.of mount path).label))
  else
    match store.get? mount path with
    | some bundle => .value bundle
    | none => .fault (.noSuchPath mount path)

/-- A bundle with entries added, each in the place of one with the same key. -/
def merged (bundle data : Bundle) : Bundle :=
  bundle.insertMany data.toList

/-- Adds entries to the bundle at a place. -/
def patchBundle (store : MemoryStore) (mount path : String) (data : Bundle) :
    Outcome Unit × MemoryStore :=
  match store.writeFault? mount path data with
  | some error => (.fault error, store)
  | none =>
      match store.get? mount path with
      | none => (.fault (.noSuchPath mount path), store)
      | some bundle =>
          (.value (), { store with
            bundles := store.bundles.insert (Location.of mount path)
              (merged bundle data) })

def putBundle (store : MemoryStore) (mount path : String) (data : Bundle) :
    Outcome Unit × MemoryStore :=
  match store.writeFault? mount path data with
  | some error => (.fault error, store)
  | none =>
      (.value (), { store with
        bundles := store.bundles.insert (Location.of mount path) data })

/-- Mounts an engine that is not mounted yet. -/
def enableEngine (store : MemoryStore) (mount : String) :
    Outcome Unit × MemoryStore :=
  if store.listed.contains (listedName mount) then
    (.fault (.invalidRequest
      ("path is already in use at " ++ listedName mount)), store)
  else (.value (), store.mount mount)

/-- Answers a call.  All clients see the same store. -/
def answer (call : Call) (store : MemoryStore) :
    Outcome call.Reply × MemoryStore :=
  let store := store.record call.sighting
  match call with
  | .read mount path => (store.readBundle mount path, store)
  | .patch mount path data => store.patchBundle mount path data
  | .put mount path data => store.putBundle mount path data
  | .mounts => (.value store.listed.toList, store)
  | .enable mount _ => store.enableEngine mount
  | .close => (.value (), store)

def service : Service MemoryStore where
  connect store := (.value 0, store.record .connect)
  answer _ call store := answer call store

end MemoryStore

end KeyCustody
