import KeyCustody.FaultPlan
import KeyCustody.Http.Link
import KeyCustody.KeyRing
import KeyCustody.MemoryStore

/-!
# Scripts

A script is a list of steps on sessions, on clients and on the store itself.
Sessions and clients have names.  This file holds the steps and what is reported
of them; the next one plays scripts.

A script is played at a site: a service, together with the log of what reached
it and with the aids that act on its state from outside.
-/

namespace KeyCustody

namespace Script

/-- An API key id, written out or by the number of the issue that gave it. -/
inductive KeyReference
  | named (id : String)
  | issued (count : Nat) (otherwise : String)
deriving DecidableEq, Repr

/-- Something to do with one session. -/
inductive Task
  | addWrite (path key value mount : String)
  | addScripted (label mount : String) (execute : List Act)
      (rollback : Option (List Act))
  | flush
  | commit
  | rollback
  | close
  | readBundle (path mount : String)
  | ask (call : Call)
  | describe
  | addKey (user : Uuid) (id : String) (key : Uuid)
  | keysOf (user : Uuid)
  | issue (user : Uuid) (fresh : IssuedKey)
  | resolve (user : Uuid) (ids : List KeyReference)
deriving DecidableEq

/-- Something to do with the store behind all sessions. -/
inductive Aid
  | mount (mount : String)
  | insert (mount path : String) (data : Bundle)
  | get (mount path : String)
  | remove (mount path : String)
  | refuseKey (key : String)
  | refusePath (path : String)
  | forget
  | recall
  | plan (later : FaultPlan)
deriving DecidableEq

/-- A step inside a scope, which has a session of its own. -/
inductive Item
  | task (task : Task)
  | aid (aid : Aid)
deriving DecidableEq

/-- How the work inside a scope ends when all its steps are done. -/
inductive Ending
  | value (result : Json)
  | fail (error : StoreError)
  | crash (message : String)
deriving DecidableEq

inductive Step
  /-- Opens a session over a client of its own. -/
  | opens (session : String)
  | connect (client : String)
  /-- Starts a session over a client that is connected already. -/
  | start (session client : String)
  | task (session : String) (task : Task)
  | askClient (session client : String) (call : Call)
  | disconnect (session : String)
  | aid (session : String) (aid : Aid)
  /-- Does several steps in a scope; with `stopsAtFault` the first error among
  them ends the work. -/
  | scope (items : List Item) (ending : Ending) (stopsAtFault : Bool)
deriving DecidableEq

/-- What a successful step shows; `κ` is the type of log entries. -/
inductive Shown (κ : Type)
  | nothing
  | number (id : Nat)
  | bundle (bundle : Bundle)
  | found (bundle : Option Bundle)
  | names (names : List String)
  | text (text : String)
  | issued (key : IssuedKey)
  | resolved (keys : List ResolvedKey)
  | log (entries : List κ)
  | scoped (id : Nat) (result : Json)

/-- What comes of a step. -/
inductive Verdict (κ : Type)
  | done (outcome : Outcome (Shown κ))
  | noSession
  | noClient

/-- What is reported of a step: what came of it, its session afterwards, and
what was logged and noted since the last report. -/
structure Entry (κ : Type) where
  verdict : Verdict κ
  session : Option Session
  calls : List κ
  notes : List Note

/-- The report on a step of a script; a scope also has the reports on the steps
inside. -/
structure Report (κ : Type) extends Entry κ where
  inner : List (Entry κ) := []

/-- Where a script is played. -/
structure Site (σ κ : Type) where
  service : Service σ
  log : σ → List κ
  /-- The effect of an aid on the state of the service. -/
  help : Aid → σ → Shown κ × σ
  ring : KeyRing

/-- What an aid does to a store in memory behind a plan of faults. -/
def helpMemory : Aid → Guarded MemoryStore →
    Shown Sighting × Guarded MemoryStore
  | .mount mount, state =>
      (.nothing, { state with inner := state.inner.mount mount })
  | .insert mount path data, state =>
      (.nothing, { state with inner := state.inner.insert mount path data })
  | .get mount path, state => (.found (state.inner.get? mount path), state)
  | .remove mount path, state =>
      (.found (state.inner.get? mount path),
        { state with inner := state.inner.remove mount path })
  | .refuseKey key, state =>
      (.nothing, { state with inner := state.inner.refuseKey key })
  | .refusePath path, state =>
      (.nothing, { state with inner := state.inner.refusePath path })
  | .forget, state => (.nothing, { state with inner := state.inner.forget })
  | .recall, state => (.log state.inner.seen, state)
  | .plan later, state =>
      (.nothing, { state with plan := state.plan.append later })

/-- A site with a store in memory behind a plan of faults. -/
def memorySite (ring : KeyRing) : Site (Guarded MemoryStore) Sighting where
  service := MemoryStore.service.guarded
  log state := state.inner.seen
  help := helpMemory
  ring := ring

/-- A site at the near end of a connection.  The far end cannot be helped. -/
def linkSite (settings : Settings) (ring : KeyRing) :
    Site Http.Link Http.Request where
  service := Http.Link.service settings
  log link := link.peer.received
  help
    | .recall, link => (.log link.peer.received, link)
    | _, link => (.nothing, link)
  ring := ring

end Script

end KeyCustody
