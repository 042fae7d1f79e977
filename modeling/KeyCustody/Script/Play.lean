import KeyCustody.Script.Basic
import KeyCustody.Session.Scope

/-!
# Playing scripts

Steps are played one after the other on a stage, which holds the world, the
named sessions and clients, and how much of the log and of the notes has been
reported.

Sessions are numbered in the order in which they are opened.  Reports count
these numbers from the first one that the script showed.
-/

namespace KeyCustody

namespace Script

structure Stage (σ κ : Type) where
  world : World σ
  sessions : List (String × Session) := []
  clients : List (String × Handle) := []
  nextId : Nat := 0
  /-- The first number of a session that was shown. -/
  firstShown : Option Nat := none
  /-- The ids of the API keys issued so far, oldest first. -/
  issued : List String := []
  reportedCalls : Nat := 0
  reportedNotes : Nat := 0
  /-- The reports on the steps of the present scope. -/
  inner : List (Entry κ) := []

abbrev Play (σ κ : Type) := StateM (Stage σ κ)

variable {σ κ : Type}

/-- A named thing put in the place of one with the same name. -/
def assign {α : Type} (name : String) (value : α)
    (named : List (String × α)) : List (String × α) :=
  (name, value) :: named.filter fun entry => entry.1 != name

/-- The named things without one of them. -/
def dismiss {α : Type} (name : String) (named : List (String × α)) :
    List (String × α) :=
  named.filter fun entry => entry.1 != name

def carryOut (site : Site σ κ) {α : Type} (dialogue : Dialogue α) :
    Play σ κ α :=
  fun stage =>
    let (result, world) := dialogue.run site.service stage.world
    (result, { stage with world })

/-- The number of a session as reports count it. -/
def shownNumber (session : Session) : Play σ κ Nat :=
  fun stage =>
    let first := stage.firstShown.getD session.id
    (session.id - first, { stage with firstShown := some first })

/-- Reports what came of a step together with what is new in the log and among
the notes. -/
def report (site : Site σ κ) (verdict : Verdict κ)
    (session : Option Session) : Play σ κ (Entry κ) :=
  fun stage =>
    let log := site.log stage.world.store
    let entry : Entry κ :=
      { verdict, session
        calls := log.drop stage.reportedCalls
        notes := stage.world.notes.drop stage.reportedNotes }
    (entry, { stage with
      reportedCalls := log.length
      reportedNotes := stage.world.notes.length })

/-- The key id that a reference stands for. -/
def KeyReference.id (issued : List String) : KeyReference → String
  | .named id => id
  | .issued count otherwise => issued[count]?.getD otherwise

/-- The result of a call as it is shown. -/
def shownReply : (call : Call) → call.Reply → Shown κ
  | .read _ _, bundle => .bundle bundle
  | .mounts, names => .names names
  | .patch _ _ _, _ | .put _ _ _, _ | .enable _ _, _ | .close, _ => .nothing

def playTask (site : Site σ κ) (session : Session) :
    Task → Play σ κ (Outcome (Shown κ) × Session)
  | .addWrite path key value mount =>
      return (.value .nothing, session.addWrite path key value mount)
  | .addScripted label mount execute rollback =>
      return (.value .nothing,
        session.add mount (.scripted label execute rollback))
  | .flush => do
      let (outcome, session) ← carryOut site session.flush
      return (outcome.map fun _ => .nothing, session)
  | .commit => do
      let (outcome, session) ← carryOut site session.commit
      return (outcome.map fun _ => .nothing, session)
  | .rollback => do
      let (outcome, session) ← carryOut site session.rollback
      return (outcome.map fun _ => .nothing, session)
  | .close => do
      let (outcome, session) ← carryOut site session.close
      return (outcome.map fun _ => .nothing, session)
  | .readBundle path mount => do
      let outcome ← carryOut site (session.readBundle path mount)
      return (outcome.map .bundle, session)
  | .ask call => do
      let outcome ← carryOut site (session.ask call)
      return (outcome.map (shownReply call), session)
  | .describe => do
      let number ← shownNumber session
      return (.value (.text (session.describe number)), session)
  | .addKey user id key =>
      return (.value .nothing, site.ring.add session user id key)
  | .keysOf user => do
      let outcome ← carryOut site (site.ring.keysOf session user)
      return (outcome.map .bundle, session)
  | .issue user fresh => do
      let (outcome, session) ←
        carryOut site (site.ring.issue session user fresh)
      if outcome.isValue then
        modify fun stage =>
          { stage with issued := stage.issued ++ [fresh.id.toString] }
      return (outcome.map .issued, session)
  | .resolve user ids => do
      let issued := (← get).issued
      let outcome ← carryOut site
        (site.ring.resolve session user (ids.map (KeyReference.id issued)))
      return (outcome.map .resolved, session)

def playAid (site : Site σ κ) (aid : Aid) : Play σ κ (Shown κ) :=
  fun stage =>
    let (shown, store) := site.help aid stage.world.store
    (shown, { stage with world := { stage.world with store } })

def playItem (site : Site σ κ) (session : Session) :
    Item → Play σ κ (Outcome (Shown κ) × Session)
  | .task task => playTask site session task
  | .aid aid => do
      let shown ← playAid site aid
      return (.value shown, session)

/-- Plays the steps inside a scope.  A step that crashes is not reported. -/
def playItems (site : Site σ κ) (stopsAtFault : Bool) (session : Session) :
    List Item → Play σ κ (Outcome Unit × Session)
  | [] => return (.value (), session)
  | item :: later => do
      let (outcome, session) ← playItem site session item
      match outcome with
      | .crash message => return (.crash message, session)
      | outcome =>
          let entry ← report site (.done outcome) (some session)
          modify fun stage => { stage with inner := stage.inner ++ [entry] }
          match outcome, stopsAtFault with
          | .fault error, true => return (.fault error, session)
          | _, _ => playItems site stopsAtFault session later

def playWork (site : Site σ κ) (items : List Item) (ending : Ending)
    (stopsAtFault : Bool) (session : Session) :
    Play σ κ (Outcome (Shown κ) × Session) := do
  modify fun stage => { stage with nextId := stage.nextId + 1 }
  let (outcome, session) ← playItems site stopsAtFault session items
  match outcome, ending with
  | .fault error, _ => return (.fault error, session)
  | .crash message, _ => return (.crash message, session)
  | .value _, .fail error => return (.fault error, session)
  | .value _, .crash message => return (.crash message, session)
  | .value _, .value result =>
      let number ← shownNumber session
      return (.value (.scoped number result), session)

/-- Does something with the session of the given name. -/
def withSession (site : Site σ κ) (name : String)
    (action : Session → Play σ κ (Entry κ)) : Play σ κ (Entry κ) := do
  match (← get).sessions.lookup name with
  | none => report site .noSession none
  | some session => action session

/-- Reports a step and the session of the given name, if there is one. -/
def reportBeside (site : Site σ κ) (name : String) (verdict : Verdict κ) :
    Play σ κ (Entry κ) := do
  let session := (← get).sessions.lookup name
  report site verdict session

/-- Keeps a new session under a name and reports it. -/
def enroll (site : Site σ κ) (name : String) (session : Session) :
    Play σ κ (Entry κ) := do
  modify fun stage =>
    { stage with
      sessions := assign name session stage.sessions
      nextId := stage.nextId + 1 }
  let number ← shownNumber session
  report site (.done (.value (.number number))) (some session)

/-- Whether the report on an aid shows the session of its step: only the aids
that make the store refuse something are steps about sessions. -/
def Aid.showsSession : Aid → Bool
  | .refuseKey _ | .refusePath _ => true
  | _ => false

def playStep (site : Site σ κ) : Step → Play σ κ (Report κ)
  | .opens name => do
      match ← carryOut site (Session.opened (← get).nextId) with
      | .value session => return { (← enroll site name session) with }
      | .fault error =>
          return { (← reportBeside site name (.done (.fault error))) with }
      | .crash message =>
          return { (← reportBeside site name (.done (.crash message))) with }
  | .connect name => do
      let outcome ← carryOut site Dialogue.connected
      if let .value client := outcome then
        modify fun stage =>
          { stage with clients := assign name client stage.clients }
      let verdict := .done (outcome.map fun _ => .nothing)
      return { (← report site verdict none) with }
  | .start name clientName => do
      match (← get).clients.lookup clientName with
      | none => return { (← reportBeside site name .noClient) with }
      | some client =>
          let session : Session := { id := (← get).nextId, client }
          return { (← enroll site name session) with }
  | .task name task => do
      let entry ← withSession site name fun session => do
        let (outcome, session) ← playTask site session task
        modify fun stage =>
          { stage with sessions := assign name session stage.sessions }
        report site (.done outcome) (some session)
      return { entry with }
  | .askClient name clientName call => do
      match (← get).clients.lookup clientName with
      | none => return { (← reportBeside site name .noClient) with }
      | some client =>
          let reply ← carryOut site (Dialogue.call client call)
          let shown := reply.inBackground.map (shownReply call)
          return { (← reportBeside site name (.done shown)) with }
  | .disconnect name => do
      let entry ← withSession site name fun session => do
        modify fun stage =>
          { stage with sessions := dismiss name stage.sessions }
        let outcome ← carryOut site session.disconnect
        report site (.done (outcome.map fun _ => .nothing)) none
      return { entry with }
  | .aid name aid => do
      let shown ← playAid site aid
      let verdict : Verdict κ := .done (.value shown)
      if aid.showsSession then
        return { (← reportBeside site name verdict) with }
      else return { (← report site verdict none) with }
  | .scope items ending stopsAtFault => do
      modify fun stage => { stage with inner := [] }
      let outcome ← Session.scope (carryOut site) (← get).nextId
        (playWork site items ending stopsAtFault)
      let inner := (← get).inner
      let entry ← report site (.done outcome) none
      return { entry with inner }

def playSteps (site : Site σ κ) : List Step → Play σ κ (List (Report κ))
  | [] => return []
  | step :: later => do
      let first ← playStep site step
      return first :: (← playSteps site later)

/-- Plays a script from a state of the store. -/
def play (site : Site σ κ) (store : σ) (steps : List Step) :
    List (Report κ) × Stage σ κ :=
  (playSteps site steps).run { world := { store } }

end Script

end KeyCustody
