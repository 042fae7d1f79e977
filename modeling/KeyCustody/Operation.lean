import KeyCustody.Dialogue
import KeyCustody.Text.Quoted

/-!
# Operations

An operation is a deferred action on the store, paired with the action that
undoes it.  It is executed at most once with success and undone at most once
with success; a failed attempt leaves it as it was.

The usual operation writes one entry of a bundle.  Any other operation is given
by a script of what its actions do each time they are invoked.
-/

namespace KeyCustody

/-- What a scripted action does at one invocation. -/
inductive Act
  | succeed
  | fail (error : StoreError)
  | crash (message : String)
  | crashInBackground (message : String)
  | ask (call : Call)
deriving DecidableEq

/-- The act for the next invocation of a script, and the script for the ones
after it.  The last act repeats, and an empty script always succeeds. -/
def nextAct : List Act → Act × List Act
  | [] => (.succeed, [])
  | [last] => (last, [last])
  | first :: later => (first, later)

/-- Performs an act. -/
def Act.perform (client : Handle) : Act → Dialogue (Outcome Unit)
  | .succeed => pure (.value ())
  | .fail error => pure (.fault error)
  | .crash message => pure (.crash message)
  | .crashInBackground message =>
      pure (Outcome.crash message).inBackground
  | .ask call => do
      let reply ← Dialogue.call client call
      return (reply.map fun _ => ()).inBackground

/-- Sets one entry of the bundle at a path.  The bundle is created when the
store reports that the path is missing. -/
def setEntry (client : Handle) (mount path key value : String) :
    Dialogue (Outcome Unit) := do
  let data := Bundle.ofEntries [(key, .string value)]
  match ← Dialogue.call client (.patch mount path data) with
  | .fault (.pathNotFound _) =>
      let reply ← Dialogue.call client (.put mount path data)
      return reply.inBackground
  | reply => return reply.inBackground

/-- Takes one entry out of the bundle at a path and leaves the others as they
are.  There is nothing to do when the bundle or the entry is missing. -/
def dropEntry (client : Handle) (mount path key : String) :
    Dialogue (Outcome Unit) := do
  match ← Dialogue.call client (.read mount path) with
  | .value bundle =>
      if bundle.contains key then
        let reply ← Dialogue.call client (.put mount path (bundle.erase key))
        return reply.inBackground
      else return .value ()
  | .fault (.pathNotFound _) => return .value ()
  | .fault error => return .fault error
  | .crash message => return (Outcome.crash message).inBackground

/-- What an operation does and how it is undone. -/
inductive Action
  /-- Sets an entry; undone by taking it out again. -/
  | write (path key value : String)
  /-- Follows a script for each phase; without a second script it cannot be
  undone. -/
  | scripted (label : String) (execute : List Act)
      (rollback : Option (List Act))
deriving DecidableEq

namespace Action

/-- The name under which invocations of the action are noted. -/
def label? : Action → Option String
  | .write _ _ _ => none
  | .scripted label _ _ => some label

/-- Whether the action can be undone. -/
def canUndo : Action → Bool
  | .write _ _ _ => true
  | .scripted _ _ rollback => rollback.isSome

/-- Invokes the action in a phase.  The result holds what is left of its
scripts. -/
def invoke (client : Handle) (mount : String) (phase : Phase) :
    Action → Dialogue (Outcome Unit × Action)
  | .write path key value => do
      let outcome ←
        match phase with
        | .execute => setEntry client mount path key value
        | .rollback => dropEntry client mount path key
      return (outcome, .write path key value)
  | .scripted label execute rollback =>
      match phase with
      | .execute => do
          let (act, later) := nextAct execute
          let outcome ← act.perform client
          return (outcome, .scripted label later rollback)
      | .rollback => do
          let (act, later) := nextAct (rollback.getD [])
          let outcome ← act.perform client
          return (outcome, .scripted label execute (rollback.map fun _ => later))

end Action

/-- An action in the queue of a session and what has become of it. -/
structure Operation where
  mount : String
  action : Action
  executed : Bool := false
  undone : Bool := false
deriving DecidableEq

namespace Operation

/-- Invokes the action of an operation and takes a note of it. -/
def invoke (client : Handle) (index : Nat) (phase : Phase)
    (operation : Operation) : Dialogue (Outcome Unit × Operation) := do
  let (outcome, action) ←
    operation.action.invoke client operation.mount phase
  Dialogue.noted (.acted index action.label? phase outcome)
  return (outcome, { operation with action })

/-- Executes an operation that has not been executed. -/
def run (client : Handle) (index : Nat) (operation : Operation) :
    Dialogue (Outcome Unit × Operation) :=
  if operation.executed then return (.value (), operation)
  else do
    let (outcome, operation) ← operation.invoke client index .execute
    return (outcome,
      { operation with executed := outcome.isValue })

/-- Whether undoing an operation has something to do. -/
def needsUndo (operation : Operation) : Bool :=
  operation.executed && !operation.undone && operation.action.canUndo

/-- Undoes an executed operation that has not been undone. -/
def undo (client : Handle) (index : Nat) (operation : Operation) :
    Dialogue (Outcome Unit × Operation) :=
  if operation.needsUndo then do
    let (outcome, operation) ← operation.invoke client index .rollback
    return (outcome, { operation with undone := outcome.isValue })
  else return (.value (), operation)

/-- An operation in words. -/
def describe (operation : Operation) : String :=
  "VaultOperation \x7b mount_point: " ++ Text.quote operation.mount ++
    ", has_rollback: " ++ toString operation.action.canUndo ++
    ", is_executed: " ++ toString operation.executed ++
    ", is_rolled_back: " ++ toString operation.undone ++ " \x7d"

end Operation

end KeyCustody
