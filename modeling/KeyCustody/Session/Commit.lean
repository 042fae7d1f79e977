import KeyCustody.Location
import KeyCustody.Session.Basic

/-!
# Executing and undoing a queue

Flushing executes the queue in order and stops at the first operation that
fails.  Committing flushes, and either empties the queue or undoes what was
executed.  Undoing goes from the newest operation to the oldest and does not
stop at failures.

Every function returns the session as it is left, whatever the outcome.
-/

namespace KeyCustody

/-- Makes sure that the engine at a mount point is mounted. -/
def ensureMount (client : Handle) (mount : String) :
    Dialogue (Outcome Unit) := do
  match (← Dialogue.call client .mounts).inBackground with
  | .value listed =>
      if listed.contains (listedName mount) then return .value ()
      else
        let reply ← Dialogue.call client
          (.enable mount ("KV engine for " ++ mount))
        return reply.inBackground
  | .fault error => return .fault error
  | .crash message => return .crash message

def ensureMounts (client : Handle) : List String → Dialogue (Outcome Unit)
  | [] => return .value ()
  | mount :: others => do
      match ← ensureMount client mount with
      | .value _ => ensureMounts client others
      | stopped => return stopped

namespace Operation

/-- Executes operations in order until one fails.  `index` is the position of
the first one. -/
def runAll (client : Handle) (index : Nat) :
    List Operation → Dialogue (Outcome Unit × List Operation)
  | [] => return (.value (), [])
  | operation :: later => do
      let (outcome, operation) ← operation.run client index
      match outcome with
      | .value _ =>
          let (outcome, later) ← runAll client (index + 1) later
          return (outcome, operation :: later)
      | stopped => return (stopped, operation :: later)

/-- Undoes operations, the last one first.  A failure is noted and the others
are still undone; only a crash stops the work. -/
def undoAll (client : Handle) (index : Nat) :
    List Operation → Dialogue (Outcome Unit × List Operation)
  | [] => return (.value (), [])
  | operation :: later => do
      let (outcome, later) ← undoAll client (index + 1) later
      match outcome with
      | .crash message => return (.crash message, operation :: later)
      | _ =>
          let (outcome, operation) ← operation.undo client index
          match outcome with
          | .fault error =>
              Dialogue.noted
                (.warned (.notUndone index operation.mount error))
              return (.value (), operation :: later)
          | outcome => return (outcome, operation :: later)

end Operation

namespace Session

/-- The mount points that the queue needs, each once and in the order in which
the queue first names it. -/
def mounts (session : Session) : List String :=
  (session.operations.map Operation.mount).eraseDups

/-- Executes the queue without emptying it.  Engines are mounted before the
first operation is executed. -/
def flush (session : Session) : Dialogue (Outcome Unit × Session) := do
  match ← ensureMounts session.client session.mounts with
  | .value _ =>
      let (outcome, operations) ←
        Operation.runAll session.client 0 session.operations
      return (outcome, { session with operations })
  | stopped => return (stopped, session)

def rollback (session : Session) : Dialogue (Outcome Unit × Session) := do
  let (outcome, operations) ←
    Operation.undoAll session.client 0 session.operations
  return (outcome, { session with operations })

/-- Executes the queue and empties it.  When the queue fails, what was executed
is undone and the failure is the outcome. -/
def commit (session : Session) : Dialogue (Outcome Unit × Session) := do
  let (outcome, session) ← session.flush
  match outcome with
  | .value _ => return (.value (), { session.cleared with committed := true })
  | .fault error =>
      let (outcome, session) ← session.rollback
      match outcome with
      | .crash message => return (.crash message, session)
      | _ => return (.fault error, session)
  | .crash message => return (.crash message, session)

/-- Undoes the queue unless it is committed, and empties it. -/
def close (session : Session) : Dialogue (Outcome Unit × Session) := do
  if session.committed then return (.value (), session.cleared)
  else
    let (outcome, session) ← session.rollback
    match outcome with
    | .crash message => return (.crash message, session)
    | _ => return (.value (), session.cleared)

/-- Releases the client on a background task. -/
def release (session : Session) : Dialogue (Outcome Unit) := do
  match ← Dialogue.call session.client .close with
  | .crash message =>
      Dialogue.noted (.warned (.notReleased (taskReport message)))
      return .value ()
  | _ => return .value ()

/-- Ends a session: closes it and releases its client. -/
def disconnect (session : Session) : Dialogue (Outcome Unit) := do
  let (outcome, session) ← session.close
  match outcome with
  | .crash message => return .crash message
  | _ => session.release

end Session

end KeyCustody
