import KeyCustody.Session.Commit

/-!
# Scopes

A scope hands a fresh session to a piece of work and cleans up behind it,
whichever way the work ends: what was not committed is undone, and the client
is released.  Values, errors and crashes of the work are the outcome of the
scope.

The work need not be a dialogue.  Its surroundings say how they carry out the
dialogues of the scope itself.
-/

namespace KeyCustody

namespace Session

variable {α : Type} {m : Type → Type} [Monad m]

/-- Connects a client on a background task and starts a session over it. -/
def opened (id : Nat) : Dialogue (Outcome Session) := do
  let reply ← Dialogue.connected
  return reply.inBackground.map fun client => { id, client }

/-- Cleans up behind work with the given outcome. -/
def leave (outcome : Outcome α) (session : Session) :
    Dialogue (Outcome Unit) := do
  if outcome.isValue then session.disconnect
  else
    let (rolledBack, session) ← session.rollback
    match rolledBack with
    | .crash message => return .crash message
    | _ => session.disconnect

/-- Does a piece of work with a session and cleans up behind it.  A crash while
cleaning up takes the place of the work's own outcome. -/
def within (carryOut : {β : Type} → Dialogue β → m β) (session : Session)
    (work : Session → m (Outcome α × Session)) : m (Outcome α) := do
  let (outcome, session) ← work session
  match ← carryOut (leave outcome session) with
  | .crash message => return .crash message
  | _ => return outcome

/-- Does a piece of work within a session of its own. -/
def scope (carryOut : {β : Type} → Dialogue β → m β) (id : Nat)
    (work : Session → m (Outcome α × Session)) : m (Outcome α) := do
  match ← carryOut (opened id) with
  | .value session => within carryOut session work
  | .fault error => return .fault error
  | .crash message => return .crash message

end Session

end KeyCustody
