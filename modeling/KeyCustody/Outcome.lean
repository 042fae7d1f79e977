import KeyCustody.StoreError
import KeyCustody.Text.Quoted

/-!
# Outcomes

Work on the store ends with a value, with an error that the caller handles, or
with a crash, which stops everything that does not guard against it.

Calls to the store are made on a background task.  The task guards against
crashes and reports one as an error.
-/

namespace KeyCustody

/-- How a piece of work ended. -/
inductive Outcome (α : Type)
  | value (result : α)
  | fault (error : StoreError)
  | crash (message : String)
deriving DecidableEq, Repr

/-- The report on a background task that crashed.  Tasks are numbered, but the
number carries no meaning and is left open. -/
def taskReport (message : String) : String :=
  "task N panicked with message " ++ Text.quote message

namespace Outcome

variable {α β : Type}

/-- The outcome with its value replaced. -/
def map (f : α → β) : Outcome α → Outcome β
  | .value result => .value (f result)
  | .fault error => .fault error
  | .crash message => .crash message

/-- Whether the work ended with a value. -/
def isValue : Outcome α → Bool
  | .value _ => true
  | _ => false

/-- The outcome of work done on a background task: a crash of the task is an
error for whoever waits for it. -/
def inBackground : Outcome α → Outcome α
  | .crash message => .fault (.background (taskReport message))
  | other => other

theorem inBackground_ne_crash (outcome : Outcome α) (message : String) :
    outcome.inBackground ≠ .crash message := by
  cases outcome <;> simp [inBackground]

@[simp]
theorem inBackground_eq_value {outcome : Outcome α} {result : α} :
    outcome.inBackground = .value result ↔ outcome = .value result := by
  cases outcome <;> simp [inBackground]

end Outcome

end KeyCustody
