import ExScript.Error

/-!
# Outcomes

How a statement ends. Besides success and failure there are two signals, which leave a loop or go
on with its next pass; the loop takes them in, so nothing outside of it sees them.
-/

namespace ExScript

/-- How a statement ends. -/
inductive Outcome where
  | finished
  /-- The innermost loop is to be left. -/
  | leaveLoop
  /-- The innermost loop is to go on with its next pass. -/
  | nextPass
  | failed (cause : Error)
  deriving DecidableEq, Repr

/-- What a loop does after a pass. -/
inductive LoopStep where
  | next
  | exit (outcome : Outcome)
  deriving DecidableEq, Repr

namespace Outcome

/-- Whether a statement succeeded. -/
def isFinished : Outcome → Bool
  | finished => true
  | _ => false

/-- Whether a statement failed. -/
def isFailed : Outcome → Bool
  | failed _ => true
  | _ => false

/-- What a loop does when a pass through its body ends so. -/
def inLoop : Outcome → LoopStep
  | finished => .next
  | nextPass => .next
  | leaveLoop => .exit finished
  | failed e => .exit (failed e)

/-- Only a failure counts as one; signals are dropped. -/
def toExcept : Outcome → Except Error Unit
  | failed e => .error e
  | _ => .ok ()

/-- The outcome of a command that either succeeds or fails. -/
def ofExcept : Except Error Unit → Outcome
  | .ok () => finished
  | .error e => failed e

end Outcome

end ExScript
