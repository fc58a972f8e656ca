import ExScript.Buffer
import ExScript.Message
import ExScript.Statement.Basic
import ExScript.UserCommand.Basic
import ExScript.Variables

/-!
# Sessions

Everything that statements can look at and change, as a value: the buffer, the user commands, the
variables, the files, what the user was told, and how many more times a user command may be
expanded inside another.

A machine is a session together with *fuel*. Each pass through a `:while` burns one unit of fuel
and nothing else does. When the fuel is used up a run stops short, with no outcome; a run that has
an outcome was not affected by how much fuel was left.
-/

namespace ExScript

/-- How many expansions of user commands may be nested in each other. -/
def maxExpansions : Nat := 100

/-- Everything that statements can look at and change. -/
structure Session where
  buffer : Buffer := {}
  /-- Whether quitting was asked for. -/
  quitRequested : Bool := false
  commands : Registry := .empty
  vars : Variables := .empty
  files : FileTree := .empty
  /-- What the user was told, first things first. -/
  log : Array Event := #[]
  /-- How often each hook was run, by its key. -/
  tallies : Table Nat := ∅
  /-- How many expansions of user commands the statement that is run now may still begin. -/
  budget : Nat := maxExpansions
  deriving Inhabited

namespace Session

/-- The session after the user was told something. -/
def tell (s : Session) (e : Event) : Session :=
  { s with log := s.log.push e }

/-- What the user was told, first things first. -/
def events (s : Session) : List Event :=
  s.log.toList

@[simp] theorem events_tell (s : Session) (e : Event) : (s.tell e).events = s.events ++ [e] := by
  simp [tell, events]

/-- The session with a new buffer, in which nobody has asked to quit. -/
def edit (s : Session) (buffer : Buffer) : Session :=
  { s with buffer, quitRequested := false }

/-- How often the hook with a key was run. -/
def tally (s : Session) (key : String) : Nat :=
  (s.tallies.get? key).getD 0

end Session

/-- A session and the passes through `:while` that may still be made. -/
structure Machine where
  fuel : Nat
  session : Session
  deriving Inhabited

/-- What running something does: how it ends, unless the fuel is used up before, and the machine
it leaves. -/
abbrev Run := Machine → Option Outcome × Machine

namespace Run

/-- Ends at once. -/
def done (outcome : Outcome) : Run := fun m => (some outcome, m)

/-- A run that a function of the session describes. -/
def ofSession (f : Session → Outcome × Session) : Run := fun m =>
  (some (f m.session).1, { m with session := (f m.session).2 })

/-- One run and, if it finishes, another one behind it. -/
def andThen (first next : Run) : Run := fun m =>
  match first m with
  | (some .finished, m) => next m
  | r => r

/-- A run in which `budget` expansions are allowed. What was allowed before is allowed again
behind it. -/
def withBudget (budget : Nat) (run : Run) : Run := fun m =>
  let before := m.session.budget
  let r := run { m with session := { m.session with budget } }
  (r.1, { r.2 with session := { r.2.session with budget := before } })

end Run

end ExScript
