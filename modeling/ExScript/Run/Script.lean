import ExScript.Run.Expansion

/-!
# Running scripts

A script is run from the top: in the root scope, with the whole budget of expansions. This is where
an error ends up. It is shown once, with a bell, and is the result; a signal to leave a loop that
comes this far is dropped.
-/

namespace ExScript

namespace Machine

/-- Shows an error that ends a script. -/
def fail (m : Machine) (e : Error) : Machine :=
  { m with session := (m.session.tell (.error e)).tell .bell }

/-- Runs statements as a script. There is no result if the fuel is used up before the end. -/
def runStatements (m : Machine) (body : List Stmt) : Option (Except Error Unit) × Machine :=
  match Run.withBudget maxExpansions (Stmt.execAll (expand maxExpansions) body .root) m with
  | (none, m) => (none, m)
  | (some outcome, m) =>
    match outcome.toExcept with
    | .ok () => (some (.ok ()), m)
    | .error e => (some (.error e), m.fail e)

/-- Reads a script and runs it. -/
def runScript (m : Machine) (text : String) : Option (Except Error Unit) × Machine :=
  match Script.parse text with
  | .error e => (some (.error e), m.fail e)
  | .ok body => m.runStatements body

end Machine

end ExScript
