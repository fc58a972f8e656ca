import ExScript.Run.Statement
import ExScript.Statement.Parser

/-!
# Expanding user commands

What a command does whose name is not known. If the name cannot be called the command is an error.
Otherwise the user command is expanded: a handler is called, or the replacement text is read and
run where the command stands.

How deep expansions may be nested is bounded by a budget. A user command whose whole text is another
command with an unknown name hands over to that one; what such a chain comes to is the outcome of
the command, so an error in it is an error of the command. A text that is anything else is run for
its effects: an error in it is shown and the command has finished all the same. Only running out of
budget is never taken in, so that it ends the whole expansion.

The recursion is on the budget and on nothing else, although replacement texts are of any size and
user commands may define each other while they run. The budget that statements are run with is also
a part of the session, so that handlers can ask for it.

## Main definitions

* `Registry.expansion` — what a use of a user command is expanded to
* `expand` — what a command with an unknown name does, within a budget
* `Native.perform` — what a native handler does
-/

namespace ExScript

/-- Does what a native handler asks for, given how statements are run. -/
def Native.perform (exec : Stmt → Run) : Native → Machine → Option Unit × Machine
  | .done, m => (some (), m)
  | .report text next, m =>
    next.perform exec { m with session := m.session.tell (.report text) }
  | .reportError cause next, m =>
    next.perform exec { m with session := m.session.tell (.error cause) }
  | .setVariable name v next, m =>
    next.perform exec
      { m with session := { m.session with vars := m.session.vars.set name v } }
  | .askBudget next, m => (next m.session.budget).perform exec m
  | .run text next, m =>
    match Script.parseCommand? text with
    | none => (next none).perform exec m
    | some stmt =>
      match exec stmt m with
      | (none, m) => (none, m)
      | (some outcome, m) => (next (some outcome)).perform exec m

/-- A command as it is shown in errors: the name, and the argument if there is one. -/
def commandLine (name argument : String) : String :=
  let argument := trimmed argument
  if argument.isEmpty then name else name ++ " " ++ argument

/-- What the body of a user command comes to: an error in it is shown and taken in, unless the
budget ran out. -/
def absorb (outcome : Outcome) (s : Session) : Outcome × Session :=
  match outcome with
  | .failed .expansionTooDeep => (.failed .expansionTooDeep, s)
  | .failed e => (.finished, s.tell (.error e))
  | _ => (.finished, s)

/-- Runs the body of a user command within a budget. -/
def runBody (budget : Nat) (body : Run) : Run := fun m =>
  match Run.withBudget budget body m with
  | (none, m) => (none, m)
  | (some outcome, m) => Run.ofSession (absorb outcome) m

/-- Runs a native handler, which always finishes. -/
def Native.exec (exec : Stmt → Run) (handler : Native) : Run := fun m =>
  match handler.perform exec m with
  | (none, m) => (none, m)
  | (some (), m) => (some .finished, m)

/-- Calls a native handler within a budget. -/
def runNative (budget : Nat) (exec : Stmt → Run) (handler : Native) : Run :=
  Run.withBudget budget (handler.exec exec)

/-- What a use of a user command is expanded to. -/
inductive Expansion where
  /-- A handler is called; this is what it asks for. -/
  | handler (n : Native)
  /-- The replacement text is another command with an unknown name. -/
  | command (name argument : String)
  /-- The replacement text is anything else. -/
  | body (s : Stmt)

/-- What a use of a name is expanded to. -/
def Registry.expansion (registry : Registry) (name argument : String) : Except Error Expansion :=
  match registry.goal name argument with
  | .error e => .error e
  | .ok (.native handler arguments) => .ok (.handler (handler arguments))
  | .ok (.script text) =>
    if (Text.trim text.toList).isEmpty then .error (.notACommand name)
    else
      match Script.parseCommand? text with
      | none => .error (.notACommand text)
      | some (.unknown _ next argument) => .ok (.command next argument)
      | some stmt => .ok (.body stmt)

/-- What a command with an unknown name does if `budget` expansions may still be nested in each
other. -/
def expand : Nat → Caller
  | budget, name, argument, scope, m =>
    if !m.session.commands.isCallable name then
      (some (.failed (.notACommand (commandLine name argument))), m)
    else
      match budget with
      | 0 => (some (.failed .expansionTooDeep), { m with session := m.session.tell .bell })
      | budget + 1 =>
        match m.session.commands.expansion name argument with
        | .error e => (some (.failed e), m)
        | .ok (.handler n) => runNative budget (fun stmt => stmt.exec (expand budget) .root) n m
        | .ok (.command next argument) => expand budget next argument scope m
        | .ok (.body stmt) => runBody budget (stmt.exec (expand budget) scope) m

end ExScript
