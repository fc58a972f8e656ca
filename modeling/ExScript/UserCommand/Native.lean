import ExScript.Outcome
import ExScript.Value

/-!
# Native handlers

A user command can be bound to code of the program that embeds scripts. Such code can do what it
likes with its own data; what it does to the session is said by a value of type `Native`, a tree of
requests. A request that has an answer goes on with a function of the answer.

The tree has no request that changes how many expansions are allowed: a handler can ask, not set.
-/

namespace ExScript

/-- What a native handler does to the session, step by step. -/
inductive Native where
  | done
  /-- Shows a message. -/
  | report (text : String) (next : Native)
  /-- Shows an error without failing. -/
  | reportError (cause : Error) (next : Native)
  | setVariable (name : String) (v : Value) (next : Native)
  /-- Asks how many expansions of user commands are still allowed. -/
  | askBudget (next : Nat → Native)
  /-- Runs a script as a statement of its own, outside of all loops. The answer is how it ended, or
  nothing if the text is no script. -/
  | run (text : String) (next : Option Outcome → Native)

end ExScript
