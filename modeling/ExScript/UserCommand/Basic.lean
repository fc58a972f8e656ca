import ExScript.Table
import ExScript.UserCommand.Native
import ExScript.UserCommand.Placeholder

/-!
# User commands

A user command gives a name to a replacement text, which is read as a script each time the command
is used, or to a native handler. Its arity says how many arguments it takes, as far as that is
checked: whether there may be none, and whether there may be any.

The registry holds the user commands of a session by their names. Only a name that starts with a
capital letter can be called, although the embedding program may register others.
-/

namespace ExScript

/-- How many arguments a user command takes; without a limit if `most` is missing. -/
structure Arity where
  least : Nat
  most : Option Nat
  deriving DecidableEq, Repr

/-- What a user command stands for. -/
inductive Replacement where
  | script (text : String)
  | native (handler : String → Native)

/-- A user command. -/
structure UserCommand where
  name : String
  arity : Arity
  replacement : Replacement

/-- What a use of a user command comes down to. -/
inductive Goal where
  /-- Run this script. -/
  | script (text : String)
  /-- Call the handler with these arguments. -/
  | native (handler : String → Native) (arguments : String)

/-- The declared number of arguments, as it is written in definitions and listings. -/
def Arity.notated : Arity → String
  | ⟨0, some 0⟩ => "0"
  | ⟨1, some 1⟩ => "1"
  | ⟨0, none⟩ => "*"
  | ⟨0, some 1⟩ => "?"
  | ⟨1, none⟩ => "+"
  | ⟨least, some most⟩ => toString least ++ ".." ++ toString most
  | ⟨least, none⟩ => toString least ++ ".."

/-- Whether arguments, already trimmed, are as the arity allows. -/
def Arity.check (arity : Arity) (arguments : String) : Except Error Unit :=
  if arguments.isEmpty ∧ arity.least > 0 then .error .argumentRequired
  else if ¬arguments.isEmpty ∧ arity.most = some 0 then .error (.trailingCharacters arguments)
  else .ok ()

namespace UserCommand

/-- A user command for a replacement text. -/
def ofScript (name : String) (arity : Arity) (text : String) : UserCommand :=
  ⟨name, arity, .script text⟩

/-- What a user command stands for, as it is shown in listings. -/
def definition (c : UserCommand) : String :=
  match c.replacement with
  | .script text => text
  | .native _ => "<native " ++ c.name ++ ">"

/-- What a use of a user command with some arguments comes down to. -/
def goal (c : UserCommand) (arguments : String) : Except Error Goal :=
  let arguments := trimmed arguments
  match c.arity.check arguments with
  | .error e => .error e
  | .ok () =>
    match c.replacement with
    | .script text => .ok (.script (Placeholder.substitute text arguments))
    | .native handler => .ok (.native handler arguments)

end UserCommand

/-- The user commands of a session, by the names they are registered under. -/
structure Registry where
  table : Table UserCommand
  deriving Inhabited

namespace Registry

/-- No user commands. -/
def empty : Registry := ⟨∅⟩

/-- Whether a name is registered. -/
def contains (registry : Registry) (name : String) : Bool :=
  registry.table.contains name

/-- The user command of a name. -/
def get? (registry : Registry) (name : String) : Option UserCommand :=
  registry.table.get? name

/-- Registers a user command under a name; what the name stood for is forgotten. -/
def insert (registry : Registry) (name : String) (c : UserCommand) : Registry :=
  ⟨registry.table.insert name c⟩

/-- Registers a replacement text under a name. -/
def define (registry : Registry) (name : String) (arity : Arity) (text : String) : Registry :=
  registry.insert name (.ofScript name arity text)

/-- Takes a user command away. -/
def erase (registry : Registry) (name : String) : Except Error Registry :=
  if registry.contains name then .ok ⟨registry.table.erase name⟩
  else .error (.noSuchUserCommand name)

/-- Whether a name can be called: it starts with a capital letter and is registered. -/
def isCallable (registry : Registry) (name : String) : Bool :=
  name.toList.head?.any isUppercase && registry.contains name

/-- What a use of a name comes down to. -/
def goal (registry : Registry) (name arguments : String) : Except Error Goal :=
  match registry.get? name with
  | some c => c.goal arguments
  | none => .error (.notACommand name)

end Registry

end ExScript
