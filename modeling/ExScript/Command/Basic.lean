import ExScript.Command.Keyword
import ExScript.Command.Policy

/-!
# Simple commands

The commands that do one thing and hold no other statements. What stands behind the name is kept
as it was written and read when the command is run, so a script whose last command is malformed
still runs up to it.
-/

namespace ExScript

/-- A simple command. -/
inductive Command where
  /-- `:echo` shows the values of expressions. -/
  | echo (argument : String)
  /-- `:let` gives a variable a value. -/
  | assign (argument : String)
  /-- `:unlet` takes variables away. -/
  | unassign (argument : String)
  /-- `:write` writes the buffer to a file. -/
  | write (argument : String)
  /-- `:quit` asks to quit if nothing would be lost. -/
  | quit (argument : String)
  /-- `:wq` writes and quits. -/
  | writeQuit (argument : String)
  /-- `:xit` writes if there is need to, and quits. -/
  | exit (argument : String)
  /-- `:command` defines or lists user commands. -/
  | defineCommand (argument : String)
  /-- `:delcommand` takes a user command away. -/
  | deleteCommand (argument : String)
  /-- `:comclear` takes all user commands away. -/
  | clearCommands
  /-- `:delete` deletes the lines of its range. -/
  | deleteLines (range : LineRange)
  | breakLoop
  | continueLoop
  deriving DecidableEq, Repr

namespace Command

/-- The full name of a command. -/
def name : Command → String
  | echo _ => "echo"
  | assign _ => "let"
  | unassign _ => "unlet"
  | write _ => "write"
  | quit _ => "quit"
  | writeQuit _ => "wq"
  | exit _ => "xit"
  | defineCommand _ => "command"
  | deleteCommand _ => "delcommand"
  | clearCommands => "comclear"
  | deleteLines _ => "delete"
  | breakLoop => "break"
  | continueLoop => "continue"

/-- What a command accepts. -/
def policy : Command → Policy
  | echo _ => ⟨.forbidden, .optional, .readOnly⟩
  | assign _ => ⟨.forbidden, .required, .readOnly⟩
  | unassign _ => ⟨.forbidden, .required, .readOnly⟩
  | write _ => ⟨.forbidden, .optional, .readOnly⟩
  | quit _ => ⟨.forbidden, .optional, .readOnly⟩
  | writeQuit _ => ⟨.forbidden, .optional, .readOnly⟩
  | exit _ => ⟨.forbidden, .optional, .readOnly⟩
  | defineCommand _ => ⟨.forbidden, .optional, .readOnly⟩
  | deleteCommand _ => ⟨.forbidden, .required, .readOnly⟩
  | clearCommands => ⟨.forbidden, .forbidden, .readOnly⟩
  | deleteLines _ => ⟨.optional, .forbidden, .writeLock⟩
  | breakLoop => ⟨.forbidden, .forbidden, .readOnly⟩
  | continueLoop => ⟨.forbidden, .forbidden, .readOnly⟩

/-- What a command that is not known by name accepts. -/
def unknownPolicy : Policy :=
  ⟨.optional, .optional, .selfSynchronized⟩

/-- The simple command of a keyword, with its range and argument; a keyword of a block has
none. -/
def ofKeyword? (keyword : Keyword) (range : LineRange) (argument : String) : Option Command :=
  match keyword with
  | .echo => some (echo argument)
  | .assign => some (assign argument)
  | .unassign => some (unassign argument)
  | .write => some (write argument)
  | .quit => some (quit argument)
  | .writeQuit => some (writeQuit argument)
  | .exit => some (exit argument)
  | .defineCommand => some (defineCommand argument)
  | .deleteCommand => some (deleteCommand argument)
  | .clearCommands => some clearCommands
  | .deleteLines => some (deleteLines range)
  | .breakLoop => some breakLoop
  | .continueLoop => some continueLoop
  | .elseBranch => none
  | .elseIfBranch => none
  | .endWhile => none
  | .endFor => none
  | .endIf => none
  | .forLoop => none
  | .ifBranch => none
  | .whileLoop => none

/-- The simple command with a full name. -/
def named? (name : String) (range : LineRange) (argument : String) : Option Command :=
  match Keyword.table.find? fun entry => entry.1 == name with
  | some entry => ofKeyword? entry.2.2 range argument
  | none => none

end Command

end ExScript
