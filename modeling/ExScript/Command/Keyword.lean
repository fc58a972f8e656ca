import ExScript.Text.Blank
import ExScript.Text.Letter

/-!
# Names of commands

The commands that scripts know by name. Each name may be cut short, down to an abbreviation of its
own; where two names share an abbreviation the earlier one in the table has it. A name that starts
with a capital letter is never one of these: it is left to user commands.
-/

namespace ExScript

/-- The commands known by name. -/
inductive Keyword where
  | breakLoop
  | continueLoop
  | defineCommand
  | clearCommands
  | deleteCommand
  | deleteLines
  | echo
  | elseBranch
  | elseIfBranch
  | endWhile
  | endFor
  | endIf
  | forLoop
  | ifBranch
  | assign
  | unassign
  | quit
  | write
  | writeQuit
  | exit
  | whileLoop
  deriving DecidableEq, Repr

namespace Keyword

/-- The names of the commands and their shortest abbreviations. -/
def table : List (String × String × Keyword) :=
  [("break", "brea", .breakLoop),
   ("continue", "con", .continueLoop),
   ("command", "com", .defineCommand),
   ("comclear", "comc", .clearCommands),
   ("delcommand", "delc", .deleteCommand),
   ("delete", "d", .deleteLines),
   ("echo", "ec", .echo),
   ("else", "el", .elseBranch),
   ("elseif", "elsei", .elseIfBranch),
   ("endwhile", "endw", .endWhile),
   ("endfor", "endfo", .endFor),
   ("endif", "en", .endIf),
   ("for", "for", .forLoop),
   ("if", "if", .ifBranch),
   ("let", "let", .assign),
   ("unlet", "unl", .unassign),
   ("quit", "q", .quit),
   ("write", "w", .write),
   ("wq", "wq", .writeQuit),
   ("xit", "x", .exit),
   ("while", "wh", .whileLoop)]

/-- Whether a text starts with a capital letter. -/
def startsUppercase : List Char → Bool
  | [] => false
  | c :: _ => isUppercase c

/-- The command that a name, perhaps cut short, stands for. -/
def named? (name : List Char) : Option Keyword :=
  if name.isEmpty || startsUppercase name then none
  else
    (table.find? fun entry =>
      name.isPrefixOf entry.1.toList && entry.2.1.toList.isPrefixOf name).map (·.2.2)

/-- Whether a character can stand in the name of the command that a text begins with. A name is
made of letters of ASCII, and if it starts with a capital letter of digits too. -/
def isNameChar (text : List Char) (c : Char) : Bool :=
  c.isAlpha || (startsUppercase text && c.isDigit)

/-- The name of the command that a text begins with. -/
def nameOf (text : List Char) : List Char :=
  text.takeWhile (isNameChar text)

/-- The name of a command, and what follows it, trimmed. -/
def splitName (text : List Char) : List Char × List Char :=
  (nameOf text, Text.trim (text.dropWhile (isNameChar text)))

end Keyword

end ExScript
