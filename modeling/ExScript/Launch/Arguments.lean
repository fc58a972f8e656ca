/-!
# Command-line arguments

What the program is asked to do: which init file to run first, which scripts and commands to run
after it, and which file to edit. A value is glued to its option or comes as the next argument,
whatever that looks like; two hyphens end the options.

An option is a hyphen and one letter, and the letter is the byte behind the hyphen. Where that byte
is only a part of a character there is no letter to look at, and reading the arguments is given up.
-/

namespace ExScript

/-- Which init file is run. -/
inductive InitFile where
  /-- The first of the usual places that has one. -/
  | search
  | skip
  | explicit (path : String)
  deriving DecidableEq, Repr

/-- What the program is asked to do. -/
structure Arguments where
  init : InitFile := .search
  commands : List String := []
  scripts : List String := []
  debug : Bool := false
  file : Option String := none
  deriving DecidableEq, Repr

/-- Why arguments are refused. -/
inductive ArgumentError where
  | missingValue (option : Char)
  | unknownOption (argument : String)
  | tooManyFiles (count : Nat)
  /-- The byte behind the hyphen is no character. The program does not refuse such an argument; it
  crashes. -/
  | brokenOption (argument : String)
  deriving DecidableEq, Repr

namespace ArgumentError

/-- What the user is shown. -/
def message : ArgumentError → String
  | missingValue option => "-" ++ String.singleton option ++ " requires an argument"
  | unknownOption argument => "unknown option: " ++ argument
  | tooManyFiles count => "too many file arguments (" ++ toString count ++ ")"
  | brokenOption argument => "not an option: " ++ argument

end ArgumentError

namespace Arguments

/-- How the program is called. -/
def usage : String :=
  "Usage: vex [-u <init>|NONE] [-c <cmd>]... [-S <script>]... [-d] [--] [<file>]"

/-- What one argument is. -/
inductive Item where
  | endOfOptions
  | file
  | option (letter : Char) (glued : List Char)
  | broken
  deriving DecidableEq, Repr

/-- What an argument is. A lone hyphen is a file. -/
def classify : List Char → Item
  | ['-'] => .file
  | ['-', '-'] => .endOfOptions
  | '-' :: letter :: glued => if letter.utf8Size = 1 then .option letter glued else .broken
  | _ => .file

/-- What an option does with its value. -/
def addValue (args : Arguments) (letter : Char) (value : String) : Option Arguments :=
  match letter with
  | 'c' => some { args with commands := args.commands ++ [value] }
  | 'S' => some { args with scripts := args.scripts ++ [value] }
  | 'u' => some { args with init := if value = "NONE" then .skip else .explicit value }
  | _ => none

/-- Whether an option has a value. -/
def takesValue (letter : Char) : Bool :=
  letter == 'c' || letter == 'S' || letter == 'u'

/-- Reads arguments behind those that were read before, with the files that were named so far. -/
def readAll (args : Arguments) (files : List String) :
    List String → Except ArgumentError (Arguments × List String)
  | [] => .ok (args, files)
  | argument :: rest =>
    match classify argument.toList with
    | .endOfOptions => .ok (args, files ++ rest)
    | .file => readAll args (files ++ [argument]) rest
    | .broken => .error (.brokenOption argument)
    | .option letter glued =>
      if takesValue letter then
        match glued, rest with
        | [], [] => .error (.missingValue letter)
        | [], value :: rest => readAll ((args.addValue letter value).getD args) files rest
        | _ :: _, rest =>
          readAll ((args.addValue letter (String.ofList glued)).getD args) files rest
      else if letter = 'd' ∧ glued = [] then readAll { args with debug := true } files rest
      else .error (.unknownOption argument)

/-- What the program is asked to do. At most one file can be edited. -/
def parse (argv : List String) : Except ArgumentError Arguments :=
  match readAll {} [] argv with
  | .error e => .error e
  | .ok (args, []) => .ok args
  | .ok (args, [file]) => .ok { args with file := some file }
  | .ok (_, files) => .error (.tooManyFiles files.length)

end Arguments

end ExScript
