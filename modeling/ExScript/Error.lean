/-!
# Errors

What can go wrong when a script is read or run. An error is a cause; its wording, with the
number an editor shows in front of it, is said once, in `Error.message`.
-/

namespace ExScript

/-- Why a file cannot be read or written. -/
inductive FileError where
  | notFound
  | notADirectory
  | isADirectory
  | nameTooLong
  | notText
  | nulInName
  deriving DecidableEq, Repr

/-- The wording of the system for a file error. -/
def FileError.message : FileError → String
  | notFound => "No such file or directory (os error 2)"
  | notADirectory => "Not a directory (os error 20)"
  | isADirectory => "Is a directory (os error 21)"
  | nameTooLong => "File name too long (os error 36)"
  | notText => "stream did not contain valid UTF-8"
  | nulInName => "file name contained an unexpected NUL byte"

/-- The two kinds of loops. -/
inductive LoopKind where
  | whileLoop
  | forLoop
  deriving DecidableEq, Repr

namespace LoopKind

/-- The command that opens a loop. -/
def opener : LoopKind → String
  | whileLoop => "while"
  | forLoop => "for"

/-- The command that closes a loop. -/
def closer : LoopKind → String
  | whileLoop => "endwhile"
  | forLoop => "endfor"

end LoopKind

/-- Why a script cannot be read, or a statement cannot be run. -/
inductive Error where
  /-- The text names no command. -/
  | notACommand (text : String)
  /-- User commands call each other without end. -/
  | expansionTooDeep
  /-- The declared number of arguments of a user command is none of the five allowed ones. -/
  | invalidArgumentCount
  | userCommandNotUppercase
  | userCommandUnnamed
  | userCommandReserved
  | userCommandExists
  | noSuchUserCommand (name : String)
  | argumentRequired
  | trailingCharacters (text : String)
  | rangeNotAllowed
  | invalidRange
  | breakOutsideLoop
  | continueOutsideLoop
  /-- The script ends inside a loop. -/
  | missingEnd (loop : LoopKind)
  /-- The script ends inside an `:if`. -/
  | missingEndif
  /-- The end of a loop stands where no loop of its kind is open. -/
  | endWithoutStart (loop : LoopKind)
  | endifWithoutIf
  | elseWithoutIf
  | elseifWithoutIf
  | multipleElse
  | elseifAfterElse
  /-- A `:for` without `in`. -/
  | missingIn
  | invalidExpression (text : String)
  | undefinedVariable (name : String)
  | unknownFunction (name : String)
  | tooManyArguments (name : String)
  | notEnoughArguments (name : String)
  | listRequired
  /-- A list of consecutive numbers that would be longer than allowed. -/
  | rangeTooLong (length : Int)
  | noSuchVariable (name : String)
  | illegalVariableName (text : String)
  | invalidPattern (text : String)
  | divideByZero
  /-- The buffer was changed and not written since. -/
  | unsavedChanges
  | noFileName
  | file (cause : FileError)
  deriving DecidableEq, Repr

/-- What the user is shown. -/
def Error.message : Error → String
  | notACommand text => "E492: Not an editor command: " ++ text
  | expansionTooDeep => "Recursion detected, maximum alias depth reached"
  | invalidArgumentCount => "E176: Invalid number of arguments"
  | userCommandNotUppercase => "E183: User defined commands must start with an uppercase letter"
  | userCommandUnnamed => "E183: User defined command name is missing"
  | userCommandReserved => "E841: Reserved name, cannot be used for user defined command"
  | userCommandExists => "E174: Command already exists: add ! to replace it"
  | noSuchUserCommand name => "E184: No such user-defined command: " ++ name
  | argumentRequired => "E471: Argument required"
  | trailingCharacters text => "E488: Trailing characters: " ++ text
  | rangeNotAllowed => "E481: No range allowed"
  | invalidRange => "E16: Invalid range"
  | breakOutsideLoop => "E587: :break without :while or :for"
  | continueOutsideLoop => "E586: :continue without :while or :for"
  | missingEnd loop => "E170: Missing :" ++ loop.closer
  | missingEndif => "E171: Missing :endif"
  | endWithoutStart loop => "E588: :" ++ loop.closer ++ " without :" ++ loop.opener
  | endifWithoutIf => "E580: :endif without :if"
  | elseWithoutIf => "E581: :else without :if"
  | elseifWithoutIf => "E582: :elseif without :if"
  | multipleElse => "E583: multiple :else"
  | elseifAfterElse => "E584: :elseif after :else"
  | missingIn => "E690: Missing \"in\" after :for"
  | invalidExpression text => "E15: Invalid expression: \"" ++ text ++ "\""
  | undefinedVariable name => "E121: Undefined variable: " ++ name
  | unknownFunction name => "E117: Unknown function: " ++ name
  | tooManyArguments name => "E118: Too many arguments for function: " ++ name
  | notEnoughArguments name => "E119: Not enough arguments for function: " ++ name
  | listRequired => "E714: List required"
  | rangeTooLong length => "E342: Out of memory! (range() of " ++ toString length ++ " items)"
  | noSuchVariable name => "E108: No such variable: \"" ++ name ++ "\""
  | illegalVariableName text => "E461: Illegal variable name: " ++ text
  | invalidPattern text => "E383: Invalid search string: " ++ text
  | divideByZero => "E1154: Divide by zero"
  | unsavedChanges => "E37: No write since last change (add ! to override)"
  | noFileName => "E32: No file name"
  | file cause => "E212: Can't open file for writing: " ++ cause.message

end ExScript
