import ExScript.Expr.Eval
import ExScript.Run.Session
import ExScript.UserCommand.Definition
import ExScript.UserCommand.Listing

/-!
# Running simple commands

What each simple command does to a session. A command reads its argument first, so one that fails
has as a rule changed nothing; only `:unlet` goes through its names one by one and keeps what it has
done.
-/

namespace ExScript

namespace Command

/-- A leading `!` of an argument, and the rest of it, trimmed. -/
def splitBang (argument : String) : Bool × List Char :=
  match Text.trimStart argument.toList with
  | '!' :: rest => (true, Text.trim rest)
  | rest => (false, Text.trim rest)

/-! ### Variables -/

/-- How `:let` changes a variable. -/
inductive AssignOp where
  | set
  | add
  | sub
  | concat
  deriving DecidableEq, Repr

/-- The assignment sign at the front of a text, and what follows it. -/
def readAssignOp : List Char → Option (AssignOp × List Char)
  | '+' :: '=' :: rest => some (.add, rest)
  | '-' :: '=' :: rest => some (.sub, rest)
  | '.' :: '=' :: rest => some (.concat, rest)
  | '.' :: '.' :: '=' :: rest => some (.concat, rest)
  | '=' :: rest => some (.set, rest)
  | _ => none

/-- Whether a character can stand in the name that `:let` looks for. -/
def isTargetChar (c : Char) : Bool :=
  c.isAlphanum || c == '_' || c == ':'

/-- The variable of a `:let`, how it is changed, and the source of the expression. -/
def readAssignment (argument : String) : Except Error (String × AssignOp × String) :=
  let text := Text.trim argument.toList
  let name := text.takeWhile isTargetChar
  if Variables.isLegalName name then
    match readAssignOp (Text.trimStart (text.dropWhile isTargetChar)) with
    | some (op, source) => .ok (String.ofList name, op, String.ofList source)
    | none => .error (.invalidExpression (String.ofList text))
  else .error (.illegalVariableName (String.ofList text))

/-- The new value of a variable. All changes but plain assignment need an old one. -/
def AssignOp.newValue (op : AssignOp) (vars : Variables) (name : String) (v : Value) :
    Except Error Value :=
  match op, vars.get? name with
  | set, _ => .ok v
  | _, none => .error (.undefinedVariable name)
  | add, some old => .ok (old.add v)
  | sub, some old => .ok (old.sub v)
  | concat, some old => .ok (old.concat v)

/-- The variables after a `:let`. -/
def assignIn (vars : Variables) (argument : String) : Except Error Variables :=
  match readAssignment argument with
  | .error e => .error e
  | .ok (name, op, source) =>
    match Expression.parse source with
    | .error e => .error e
    | .ok e =>
      match e.eval vars with
      | .error e => .error e
      | .ok v => (op.newValue vars name v).map fun new => vars.set name new

/-- The variables without those of some names, up to the first name that cannot be taken away, and
what is wrong with that one. -/
def unassignIn (force : Bool) : Variables → List (List Char) → Option Error × Variables
  | vars, [] => (none, vars)
  | vars, name :: rest =>
    let s := String.ofList name
    if !Variables.isLegalName name then (some (.illegalVariableName s), vars)
    else if !vars.contains s && !force then (some (.noSuchVariable s), vars)
    else unassignIn force (vars.erase s) rest

/-! ### Files -/

/-- The session after the buffer was written to the path in an argument, or to its own file. -/
def writeBuffer (s : Session) (argument : String) : Except Error Session :=
  let path := (splitBang argument).2
  let target := if path.isEmpty then none else some (String.ofList path)
  match s.buffer.write s.files target with
  | .error e => .error e
  | .ok (_, buffer, files) => .ok { s with buffer, files }

/-- The session in which quitting was asked for. -/
def requestQuit (s : Session) : Session :=
  { s with quitRequested := true }

/-! ### All commands -/

/-- The displayed values of the expressions in an argument, with blanks between them. -/
def echoText (vars : Variables) (argument : String) : Except Error String :=
  match Expression.parseSequence argument with
  | .error e => .error e
  | .ok expressions =>
    (Expr.evalItems vars (expressions.map (·.body))).map fun values =>
      " ".intercalate (values.map Value.display)

/-- The session after a definition or a listing. -/
def runDefinition (s : Session) : Definition → Except Error Session
  | .list start => .ok ((s.commands.listing start).foldl (fun s row => s.tell (.report row)) s)
  | .define replace name arity text =>
    if !replace && s.commands.contains name then .error .userCommandExists
    else .ok { s with commands := s.commands.define name arity text }

/-- The session after the lines of a range were deleted. From an empty buffer nothing is. -/
def runDeleteLines (s : Session) (range : LineRange) : Except Error Session :=
  if s.buffer.lineCount = 0 then .ok s
  else
    match range.resolve s.buffer with
    | .error e => .error e
    | .ok (first, last) =>
      if first = 0 then .error .invalidRange
      else .ok { s with buffer := s.buffer.deleteLines first last }

/-- The session after a `:quit`, if no change would be lost or an `!` gives leave to. -/
def runQuit (s : Session) (argument : String) : Except Error Session :=
  match splitBang argument with
  | (force, []) =>
    if s.buffer.modified && !force then .error .unsavedChanges else .ok (requestQuit s)
  | (_, rest) => .error (.trailingCharacters (String.ofList rest))

/-- The session after an `:unlet`, and what went wrong. -/
def runUnassign (s : Session) (argument : String) : Outcome × Session :=
  match splitBang argument with
  | (_, []) => (.failed .argumentRequired, s)
  | (force, names) =>
    match unassignIn force s.vars (Text.words names) with
    | (none, vars) => (.finished, { s with vars })
    | (some e, vars) => (.failed e, { s with vars })

/-- The outcome of a command that either has its effect on a session or fails without any. -/
def attempt (s : Session) : Except Error Session → Outcome × Session
  | .ok s => (.finished, s)
  | .error e => (.failed e, s)

/-- Runs a simple command. -/
def run (scope : Scope) (s : Session) : Command → Outcome × Session
  | echo argument =>
    attempt s <| (echoText s.vars argument).map fun text => s.tell (.report text)
  | assign argument =>
    attempt s <| (assignIn s.vars argument).map fun vars => { s with vars }
  | unassign argument => runUnassign s argument
  | write argument => attempt s (writeBuffer s argument)
  | quit argument => attempt s (runQuit s argument)
  | writeQuit argument => attempt s ((writeBuffer s argument).map requestQuit)
  | exit argument =>
    attempt s <|
      if s.buffer.modified then (writeBuffer s argument).map requestQuit else .ok (requestQuit s)
  | defineCommand argument =>
    attempt s <|
      match Definition.parse argument with
      | .error e => .error e
      | .ok definition => runDefinition s definition
  | deleteCommand argument =>
    attempt s <| (s.commands.erase (trimmed argument)).map fun commands => { s with commands }
  | clearCommands => (.finished, { s with commands := .empty })
  | deleteLines range => attempt s (runDeleteLines s range)
  | breakLoop => (if scope.withinLoop then .leaveLoop else .failed .breakOutsideLoop, s)
  | continueLoop => (if scope.withinLoop then .nextPass else .failed .continueOutsideLoop, s)

end Command

end ExScript
