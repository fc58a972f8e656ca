import ExScript.Expr.Parser
import ExScript.Statement.Basic
import ExScript.Statement.Line

/-!
# Reading scripts

The statements of a script come in a row; their structure is in the commands that open, divide and
close blocks. Each statement is looked at once, from first to last. What is open at that point is a
stack of frames, each with the statements that the block outside of it holds so far; a statement is
put into the innermost block, opens a block in it, or closes it.

The first statement that does not fit makes the script an error, and so does a block that is still
open at the end.
-/

namespace ExScript

namespace Script

/-! ### One statement -/

/-- The commands that divide or close a block. -/
inductive Divider where
  | elseIfBranch (argument : List Char)
  | elseBranch
  | endIf
  | endLoop (kind : LoopKind)
  deriving DecidableEq, Repr

/-- What is wrong with a divider that stands where no block of its kind is open. -/
def Divider.stray : Divider → Error
  | elseIfBranch _ => .elseifWithoutIf
  | elseBranch => .elseWithoutIf
  | endIf => .endifWithoutIf
  | endLoop kind => .endWithoutStart kind

/-- What a statement is on its own, before its block is known. -/
inductive Line where
  | plain (s : Stmt)
  | openWhile (condition : Expression)
  | openFor (name : String) (items : Expression)
  | openIf (condition : Expression)
  | divider (d : Divider)

/-- The divider of a keyword, if it is one. -/
def divider? (keyword : Keyword) (argument : List Char) : Option Divider :=
  match keyword with
  | .elseIfBranch => some (.elseIfBranch argument)
  | .elseBranch => some .elseBranch
  | .endIf => some .endIf
  | .endWhile => some (.endLoop .whileLoop)
  | .endFor => some (.endLoop .forLoop)
  | _ => none

/-- The variable and the items of a `:for`. Its argument is a word, `in`, a blank and an
expression. -/
def readFor (argument : List Char) : Except Error (String × Expression) :=
  let (name, rest) := Text.word argument
  match name, Text.trimStart rest with
  | _ :: _, 'i' :: 'n' :: items =>
    if Text.startsBlank items then
      (Expression.parse (String.ofList items)).map fun e => (String.ofList name, e)
    else .error .missingIn
  | _, _ => .error .missingIn

/-- The simple command of a keyword, if its policy allows the range and the argument. -/
def readSimple (keyword : Keyword) (range : LineRange) (argument : List Char) :
    Option (Except Error Line) :=
  (Command.ofKeyword? keyword range (String.ofList argument)).map fun command =>
    (command.policy.check range argument).map fun _ => .plain (.simple command)

/-- A statement with a keyword. A block cannot be opened with a range, and a divider with a range
is one that stands at no block. -/
def readKeyword (keyword : Keyword) (range : LineRange) (argument : List Char) :
    Except Error Line :=
  match readSimple keyword range argument, divider? keyword argument with
  | some line, _ => line
  | none, some d => if range.isEmpty then .ok (.divider d) else .error d.stray
  | none, none =>
    if !range.isEmpty then .error .rangeNotAllowed
    else
      match keyword with
      | .forLoop => (readFor argument).map fun loop => .openFor loop.1 loop.2
      | .whileLoop => (Expression.parse (String.ofList argument)).map .openWhile
      | _ => (Expression.parse (String.ofList argument)).map .openIf

/-- What a statement is on its own. -/
def readLine (statement : List Char) : Except Error Line :=
  let (range, rest) := LineRange.parse statement
  let (name, argument) := Keyword.splitName rest
  if name.isEmpty then .error (.notACommand (String.ofList statement))
  else
    match Keyword.named? name with
    | some keyword => readKeyword keyword range argument
    | none =>
      .ok (.plain (.unknown range (String.ofList name) (String.ofList argument)))

/-! ### Blocks -/

/-- The branches of a choice whose conditions are expressions. -/
abbrev Branches := List (Expression × List Stmt)

/-- A block that is open. -/
inductive Frame where
  | whileBody (condition : Expression)
  | forBody (name : String) (items : Expression)
  /-- A branch of an `:if`, behind the branches that were closed before it. -/
  | ifBody (closed : Branches) (condition : Expression)
  /-- The body behind an `:else`. -/
  | elseBody (closed : Branches)

/-- What is wrong if the script ends while a block is open. -/
def Frame.unclosed : Frame → Error
  | whileBody _ => .missingEnd .whileLoop
  | forBody _ _ => .missingEnd .forLoop
  | ifBody _ _ => .missingEndif
  | elseBody _ => .missingEndif

/-- The statement of a choice. -/
def choose (branches : Branches) (otherwise : Option (List Stmt)) : Stmt :=
  .choose (branches.map fun branch => (.expression branch.1, branch.2)) otherwise

/-- A script while it is read: the statements of the innermost block, and the blocks that are open
with the statements that stood before them; all latest first. -/
structure Draft where
  body : List Stmt := []
  outer : List (Frame × List Stmt) := []

namespace Draft

/-- The draft with another statement in its innermost block. -/
def push (draft : Draft) (s : Stmt) : Draft :=
  { draft with body := s :: draft.body }

/-- The draft with another block open. -/
def openBlock (draft : Draft) (frame : Frame) : Draft :=
  { outer := (frame, draft.body) :: draft.outer }

/-- The draft with its innermost block divided or closed. -/
def divide (draft : Draft) (d : Divider) : Except Error Draft :=
  let body := draft.body.reverse
  match draft.outer, d with
  | (.whileBody condition, before) :: outer, .endLoop .whileLoop =>
    .ok ⟨.whileLoop (.expression condition) body :: before, outer⟩
  | (.forBody name items, before) :: outer, .endLoop .forLoop =>
    .ok ⟨.forLoop name items body :: before, outer⟩
  | (.ifBody closed condition, before) :: outer, .elseIfBranch argument =>
    (Expression.parse (String.ofList argument)).map fun next =>
      { outer := (.ifBody (closed ++ [(condition, body)]) next, before) :: outer }
  | (.ifBody closed condition, before) :: outer, .elseBranch =>
    .ok { outer := (.elseBody (closed ++ [(condition, body)]), before) :: outer }
  | (.ifBody closed condition, before) :: outer, .endIf =>
    .ok ⟨choose (closed ++ [(condition, body)]) none :: before, outer⟩
  | (.elseBody closed, before) :: outer, .endIf =>
    .ok ⟨choose closed (some body) :: before, outer⟩
  | (.elseBody _, _) :: _, .elseBranch => .error .multipleElse
  | (.elseBody _, _) :: _, .elseIfBranch _ => .error .elseifAfterElse
  | _, d => .error d.stray

/-- The draft with a statement taken in. -/
def step (draft : Draft) (statement : List Char) : Except Error Draft :=
  match readLine statement with
  | .error e => .error e
  | .ok (.plain s) => .ok (draft.push s)
  | .ok (.openWhile condition) => .ok (draft.openBlock (.whileBody condition))
  | .ok (.openFor name items) => .ok (draft.openBlock (.forBody name items))
  | .ok (.openIf condition) => .ok (draft.openBlock (.ifBody [] condition))
  | .ok (.divider d) => draft.divide d

/-- The draft with statements taken in, one after the other. -/
def steps (draft : Draft) : List (List Char) → Except Error Draft
  | [] => .ok draft
  | statement :: rest =>
    match draft.step statement with
    | .error e => .error e
    | .ok draft => draft.steps rest

/-- The statements of the script, if no block is open. -/
def finish (draft : Draft) : Except Error (List Stmt) :=
  match draft.outer with
  | [] => .ok draft.body.reverse
  | (frame, _) :: _ => .error frame.unclosed

end Draft

/-- The tree of a row of statements. -/
def ofStatements (statements : List (List Char)) : Except Error (List Stmt) :=
  match ({ } : Draft).steps statements with
  | .error e => .error e
  | .ok draft => draft.finish

/-- The tree of a script. -/
def parse (text : String) : Except Error (List Stmt) :=
  ofStatements (statements text.toList)

/-- A script as a single statement, if it can be read and has any. -/
def parseCommand? (text : String) : Option Stmt :=
  match parse text with
  | .ok [s] => some s
  | .ok (s :: rest) => some (.block (s :: rest))
  | _ => none

end Script

end ExScript
