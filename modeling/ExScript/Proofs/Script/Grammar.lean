import ExScript.Statement.Parser
import Mathlib.Data.List.Forall2

/-!
# The grammar of statements

Which rows of statements are scripts, and which tree each of them has. The parser goes over the
statements once, with a stack of blocks that are open; the grammar here knows neither the stack nor
the order in which anything is read. It has two layers.

On its own a statement can stand for one thing only, its *mark*: a command, or something that opens,
divides or closes a block. Which one is a matter of its range, its name and its argument.

A row of statements is a block if it can be cut into commands, loops and choices, and these in turn
are rows with their marks in the right places.

## Main definitions

* `Mark` — what a statement stands for
* `Reads` — the mark of a statement
* `Derives` — the rows of statements that form a block, a loop, a choice or a piece of one
* `Stmt.marks` — the tree written out as a row again
-/

namespace ExScript

/-! ### What a policy accepts -/

/-- Whether something that is there or not is what is asked for. -/
def Demand.Allows (demand : Demand) (there : Prop) : Prop :=
  match demand with
  | .forbidden => ¬there
  | .optional => True
  | .required => there

/-- Whether a command with this policy may have the range and the argument. -/
structure Policy.Accepts (policy : Policy) (range : LineRange) (argument : List Char) : Prop where
  range : policy.range.Allows (range.addresses ≠ [])
  argument : policy.argument.Allows (argument ≠ [])

namespace Script

/-! ### Single statements -/

/-- What a statement stands for, whatever stands around it. -/
inductive Mark where
  | plain (s : Stmt)
  | openWhile (condition : Condition)
  | openFor (name : String) (items : Expression)
  | openIf (condition : Condition)
  | elseIf (condition : Condition)
  | elseMark
  | endIf
  | endLoop (kind : LoopKind)

/-- The range, the name and the argument that a statement is made of. -/
structure HasParts (statement : List Char) (range : LineRange) (name argument : List Char) :
    Prop where
  range : (LineRange.parse statement).1 = range
  name : (Keyword.splitName (LineRange.parse statement).2).1 = name
  argument : (Keyword.splitName (LineRange.parse statement).2).2 = argument

/-- A statement of the commands with blocks: it has no range, and the name stands for the
keyword. -/
def HasKeyword (statement : List Char) (keyword : Keyword) (argument : List Char) : Prop :=
  ∃ range name, HasParts statement range name argument ∧ range.addresses = [] ∧
    Keyword.named? name = some keyword

/-- The form of the argument of a `:for`: a word, blanks, `in`, and behind another blank the
source of the items. -/
def IsForArgument (argument name source : List Char) : Prop :=
  name ≠ [] ∧ (∀ c ∈ name, isBlank c = false) ∧ Text.startsBlank source ∧
    ∃ gap, gap ≠ [] ∧ (∀ c ∈ gap, isBlank c) ∧
      argument = name ++ (gap ++ ('i' :: 'n' :: source))

/-- The mark of a statement. -/
inductive Reads : List Char → Mark → Prop where
  | simple {statement range name argument keyword command} :
    HasParts statement range name argument → Keyword.named? name = some keyword →
      Command.ofKeyword? keyword range (String.ofList argument) = some command →
      command.policy.Accepts range argument → Reads statement (.plain (.simple command))
  | unknown {statement range name argument} :
    HasParts statement range name argument → name ≠ [] → Keyword.named? name = none →
      Command.unknownPolicy.Accepts range argument →
      Reads statement (.plain (.unknown range (String.ofList name) (String.ofList argument)))
  | openWhile {statement argument condition} :
    HasKeyword statement .whileLoop argument →
      Expression.parse (String.ofList argument) = .ok condition →
      Reads statement (.openWhile (.expression condition))
  | openFor {statement argument name source items} :
    HasKeyword statement .forLoop argument → IsForArgument argument name source →
      Expression.parse (String.ofList source) = .ok items →
      Reads statement (.openFor (String.ofList name) items)
  | openIf {statement argument condition} :
    HasKeyword statement .ifBranch argument →
      Expression.parse (String.ofList argument) = .ok condition →
      Reads statement (.openIf (.expression condition))
  | elseIf {statement argument condition} :
    HasKeyword statement .elseIfBranch argument →
      Expression.parse (String.ofList argument) = .ok condition →
      Reads statement (.elseIf (.expression condition))
  | elseMark {statement argument} :
    HasKeyword statement .elseBranch argument → Reads statement .elseMark
  | endIf {statement argument} : HasKeyword statement .endIf argument → Reads statement .endIf
  | endWhile {statement argument} :
    HasKeyword statement .endWhile argument → Reads statement (.endLoop .whileLoop)
  | endFor {statement argument} :
    HasKeyword statement .endFor argument → Reads statement (.endLoop .forLoop)

/-! ### Rows of statements -/

/-- The parts of a script: the kinds of rows that the grammar knows, with the trees of the rows. -/
inductive Part where
  | block (body : List Stmt)
  | statement (s : Stmt)
  /-- The branches of a choice behind the first one. -/
  | branches (rest : Branches)
  /-- The body behind an `:else`, if there is one. -/
  | otherwise (body : Option (List Stmt))

/-- `Derives part row`: the row of statements is a part of this kind, and this is its tree. -/
inductive Derives : Part → List (List Char) → Prop where
  | nil : Derives (.block []) []
  | cons {x xs row rows} :
    Derives (.statement x) row → Derives (.block xs) rows →
      Derives (.block (x :: xs)) (row ++ rows)
  | plain {first s} : Reads first (.plain s) → Derives (.statement s) [first]
  | whileLoop {first last condition body row} :
    Reads first (.openWhile (.expression condition)) → Derives (.block body) row →
      Reads last (.endLoop .whileLoop) →
      Derives (.statement (.whileLoop (.expression condition) body)) (first :: row ++ [last])
  | forLoop {first last name items body row} :
    Reads first (.openFor name items) → Derives (.block body) row →
      Reads last (.endLoop .forLoop) →
      Derives (.statement (.forLoop name items body)) (first :: row ++ [last])
  | choose {first last condition body rest otherwise row branchRows elseRow} :
    Reads first (.openIf (.expression condition)) → Derives (.block body) row →
      Derives (.branches rest) branchRows → Derives (.otherwise otherwise) elseRow →
      Reads last .endIf →
      Derives (.statement (choose ((condition, body) :: rest) otherwise))
        (first :: row ++ branchRows ++ elseRow ++ [last])
  | noBranch : Derives (.branches []) []
  | branch {first condition body rest row rows} :
    Reads first (.elseIf (.expression condition)) → Derives (.block body) row →
      Derives (.branches rest) rows →
      Derives (.branches ((condition, body) :: rest)) (first :: row ++ rows)
  | noElse : Derives (.otherwise none) []
  | elseBody {first body row} :
    Reads first .elseMark → Derives (.block body) row →
      Derives (.otherwise (some body)) (first :: row)

end Script

/-! ### Trees written out -/

open Script in
mutual

/-- The marks of a statement in the order in which they are written, those that close blocks
included. -/
def Stmt.marks : Stmt → List Mark
  | .simple command => [.plain (.simple command)]
  | .unknown range name argument => [.plain (.unknown range name argument)]
  | .whileLoop condition body => .openWhile condition :: marksOfAll body ++ [.endLoop .whileLoop]
  | .forLoop name items body => .openFor name items :: marksOfAll body ++ [.endLoop .forLoop]
  | .choose [] otherwise => marksOfElse otherwise ++ [.endIf]
  | .choose ((condition, body) :: rest) otherwise =>
    .openIf condition :: marksOfAll body ++ marksOfBranches rest ++ marksOfElse otherwise ++
      [.endIf]
  | .block body => marksOfAll body
  | .hook h => [.plain (.hook h)]

/-- The marks of a sequence. -/
def Stmt.marksOfAll : List Stmt → List Mark
  | [] => []
  | x :: xs => x.marks ++ marksOfAll xs

/-- The marks of the branches of a choice behind the first one. -/
def Stmt.marksOfBranches : List (Condition × List Stmt) → List Mark
  | [] => []
  | (condition, body) :: rest => .elseIf condition :: marksOfAll body ++ marksOfBranches rest

/-- The marks of what stands behind the branches. -/
def Stmt.marksOfElse : Option (List Stmt) → List Mark
  | none => []
  | some body => .elseMark :: marksOfAll body

end

namespace Script

/-- The marks of a part. -/
def Part.marks : Part → List Mark
  | block body => Stmt.marksOfAll body
  | statement s => s.marks
  | branches rest => Stmt.marksOfBranches (rest.map fun branch => (.expression branch.1, branch.2))
  | otherwise body => Stmt.marksOfElse body

/-- **A row is its tree written out**: the statements of the row have the marks of the tree, each
statement one mark and in this order. -/
theorem Derives.marks {part : Part} {row : List (List Char)} (h : Derives part row) :
    List.Forall₂ Reads row part.marks := by
  induction h with
  | nil => exact .nil
  | cons _ _ first rest => exact List.rel_append first rest
  | plain first =>
    cases first with
    | simple parts keyword command accepts =>
      exact .cons (.simple parts keyword command accepts) .nil
    | unknown parts nonempty keyword accepts =>
      exact .cons (.unknown parts nonempty keyword accepts) .nil
  | whileLoop first _ last body => exact .cons first (List.rel_append body (.cons last .nil))
  | forLoop first _ last body => exact .cons first (List.rel_append body (.cons last .nil))
  | choose first _ _ _ last body branches otherwise =>
    have upTo := List.rel_append (List.rel_append body branches) otherwise
    exact .cons first (List.rel_append upTo (.cons last .nil))
  | noBranch => exact .nil
  | branch first _ _ body rest => exact .cons first (List.rel_append body rest)
  | noElse => exact .nil
  | elseBody first _ body => exact .cons first body

/-- A mark of a tree is read from one of the statements of its row. -/
theorem Derives.exists_reads {part : Part} {row : List (List Char)} (h : Derives part row)
    {mark : Mark} (hmark : mark ∈ part.marks) : ∃ statement ∈ row, Reads statement mark := by
  have hmarks := h.marks
  generalize part.marks = marks at hmarks hmark
  clear h
  induction hmarks with
  | nil => cases hmark
  | @cons statement _ _ _ hreads _ ih =>
    rcases List.mem_cons.mp hmark with rfl | hmark
    · exact ⟨statement, List.mem_cons_self, hreads⟩
    · obtain ⟨other, hother, hreads⟩ := ih hmark
      exact ⟨other, List.mem_cons_of_mem _ hother, hreads⟩

end Script

end ExScript
