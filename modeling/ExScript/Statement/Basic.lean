import ExScript.Command.Basic
import ExScript.Expr.Basic
import ExScript.Outcome

/-!
# Statements

The tree of a script. A statement is a simple command, a command with a name that is not known, a
loop, a choice, or a sequence; and a program that embeds scripts can put statements and conditions
of its own into a tree, the *hooks*.

Statements hold no reference to what surrounds them. Where a statement stands is told to it when
it is run, as its scope.
-/

namespace ExScript

/-! ### Scopes -/

/-- What opens a scope. -/
inductive ScopeKind where
  | script
  | loop
  | conditional
  deriving DecidableEq, Repr

/-- Where a statement stands: what was opened around it inside the script, innermost first. -/
structure Scope where
  opened : List ScopeKind := []
  deriving DecidableEq, Repr

namespace Scope

/-- The scope of a script. -/
def root : Scope := {}

/-- The scope inside something that is opened in this one. -/
def enter (scope : Scope) (kind : ScopeKind) : Scope :=
  ⟨kind :: scope.opened⟩

/-- All that a statement stands in, from the innermost to the script. -/
def chain (scope : Scope) : List ScopeKind :=
  scope.opened ++ [.script]

/-- How many scopes stand around this one. -/
def depth (scope : Scope) : Nat :=
  scope.opened.length

/-- Whether some loop stands around. -/
def withinLoop (scope : Scope) : Bool :=
  scope.chain.contains .loop

@[simp] theorem withinLoop_root : root.withinLoop = false := rfl

@[simp] theorem withinLoop_enter_loop (scope : Scope) :
    (scope.enter .loop).withinLoop = true := by
  simp [withinLoop, enter, chain]

@[simp] theorem withinLoop_enter_conditional (scope : Scope) :
    (scope.enter .conditional).withinLoop = scope.withinLoop := by
  simp [withinLoop, enter, chain]

end Scope

/-! ### Hooks -/

/-- What a hook can see when it is run. -/
structure Sight where
  depth : Nat
  withinLoop : Bool
  /-- How many expansions of user commands are still allowed. -/
  budget : Nat
  /-- How often the hook was run before. -/
  count : Nat

/-- A statement or condition of the embedding program: it may show a message and gives a result.
How often it was run is counted under its key. -/
structure Hook (α : Type) where
  key : String
  react : Sight → Option String × α

/-! ### Statements -/

/-- What a loop or a choice asks. -/
inductive Condition where
  | expression (e : Expression)
  | hook (h : Hook (Except Error Bool))

/-- A statement of a script. -/
inductive Stmt where
  | simple (command : Command)
  /-- A command whose name is not known, and so perhaps a user command. -/
  | unknown (range : LineRange) (name argument : String)
  | whileLoop (condition : Condition) (body : List Stmt)
  /-- The body is run once for each item of a list, which the variable `name` then has. -/
  | forLoop (name : String) (items : Expression) (body : List Stmt)
  /-- The first branch whose condition holds is run, or else the body behind `:else`, if any. -/
  | choose (branches : List (Condition × List Stmt)) (otherwise : Option (List Stmt))
  | block (body : List Stmt)
  | hook (h : Hook Outcome)

/-- The empty block stands where any statement will do. -/
instance : Inhabited Stmt := ⟨.block []⟩

/-- The name and argument of a command with an unknown name. -/
def Stmt.unknown? : Stmt → Option (String × String)
  | unknown _ name argument => some (name, argument)
  | _ => none

end ExScript
