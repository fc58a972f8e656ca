import ExScript.Value

/-!
# Expressions

The structure of an expression. Parentheses and the unary plus leave no trace in it.
-/

namespace ExScript

inductive UnaryOp where
  | neg
  | not
  deriving DecidableEq, Repr

inductive BinaryOp where
  | add
  | sub
  | mul
  | div
  | rem
  | concat
  | eq
  | ne
  | lt
  | le
  | gt
  | ge
  | matching
  | notMatching
  | and
  | or
  deriving DecidableEq, Repr

/-- The structure of an expression. -/
inductive Expr where
  | number (n : Int64)
  | text (s : String)
  | var (name : String)
  | list (items : List Expr)
  | unary (op : UnaryOp) (operand : Expr)
  | binary (op : BinaryOp) (left right : Expr)
  | call (name : String) (arguments : List Expr)
  deriving Repr

instance : Inhabited Expr := ⟨.number 0⟩

/-- An expression together with its source, as it is shown to the user. -/
structure Expression where
  source : String
  body : Expr
  deriving Repr, Inhabited

end ExScript
