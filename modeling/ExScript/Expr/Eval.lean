import ExScript.Expr.Parser
import ExScript.Pattern.Parser
import ExScript.Variables

/-!
# Evaluation of expressions

Operands are evaluated from left to right and the first error is the result. `&&` and `||` do not
evaluate their right operand if the left one decides; everything else evaluates all of its parts
before it looks at them, so an unknown function complains only once its arguments have values.
-/

namespace ExScript

/-! ### Functions -/

/-- The functions that an expression can call. -/
inductive Function where
  | len
  | range
  | string
  | defined
  deriving DecidableEq, Repr

namespace Function

/-- The function that a name stands for. -/
def named? : String → Option Function
  | "len" => some .len
  | "range" => some .range
  | "string" => some .string
  | "exists" => some .defined
  | _ => none

/-- The name of a function. -/
def name : Function → String
  | len => "len"
  | range => "range"
  | string => "string"
  | defined => "exists"

/-- The longest list of consecutive numbers. -/
def maxRange : Int := 1000000

/-- The list of the numbers from `first` to `last`. -/
def consecutive (first last : Int64) : Except Error Value :=
  let length := last.toInt - first.toInt + 1
  if length > maxRange then .error (.rangeTooLong length)
  else
    .ok <| .list <| (List.range length.toNat).map fun i : Nat =>
      Value.number (Int64.ofInt (first.toInt + i))

/-- The number before `n`, if there is one. -/
def pred (n : Int64) : Int64 :=
  if n = Int64.minValue then n else n - 1

/-- The value of a function: the length of a list or of a displayed value, the numbers below a
limit or between two limits, the written form of a value, and whether a variable has a value. -/
def apply (vars : Variables) : Function → List Value → Except Error Value
  | len, [.list items] => .ok (.number (Int64.ofNat items.length))
  | len, [v] => .ok (.number (Int64.ofNat v.display.length))
  | range, [n] => consecutive 0 (pred n.toInt64)
  | range, [a, b] => consecutive a.toInt64 b.toInt64
  | string, [v] => .ok (.text v.written)
  | defined, [v] => .ok (.ofBool (vars.contains v.display))
  | f, [] => .error (.notEnoughArguments f.name)
  | f, _ => .error (.tooManyArguments f.name)

/-- The value of a call. -/
def call (vars : Variables) (name : String) (arguments : List Value) : Except Error Value :=
  match named? name with
  | some f => f.apply vars arguments
  | none => .error (.unknownFunction (name ++ "()"))

end Function

/-! ### Operators -/

/-- Whether the pattern that is the displayed form of `p` matches in the displayed form of
`v`. -/
def Value.isMatch (v p : Value) : Except Error Bool :=
  match Pattern.parse? p.display.toList with
  | some pattern => .ok (pattern.isMatch v.display.toList)
  | none => .error (.invalidPattern p.display)

/-- The value of a unary operator. -/
def UnaryOp.apply : UnaryOp → Value → Value
  | neg, v => v.neg
  | not, v => .ofBool !v.toBool

/-- The value of a binary operator whose operands have values. -/
def BinaryOp.apply (op : BinaryOp) (a b : Value) : Except Error Value :=
  match op with
  | add => .ok (a.add b)
  | sub => .ok (a.sub b)
  | mul => .ok (a.mul b)
  | div => a.div b
  | rem => a.rem b
  | concat => .ok (a.concat b)
  | eq => .ok (.ofBool (a.order b == .eq))
  | ne => .ok (.ofBool (a.order b != .eq))
  | lt => .ok (.ofBool (a.order b == .lt))
  | le => .ok (.ofBool (a.order b != .gt))
  | gt => .ok (.ofBool (a.order b == .gt))
  | ge => .ok (.ofBool (a.order b != .lt))
  | matching => (a.isMatch b).map .ofBool
  | notMatching => (a.isMatch b).map fun found => .ofBool !found
  | and => .ok (.ofBool (a.toBool && b.toBool))
  | or => .ok (.ofBool (a.toBool || b.toBool))

/-! ### Expressions -/

namespace Expr

mutual

/-- The value of an expression. -/
def eval (vars : Variables) : Expr → Except Error Value
  | number n => .ok (.number n)
  | text s => .ok (.text s)
  | var name =>
    match vars.get? name with
    | some v => .ok v
    | none => .error (.undefinedVariable name)
  | list items =>
    match evalItems vars items with
    | .ok values => .ok (.list values)
    | .error e => .error e
  | unary op operand =>
    match operand.eval vars with
    | .ok v => .ok (op.apply v)
    | .error e => .error e
  | binary op left right =>
    match left.eval vars with
    | .error e => .error e
    | .ok a =>
      if op = .and ∧ a.toBool = false then .ok (.ofBool false)
      else if op = .or ∧ a.toBool = true then .ok (.ofBool true)
      else
        match right.eval vars with
        | .error e => .error e
        | .ok b => op.apply a b
  | call name arguments =>
    match evalItems vars arguments with
    | .ok values => Function.call vars name values
    | .error e => .error e

/-- The values of several expressions. -/
def evalItems (vars : Variables) : List Expr → Except Error (List Value)
  | [] => .ok []
  | e :: rest =>
    match e.eval vars with
    | .error err => .error err
    | .ok v =>
      match evalItems vars rest with
      | .error err => .error err
      | .ok values => .ok (v :: values)

end

end Expr

/-- The value of an expression. -/
def Expression.eval (e : Expression) (vars : Variables) : Except Error Value :=
  e.body.eval vars

end ExScript
