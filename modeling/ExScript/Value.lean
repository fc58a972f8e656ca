import ExScript.Error
import ExScript.Numeral
import ExScript.Text.Blank
import ExScript.Text.Quoted

/-!
# Values

An expression evaluates to a number of 64 bits, a text, or a list of values. The three kinds
turn into each other freely: a text counts as the number it starts with, a list as its length,
and everything can be displayed. Arithmetic wraps around.

A text is displayed as it is, but *written* between single quotes; inside a list all values are
written, so that the displayed form of a list is an expression again.
-/

namespace ExScript

/-- What an expression evaluates to. -/
inductive Value where
  | number (n : Int64)
  | text (s : String)
  | list (items : List Value)
  deriving Repr

instance : Inhabited Value := ⟨.number 0⟩

namespace Value

/-! ### Equality -/

mutual

/-- Decides equality of values. -/
def decEq : (a b : Value) → Decidable (a = b)
  | number m, number n => decidable_of_iff (m = n) (by simp)
  | text s, text t => decidable_of_iff (s = t) (by simp)
  | list as, list bs =>
    match decEqItems as bs with
    | isTrue h => isTrue (h ▸ rfl)
    | isFalse h => isFalse fun he => h (list.inj he)
  | number _, text _ => isFalse (by simp)
  | number _, list _ => isFalse (by simp)
  | text _, number _ => isFalse (by simp)
  | text _, list _ => isFalse (by simp)
  | list _, number _ => isFalse (by simp)
  | list _, text _ => isFalse (by simp)

/-- Decides equality of lists of values. -/
def decEqItems : (as bs : List Value) → Decidable (as = bs)
  | [], [] => isTrue rfl
  | [], _ :: _ => isFalse (by simp)
  | _ :: _, [] => isFalse (by simp)
  | a :: as, b :: bs =>
    match decEq a b with
    | isFalse h => isFalse fun he => h (List.cons.inj he).1
    | isTrue h =>
      match decEqItems as bs with
      | isFalse h' => isFalse fun he => h' (List.cons.inj he).2
      | isTrue h' => isTrue (h ▸ h' ▸ rfl)

end

instance : DecidableEq Value := decEq

/-! ### The kinds and their coercions -/

/-- The name of the kind of a value. -/
def kindName : Value → String
  | number _ => "number"
  | text _ => "string"
  | list _ => "list"

/-- One for true and zero for false. -/
def ofBool (b : Bool) : Value :=
  number (if b then 1 else 0)

/-- The sign of a text, if it starts with one, and what follows it. True stands for minus. -/
def splitSign : List Char → Bool × List Char
  | '-' :: rest => (true, rest)
  | '+' :: rest => (false, rest)
  | rest => (false, rest)

/-- The number that a text starts with, after blanks and one sign; zero if there is none, or if
its digits denote a number that does not fit. -/
def leadingNumber (text : List Char) : Int64 :=
  let (negative, rest) := splitSign (Text.trimStart text)
  let n := Numeral.value (Numeral.digits rest).1
  if n ≤ Numeral.maxInt then Int64.ofInt (if negative then -n else n) else 0

/-- The number that a value counts as. -/
def toInt64 : Value → Int64
  | number n => n
  | text s => leadingNumber s.toList
  | list items => Int64.ofNat items.length

/-- Whether a value counts as true: a list if it has an item, all else if its number is not
zero. -/
def toBool : Value → Bool
  | list items => !items.isEmpty
  | v => v.toInt64 != 0

/-! ### Display -/

/-- A number in decimal. -/
def decimal (n : Int64) : String :=
  toString n.toInt

mutual

/-- The form of a value as an expression: a text stands between single quotes. -/
def written : Value → String
  | number n => decimal n
  | text s => String.ofList (Text.writeSingle s.toList)
  | list [] => "[]"
  | list (v :: rest) => writtenRest ("[" ++ v.written) rest ++ "]"

/-- The rest of a list, each item after a comma, behind what was written before it. -/
def writtenRest (before : String) : List Value → String
  | [] => before
  | v :: rest => writtenRest (before ++ ", " ++ v.written) rest

end

/-- The form of a value in messages: a text as it is, all else as an expression. -/
def display : Value → String
  | text s => s
  | v => v.written

/-! ### Arithmetic -/

/-- Two lists are joined; all else is added as numbers. -/
def add : Value → Value → Value
  | list as, list bs => list (as ++ bs)
  | a, b => number (a.toInt64 + b.toInt64)

def sub (a b : Value) : Value :=
  number (a.toInt64 - b.toInt64)

def mul (a b : Value) : Value :=
  number (a.toInt64 * b.toInt64)

def neg (a : Value) : Value :=
  number (-a.toInt64)

/-- The quotient, rounded towards zero. -/
def div (a b : Value) : Except Error Value :=
  if b.toInt64 = 0 then .error .divideByZero else .ok (number (a.toInt64 / b.toInt64))

/-- The remainder of that quotient; it has the sign of the dividend. -/
def rem (a b : Value) : Except Error Value :=
  if b.toInt64 = 0 then .error .divideByZero else .ok (number (a.toInt64 % b.toInt64))

/-- The displayed forms, one after the other. -/
def concat (a b : Value) : Value :=
  text (a.display ++ b.display)

/-! ### Comparison -/

mutual

/-- How two values compare: texts by their characters, lists item by item, all else as
numbers. -/
def order : Value → Value → Ordering
  | text s, text t => compare s t
  | list as, list bs => orderItems as bs
  | a, b => compare a.toInt64.toInt b.toInt64.toInt

/-- How two lists compare: by the first items that differ, and a list that ends first is
less. -/
def orderItems : List Value → List Value → Ordering
  | [], [] => .eq
  | [], _ :: _ => .lt
  | _ :: _, [] => .gt
  | a :: as, b :: bs =>
    match a.order b with
    | .eq => orderItems as bs
    | o => o

end

end Value

end ExScript
