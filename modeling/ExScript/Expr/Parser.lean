import ExScript.Expr.Basic
import ExScript.Expr.Token

/-!
# Reading expressions

The structure of expressions, from the weakest operator to the strongest:

```
or    = and ("||" and)*
and   = rel ("&&" rel)*
rel   = sum [comparison sum]
sum   = term (("+" | "-" | ".") term)*
term  = unary (("*" | "/" | "%") unary)*
unary = ("-" | "!" | "+") unary | primary
primary = number | text | name | name "(" items ")" | "(" or ")" | "[" items "]"
items = nothing, or expressions separated by commas, with a comma at the end or not
```

Each level is a reader built from the reader of the level below, and the strongest level is given
the reader of what stands in brackets. The knot is tied by the depth of brackets, of which there
are never more than lexemes; everything else follows the lexemes that are left.
-/

namespace ExScript

namespace Expr

/-- Reads an expression from the front of a list of lexemes. -/
abbrev Reader := List Lexeme → Option (Expr × List Lexeme)

/-! ### Operators of each level -/

def orOp? : Token → Option BinaryOp
  | .or => some .or
  | _ => none

def andOp? : Token → Option BinaryOp
  | .and => some .and
  | _ => none

def comparisonOp? : Token → Option BinaryOp
  | .equal => some .eq
  | .notEqual => some .ne
  | .less => some .lt
  | .lessEqual => some .le
  | .greater => some .gt
  | .greaterEqual => some .ge
  | .matching => some .matching
  | .notMatching => some .notMatching
  | _ => none

def sumOp? : Token → Option BinaryOp
  | .plus => some .add
  | .minus => some .sub
  | .dot => some .concat
  | _ => none

def termOp? : Token → Option BinaryOp
  | .star => some .mul
  | .slash => some .div
  | .percent => some .rem
  | _ => none

/-! ### Levels -/

/-- Goes on after a left operand with as many operators of a level as follow, at most `n`. -/
def readChain (op? : Token → Option BinaryOp) (operand : Reader) : Nat → Expr → Reader
  | 0, left, lexemes => some (left, lexemes)
  | _ + 1, left, [] => some (left, [])
  | n + 1, left, lexeme :: rest =>
    match op? lexeme.token with
    | none => some (left, lexeme :: rest)
    | some op =>
      match operand rest with
      | none => none
      | some (right, rest) => readChain op? operand n (.binary op left right) rest

/-- Operands of one level, joined by its operators from the left. -/
def leftGrouped (op? : Token → Option BinaryOp) (operand : Reader) : Reader := fun lexemes =>
  match operand lexemes with
  | none => none
  | some (left, rest) => readChain op? operand rest.length left rest

/-- One operand, or two with an operator of the level between them. -/
def ungrouped (op? : Token → Option BinaryOp) (operand : Reader) : Reader := fun lexemes =>
  match operand lexemes with
  | none => none
  | some (left, []) => some (left, [])
  | some (left, lexeme :: rest) =>
    match op? lexeme.token with
    | none => some (left, lexeme :: rest)
    | some op => (operand rest).map fun right => (.binary op left right.1, right.2)

/-- Signs and negations in front of a primary expression. -/
def readUnary (primary : Reader) : Reader
  | [] => primary []
  | lexeme :: rest =>
    match lexeme.token with
    | .minus => (readUnary primary rest).map fun operand => (.unary .neg operand.1, operand.2)
    | .bang => (readUnary primary rest).map fun operand => (.unary .not operand.1, operand.2)
    | .plus => readUnary primary rest
    | _ => primary (lexeme :: rest)

/-- Items separated by commas up to a closing bracket, at most `n`. A comma may stand before the
bracket. -/
def readItems (item : Reader) (close : Token) : Nat → List Lexeme → Option (List Expr × List Lexeme)
  | 0, _ => none
  | _ + 1, [] => none
  | n + 1, lexeme :: rest =>
    if lexeme.token = close then some ([], rest)
    else
      match item (lexeme :: rest) with
      | none => none
      | some (_, []) => none
      | some (first, next :: rest) =>
        if next.token = close then some ([first], rest)
        else if next.token = .comma then
          (readItems item close n rest).map fun items => (first :: items.1, items.2)
        else none

/-- The strongest level, given the reader of expressions in brackets. -/
def readPrimary (inner : Reader) : Reader
  | [] => none
  | lexeme :: rest =>
    match lexeme.token with
    | .number n => some (.number n, rest)
    | .text s => some (.text s, rest)
    | .name s =>
      match rest with
      | [] => some (.var s, [])
      | next :: behind =>
        if next.token = .leftParen then
          (readItems inner .rightParen (behind.length + 1) behind).map fun items =>
            (.call s items.1, items.2)
        else some (.var s, next :: behind)
    | .leftParen =>
      match inner rest with
      | some (e, next :: rest) => if next.token = .rightParen then some (e, rest) else none
      | _ => none
    | .leftBracket =>
      (readItems inner .rightBracket (rest.length + 1) rest).map fun items =>
        (.list items.1, items.2)
    | _ => none

/-- All levels over each other, given the reader of expressions in brackets. -/
def readLevels (inner : Reader) : Reader :=
  leftGrouped orOp? <| leftGrouped andOp? <| ungrouped comparisonOp? <| leftGrouped sumOp? <|
    leftGrouped termOp? <| readUnary <| readPrimary inner

/-- An expression with brackets up to a depth. -/
def readAt : Nat → Reader
  | 0, _ => none
  | depth + 1, lexemes => readLevels (readAt depth) lexemes

/-- The longest expression at the front of a list of lexemes, and the lexemes behind it. -/
def read : Reader := fun lexemes =>
  readAt (lexemes.length + 1) lexemes

end Expr

namespace Expression

/-- The expression that a text denotes. Nothing may be left behind it. -/
def parse (source : String) : Except Error Expression :=
  match Expr.read (Lexeme.scan source.toList) with
  | some (e, []) => .ok ⟨trimmed source, e⟩
  | _ => .error (.invalidExpression (trimmed source))

/-- The text behind the lexemes that were read, when `rest` of them are left; `start` if none was
read. -/
def textBehind (start : List Char) (lexemes rest : List Lexeme) : List Char :=
  match (lexemes.take (lexemes.length - rest.length)).getLast? with
  | some lexeme => lexeme.rest
  | none => start

/-- The expressions that follow each other in a text, at most `n`; `start` is the text behind the
last lexeme before them. The source of each reaches from the end of the one before to its own. -/
def readAll : Nat → List Char → List Lexeme → Option (List Expression)
  | _, _, [] => some []
  | 0, _, _ :: _ => none
  | n + 1, start, lexemes =>
    match Expr.read lexemes with
    | none => none
    | some (e, rest) =>
      let stop := textBehind start lexemes rest
      let source := Text.trim (start.take (start.length - stop.length))
      (readAll n stop rest).map fun others => ⟨String.ofList source, e⟩ :: others

/-- The expressions that follow each other in a text, as `:echo` takes them. -/
def parseSequence (source : String) : Except Error (List Expression) :=
  let lexemes := Lexeme.scan source.toList
  match readAll lexemes.length source.toList lexemes with
  | some expressions => .ok expressions
  | none => .error (.invalidExpression (trimmed source))

end Expression

end ExScript
