import ExScript.Numeral
import ExScript.Text.Quoted

/-!
# Tokens of expressions

An expression is cut into tokens before its structure is read. Only the blank and the tab separate
tokens; every other character belongs to one, if only to the token of a character without a
meaning. A token is read from the text that is left and from nothing else, so each lexeme keeps
the text behind it: reading can be taken up again there, and parts of the source can be cut out
between lexemes.
-/

namespace ExScript

/-- A token of an expression. -/
inductive Token where
  | number (n : Int64)
  | text (s : String)
  | name (s : String)
  | plus
  | minus
  | star
  | slash
  | percent
  | dot
  | bang
  | equal
  | notEqual
  | less
  | lessEqual
  | greater
  | greaterEqual
  | matching
  | notMatching
  | and
  | or
  | comma
  | leftParen
  | rightParen
  | leftBracket
  | rightBracket
  /-- A character that begins no token. -/
  | unknown (c : Char)
  deriving DecidableEq, Repr

/-- A token and the text behind it. -/
structure Lexeme where
  token : Token
  rest : List Char
  deriving DecidableEq, Repr

namespace Lexeme

/-- Whether a character separates tokens. -/
def isSeparator (c : Char) : Bool :=
  c == ' ' || c == '\t'

/-- Whether a character can begin a name. -/
def isNameStart (c : Char) : Bool :=
  c.isAlpha || c == '_'

/-- Whether a character can go on a name. -/
def isNameChar (c : Char) : Bool :=
  c.isAlphanum || c == '_'

/-- Whether a letter names a scope when a colon follows it. -/
def isScopeLetter (c : Char) : Bool :=
  ['g', 'b', 'l', 'w', 't', 's', 'v'].contains c

/-- A number; one that does not fit is the largest that does. -/
def readNumber (text : List Char) : Lexeme :=
  let (digits, rest) := Numeral.digits text
  ⟨.number (Int64.ofNat (Numeral.valueUpTo Numeral.maxInt digits)), rest⟩

/-- A name whose first characters were just read. -/
def readName (start rest : List Char) : Lexeme :=
  ⟨.name (String.ofList (start ++ rest.takeWhile isNameChar)), rest.dropWhile isNameChar⟩

/-- A name, in front of which a scope may be mentioned. -/
def readScopedName (first : Char) : List Char → Lexeme
  | ':' :: rest =>
    if isScopeLetter first then readName [first, ':'] rest else readName [first] (':' :: rest)
  | rest => readName [first] rest

/-- An operator or bracket, given its first character. -/
def readSymbol : Char → List Char → Lexeme
  | '+', rest => ⟨.plus, rest⟩
  | '-', rest => ⟨.minus, rest⟩
  | '*', rest => ⟨.star, rest⟩
  | '/', rest => ⟨.slash, rest⟩
  | '%', rest => ⟨.percent, rest⟩
  | '.', '.' :: rest => ⟨.dot, rest⟩
  | '.', rest => ⟨.dot, rest⟩
  | '!', '=' :: rest => ⟨.notEqual, rest⟩
  | '!', '~' :: rest => ⟨.notMatching, rest⟩
  | '!', rest => ⟨.bang, rest⟩
  | '=', '=' :: rest => ⟨.equal, rest⟩
  | '=', '~' :: rest => ⟨.matching, rest⟩
  | '<', '=' :: rest => ⟨.lessEqual, rest⟩
  | '<', rest => ⟨.less, rest⟩
  | '>', '=' :: rest => ⟨.greaterEqual, rest⟩
  | '>', rest => ⟨.greater, rest⟩
  | '&', '&' :: rest => ⟨.and, rest⟩
  | '|', '|' :: rest => ⟨.or, rest⟩
  | ',', rest => ⟨.comma, rest⟩
  | '(', rest => ⟨.leftParen, rest⟩
  | ')', rest => ⟨.rightParen, rest⟩
  | '[', rest => ⟨.leftBracket, rest⟩
  | ']', rest => ⟨.rightBracket, rest⟩
  | c, rest => ⟨.unknown c, rest⟩

/-- The lexeme that begins with `c`. -/
def readFrom (c : Char) (rest : List Char) : Lexeme :=
  if c.isDigit then readNumber (c :: rest)
  else if isNameStart c then readScopedName c rest
  else if c = '"' then ⟨.text (String.ofList (Text.readDouble rest).1), (Text.readDouble rest).2⟩
  else if c = '\'' then ⟨.text (String.ofList (Text.readSingle rest).1), (Text.readSingle rest).2⟩
  else readSymbol c rest

/-- The first lexeme of a text, if anything but separators is left. -/
def next? (text : List Char) : Option Lexeme :=
  match text.dropWhile isSeparator with
  | [] => none
  | c :: rest => some (readFrom c rest)

theorem next?_eq_none_iff {text : List Char} :
    next? text = none ↔ text.dropWhile isSeparator = [] := by
  cases hstart : text.dropWhile isSeparator <;> simp [next?, hstart]

theorem next?_eq_some_iff {text : List Char} {l : Lexeme} :
    next? text = some l ↔
      ∃ c rest, text.dropWhile isSeparator = c :: rest ∧ readFrom c rest = l := by
  cases hstart : text.dropWhile isSeparator with
  | nil => simp [next?, hstart]
  | cons c rest =>
    have first : next? text = some (readFrom c rest) := by rw [next?, hstart]
    rw [first, Option.some.injEq]
    constructor
    · intro h
      exact ⟨c, rest, rfl, h⟩
    · rintro ⟨_, _, ⟨⟩, h⟩
      exact h

theorem next?_separator {c : Char} (hc : isSeparator c = true) (text : List Char) :
    next? (c :: text) = next? text := by
  rw [next?, next?, List.dropWhile_cons_of_pos hc]

theorem next?_of_not_separator {c : Char} (hc : isSeparator c = false) (rest : List Char) :
    next? (c :: rest) = some (readFrom c rest) := by
  rw [next?, List.dropWhile_cons_of_neg (by simp [hc])]

/-- The first lexemes of a text, at most `n`. -/
def scanUpTo : Nat → List Char → List Lexeme
  | 0, _ => []
  | n + 1, text =>
    match next? text with
    | none => []
    | some lexeme => lexeme :: scanUpTo n lexeme.rest

/-- The lexemes of a text. Each takes a character at least, so the length bounds their number. -/
def scan (text : List Char) : List Lexeme :=
  scanUpTo text.length text

end Lexeme

end ExScript
