import ExScript.Command.Keyword
import ExScript.LineRange

/-!
# From text to statements

A script is cut into statements in three steps. Lines that begin with a backslash go on the line
before them; a line is cut at its bars; and what is left is freed of colons and blanks around it
and dropped if it is empty or a comment.

Not every bar cuts. Bars in quotes do not, nor does `||`, and a backslash takes away the meaning of
the bar behind it. And some statements take all of their line: a comment, and `:command`, whose
argument is a script of its own. They are recognised on the line as it was written, before any
backslash in it is taken away.
-/

namespace ExScript

namespace Script

/-! ### Logical lines -/

/-- The logical lines so far, latest first, with another line taken in. A line that begins with a
backslash goes on the line before; a comment that begins with a backslash may stand between. -/
def joinLine (done : List (List Char)) (line : List Char) : List (List Char) :=
  match Text.trimStart line, done with
  | '\\' :: more, [] => [more]
  | '\\' :: more, last :: before => (last ++ more) :: before
  | '"' :: '\\' :: ' ' :: _, last :: before => last :: before
  | _, _ => line :: done

/-- The logical lines of a script. -/
def logicalLines (text : List Char) : List (List Char) :=
  ((Text.lines text).foldl joinLine []).reverse

/-! ### Bars -/

/-- The text without the colons and blanks in front of it. -/
def dropColons (text : List Char) : List Char :=
  text.dropWhile fun c => c == ':' || isBlank c

/-- The text without the colons and blanks in front of it and the blanks behind it. -/
def stripColons (text : List Char) : List Char :=
  Text.trimEnd (dropColons text)

/-- The quotes that a bar can stand in. -/
inductive Quote where
  | single
  | double
  deriving DecidableEq, Repr

/-- The text up to the first bar that cuts, and the text behind it if there is one; given the
quotes that are open. A bar behind a backslash loses the backslash. -/
def cutAtBar : Option Quote → List Char → List Char × Option (List Char)
  | _, [] => ([], none)
  | none, '\\' :: '|' :: rest => ('|' :: (cutAtBar none rest).1, (cutAtBar none rest).2)
  | none, '|' :: '|' :: rest => ('|' :: '|' :: (cutAtBar none rest).1, (cutAtBar none rest).2)
  | none, '|' :: rest => ([], some rest)
  | none, '\'' :: rest =>
    ('\'' :: (cutAtBar (some .single) rest).1, (cutAtBar (some .single) rest).2)
  | none, '"' :: rest =>
    ('"' :: (cutAtBar (some .double) rest).1, (cutAtBar (some .double) rest).2)
  | some .single, '\'' :: rest => ('\'' :: (cutAtBar none rest).1, (cutAtBar none rest).2)
  | some .double, '"' :: rest => ('"' :: (cutAtBar none rest).1, (cutAtBar none rest).2)
  | some .double, '\\' :: c :: rest =>
    ('\\' :: c :: (cutAtBar (some .double) rest).1, (cutAtBar (some .double) rest).2)
  | quote, c :: rest => (c :: (cutAtBar quote rest).1, (cutAtBar quote rest).2)

/-- The keyword that a statement begins with, behind its range. -/
def keywordOf (statement : List Char) : Option Keyword :=
  Keyword.named? (Keyword.nameOf (LineRange.parse statement).2)

/-- Whether a text is a comment. -/
def isComment : List Char → Bool
  | '"' :: _ => true
  | _ => false

/-- Whether the rest of a line is one statement, whatever bars are in it. -/
def takesLine (rest : List Char) : Bool :=
  let statement := dropColons rest
  keywordOf statement == some .defineCommand || isComment statement

/-- The statements of a logical line, at most `n` of them. -/
def splitUpTo : Nat → List Char → List (List Char)
  | 0, line => [line]
  | n + 1, line =>
    if takesLine line then [line]
    else
      match cutAtBar none line with
      | (statement, none) => [statement]
      | (statement, some rest) => statement :: splitUpTo n rest

/-- The statements of a logical line. Between two of them stands a bar, so the length bounds their
number. -/
def splitBars (line : List Char) : List (List Char) :=
  splitUpTo (line.length + 1) line

/-! ### Statements -/

/-- Whether a statement does something. -/
def isEffective (statement : List Char) : Bool :=
  !statement.isEmpty && !isComment statement

/-- The statements of a script, in the order in which they are run. -/
def statements (text : List Char) : List (List Char) :=
  (((logicalLines text).flatMap splitBars).map stripColons).filter isEffective

end Script

end ExScript
