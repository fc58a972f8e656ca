/-!
# Blanks, words and lines

Scripts, arguments and messages are read as lists of characters. This module says which
characters count as blank, trims them away, cuts text into words at blanks, and cuts text into
lines.

A *blank* is a character with the White_Space property, not only a blank of ASCII: a statement
may be indented with an ideographic space, and a no-break space ends the name of a command.
-/

namespace ExScript

/-- Whether a character has the White_Space property. -/
def isBlank (c : Char) : Bool :=
  let n := c.toNat
  (0x9 ≤ n && n ≤ 0xD) || n == 0x20 || n == 0x85 || n == 0xA0 || n == 0x1680 ||
    (0x2000 ≤ n && n ≤ 0x200A) || n == 0x2028 || n == 0x2029 || n == 0x202F || n == 0x205F ||
    n == 0x3000

/-- Core's notion of white space is the part of it that ASCII knows. -/
theorem isBlank_of_isWhitespace {c : Char} (h : c.isWhitespace) : isBlank c := by
  simp only [Char.isWhitespace, Bool.or_eq_true, decide_eq_true_eq] at h
  rcases h with ((rfl | rfl) | rfl) | rfl <;> decide

namespace Text

/-! ### Trimming -/

/-- The text without its leading blanks. -/
def trimStart (text : List Char) : List Char :=
  text.dropWhile isBlank

/-- The text without its trailing blanks. -/
def trimEnd (text : List Char) : List Char :=
  (text.reverse.dropWhile isBlank).reverse

/-- The text without the blanks at either end. -/
def trim (text : List Char) : List Char :=
  trimEnd (trimStart text)

@[simp] theorem trimStart_nil : trimStart [] = [] := rfl

@[simp] theorem trimEnd_nil : trimEnd [] = [] := rfl

@[simp] theorem trim_nil : trim [] = [] := rfl

/-- Whether the text starts with a blank. -/
def startsBlank : List Char → Bool
  | [] => false
  | c :: _ => isBlank c

/-! ### Words -/

/-- The first word of a text that starts with none of its blanks, and what follows the word. -/
def word (text : List Char) : List Char × List Char :=
  (text.takeWhile fun c => !isBlank c, text.dropWhile fun c => !isBlank c)

theorem word_append (text : List Char) : (word text).1 ++ (word text).2 = text :=
  List.takeWhile_append_dropWhile

/-- The words of a text: what its blanks separate. -/
def words (text : List Char) : List (List Char) :=
  (text.splitOnP isBlank).filter fun w => !w.isEmpty

/-! ### Lines -/

/-- A line without the carriage return that belongs to its line break. -/
def dropReturn (line : List Char) : List Char :=
  match line.getLast? with
  | some '\r' => line.dropLast
  | _ => line

/-- Lines from the pieces between line feeds. The piece after the last line feed is no line if it
is empty, and a carriage return at its end belongs to it. -/
def linesOfPieces : List (List Char) → List (List Char)
  | [] => []
  | [last] => if last.isEmpty then [] else [last]
  | piece :: next :: rest => dropReturn piece :: linesOfPieces (next :: rest)

/-- The lines of a text, without their line breaks. A line break is a line feed, or a carriage
return followed by one. -/
def lines (text : List Char) : List (List Char) :=
  linesOfPieces (text.splitOnP (· == '\n'))

@[simp] theorem lines_nil : lines [] = [] := by
  simp [lines, linesOfPieces]

end Text

/-- A string without the blanks at either end. -/
def trimmed (s : String) : String :=
  String.ofList (Text.trim s.toList)

/-- The lines of a string. -/
def linesOf (s : String) : List String :=
  (Text.lines s.toList).map String.ofList

end ExScript
