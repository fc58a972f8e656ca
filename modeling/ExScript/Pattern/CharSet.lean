import ExScript.Pattern.ClassTable
import ExScript.Text.Blank
import ExScript.Text.Letter

/-!
# Sets of characters

What one character of a text may be, as a pattern says it: a range of code points, a named class,
or a combination of such sets. A set can also be closed under case, so that it holds every
character that is the same letter as one of its members when case is ignored.

What a set holds is a matter of the library that `Pattern` stands in for, and no theorem is about
it. `isWordChar` alone is used elsewhere, as a name for what words are made of.
-/

namespace ExScript

namespace CodeShift

/-- The code point on the run that is sent to `n`, if there is one. -/
def preimage? (shift : CodeShift) (n : Nat) : Option Nat :=
  let m := shift.first + (n - shift.target)
  if shift.target ≤ n && shift.contains m then some m else none

end CodeShift

/-- The characters that are the same letter as `c` when case is ignored. -/
def caseVariants (c : Char) : List Char :=
  let common := foldCase c
  let candidates := (lowercaseShifts ++ foldExceptions).filterMap fun shift =>
    (shift.preimage? common.toNat).map Char.ofNat
  common :: candidates.filter fun d => foldCase d == common

namespace Pattern

/-- Whether a character is part of a word. -/
def isWordChar (c : Char) : Bool :=
  if c.toNat < 0x80 then c.isAlphanum || c == '_'
  else wordRanges.any fun range => range.1 ≤ c.toNat && c.toNat ≤ range.2

/-- Whether a character is a decimal digit of some script. -/
def isDecimalDigit (c : Char) : Bool :=
  if c.toNat < 0x80 then c.isDigit
  else digitRanges.any fun range => range.1 ≤ c.toNat && c.toNat ≤ range.2

/-- A set of characters. -/
inductive CharSet where
  | range (first last : Char)
  | any
  | none
  | digit
  | blank
  | word
  | union (a b : CharSet)
  | inter (a b : CharSet)
  | complement (a : CharSet)
  /-- The characters that are a letter of `a` when case is ignored. -/
  | anyCase (a : CharSet)

namespace CharSet

/-- Whether a character is in the set. -/
def contains : CharSet → Char → Bool
  | range first last, c => first ≤ c && c ≤ last
  | any, _ => true
  | none, _ => false
  | digit, c => isDecimalDigit c
  | blank, c => isBlank c
  | word, c => isWordChar c
  | union a b, c => a.contains c || b.contains c
  | inter a b, c => a.contains c && b.contains c
  | complement a, c => !a.contains c
  | anyCase a, c => (caseVariants c).any a.contains

/-- The set of one character. -/
def single (c : Char) : CharSet :=
  range c c

/-- The members of `a` that are not in `b`. -/
def diff (a b : CharSet) : CharSet :=
  inter a (complement b)

/-- The members of one of the sets that are not in the other. -/
def symmDiff (a b : CharSet) : CharSet :=
  union (a.diff b) (b.diff a)

/-- The union of a list of sets. -/
def unionAll (sets : List CharSet) : CharSet :=
  sets.foldl union none

/-- The set named by a bracketed class name such as `alpha`. These classes are of ASCII. -/
def named? : String → Option CharSet
  | "alnum" => some (unionAll [range '0' '9', range 'A' 'Z', range 'a' 'z'])
  | "alpha" => some (union (range 'A' 'Z') (range 'a' 'z'))
  | "ascii" => some (range '\x00' '\x7f')
  | "blank" => some (union (single '\t') (single ' '))
  | "cntrl" => some (union (range '\x00' '\x1f') (single '\x7f'))
  | "digit" => some (range '0' '9')
  | "graph" => some (range '!' '~')
  | "lower" => some (range 'a' 'z')
  | "print" => some (range ' ' '~')
  | "punct" => some (unionAll [range '!' '/', range ':' '@', range '[' '\x60', range '\x7b' '~'])
  | "space" => some (union (range '\t' '\r') (single ' '))
  | "upper" => some (range 'A' 'Z')
  | "word" => some (unionAll [range '0' '9', range 'A' 'Z', single '_', range 'a' 'z'])
  | "xdigit" => some (unionAll [range '0' '9', range 'A' 'F', range 'a' 'f'])
  | _ => Option.none

/-- About how many steps of a byte automaton the set takes; the scripts' own classes are the
large ones. -/
def weight : CharSet → Nat
  | range _ last => if last.toNat < 0x80 then 1 else last.utf8Size
  | any => 8
  | none => 1
  | digit => 90
  | blank => 12
  | word => 300
  | union a b => max a.weight b.weight
  | inter a b => max a.weight b.weight
  | complement a => max 8 a.weight
  | anyCase a => 2 * a.weight

end CharSet

end Pattern

end ExScript
