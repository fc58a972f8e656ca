import ExScript.Buffer
import ExScript.Numeral

/-!
# Line ranges

Some commands work on lines, which a range in front of the command names: `%` for all of them, or
addresses such as `3`, `.`, `$-1` and `+2` with commas or semicolons between them. Reading a range
never fails; what is no range is left for the name of the command. Only the last two addresses
count, and whether they name lines of the buffer is asked when the command is run.

The numbers that are written may be of any size. A line number stops at the largest number of 64
bits without a sign, an offset and the sum of the offsets at the ends of the numbers of 64 bits
with one.
-/

namespace ExScript

/-- What an address counts from. -/
inductive LineBase where
  /-- The line of the cursor. -/
  | current
  /-- The last line. -/
  | last
  | number (n : Nat)
  deriving DecidableEq, Repr

/-- An address of a line: where to start, and how many lines to go down from there. -/
structure Address where
  base : LineBase
  offset : Int := 0
  deriving DecidableEq, Repr

/-- The addresses in front of a command. -/
structure LineRange where
  addresses : List Address := []
  deriving DecidableEq, Repr, Inhabited

namespace Address

/-- A number, or the nearest one that 64 bits with a sign can hold. -/
def clamp (n : Int) : Int :=
  max (-Numeral.maxInt - 1) (min n Numeral.maxInt)

/-- The number of lines that the digits behind a sign stand for: one if there are none. -/
def count (digits : List Char) : Int :=
  if digits.isEmpty then 1 else Numeral.valueUpTo Numeral.maxInt digits

/-- The sum of the signed counts at the front of a text, at most `n` of them, added to what was
counted before; and the text behind them. -/
def readOffsets : Nat → Int → List Char → Int × List Char
  | n + 1, offset, '+' :: rest =>
    readOffsets n (clamp (offset + count (Numeral.digits rest).1)) (Numeral.digits rest).2
  | n + 1, offset, '-' :: rest =>
    readOffsets n (clamp (offset - count (Numeral.digits rest).1)) (Numeral.digits rest).2
  | _, offset, rest => (offset, rest)

/-- The base at the front of a text, if there is one. -/
def readBase : List Char → Option LineBase × List Char
  | '.' :: rest => (some .current, rest)
  | '$' :: rest => (some .last, rest)
  | text =>
    let (digits, rest) := Numeral.digits text
    if digits.isEmpty then (none, text)
    else (some (.number (Numeral.valueUpTo Numeral.maxNat digits)), rest)

/-- Whether a text starts with a sign. -/
def startsSigned : List Char → Bool
  | '+' :: _ => true
  | '-' :: _ => true
  | _ => false

/-- The address at the front of a text, if there is one. Without a base its offset counts from the
line of the cursor. -/
def read? (text : List Char) : Option (Address × List Char) :=
  let (base, rest) := readBase text
  if base.isNone && !startsSigned rest then none
  else
    let (offset, rest) := readOffsets rest.length 0 rest
    some (⟨base.getD .current, offset⟩, rest)

/-- The line that an address names. The place before the first line counts as line zero. -/
def resolve (a : Address) (b : Buffer) : Except Error Nat :=
  let base := match a.base with
    | .current => b.cursorLine
    | .last => b.lineCount
    | .number n => n
  let line : Int := base + a.offset
  if base ≤ Numeral.maxInt ∧ 0 ≤ line ∧ line ≤ b.lineCount then .ok line.toNat
  else .error .invalidRange

end Address

namespace LineRange

/-- Whether there is no address. -/
def isEmpty (range : LineRange) : Bool :=
  range.addresses.isEmpty

/-- The range of all lines. -/
def all : LineRange :=
  ⟨[⟨.number 1, 0⟩, ⟨.last, 0⟩]⟩

/-- The addresses at the front of a text, at most `n` of them. A separator may stand behind the
last one. -/
def readAddresses : Nat → List Char → List Address × List Char
  | 0, text => ([], text)
  | n + 1, text =>
    match Address.read? text with
    | none => ([], text)
    | some (address, rest) =>
      match Text.trimStart rest with
      | ',' :: rest =>
        let (others, rest) := readAddresses n (Text.trimStart rest)
        (address :: others, rest)
      | ';' :: rest =>
        let (others, rest) := readAddresses n (Text.trimStart rest)
        (address :: others, rest)
      | rest => ([address], rest)

/-- The range at the front of a text, and the text behind it. -/
def parse (text : List Char) : LineRange × List Char :=
  match Text.trimStart text with
  | '%' :: rest => (all, rest)
  | rest =>
    let (addresses, rest) := readAddresses rest.length rest
    (⟨addresses⟩, rest)

/-- The first and the last line of a range: those of its last two addresses, of its only one, or
the line of the cursor. -/
def resolve (range : LineRange) (b : Buffer) : Except Error (Nat × Nat) :=
  match range.addresses.reverse with
  | [] => .ok (b.cursorLine, b.cursorLine)
  | [only] => (only.resolve b).map fun line => (line, line)
  | last :: first :: _ =>
    match first.resolve b, last.resolve b with
    | .ok first, .ok last => if first > last then .error .invalidRange else .ok (first, last)
    | .error e, _ => .error e
    | .ok _, .error e => .error e

end LineRange

end ExScript
