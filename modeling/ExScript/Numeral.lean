/-!
# Numerals

Decimal numbers as scripts write them. Three rules meet here: numbers are unbounded while they
are read, each place that stores one says where it stops, and what happens there differs. A
number in an expression or an offset in a range stops at the largest number of 64 bits; a string
read as a number that does not fit counts as nothing.
-/

namespace ExScript

namespace Numeral

/-- The largest number of 64 bits with a sign. -/
def maxInt : Nat := 0x7fff_ffff_ffff_ffff

/-- The largest number of 64 bits without a sign. -/
def maxNat : Nat := 0xffff_ffff_ffff_ffff

/-- The leading decimal digits of a text, and what follows them. -/
def digits (text : List Char) : List Char × List Char :=
  (text.takeWhile Char.isDigit, text.dropWhile Char.isDigit)

theorem digits_append (text : List Char) : (digits text).1 ++ (digits text).2 = text :=
  List.takeWhile_append_dropWhile

/-- The number that a list of decimal digits denotes. -/
def value (digits : List Char) : Nat :=
  Nat.ofDigitChars 10 digits 0

/-- The number that a list of decimal digits denotes, or `limit` if it is larger. -/
def valueUpTo (limit : Nat) (digits : List Char) : Nat :=
  min (value digits) limit

theorem value_repr (n : Nat) : value (Nat.toDigits 10 n) = n :=
  Nat.ofDigitChars_toDigits (by decide) (by decide)

end Numeral

end ExScript
