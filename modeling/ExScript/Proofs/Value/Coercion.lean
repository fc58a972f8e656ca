import ExScript.Proofs.Expr.ReadBack
import ExScript.Proofs.LineRange.Notation

/-!
# Texts that count as numbers

A text counts as the integer it begins with: blanks, a sign or none, and as many decimal digits as
there are. What such a text says is a relation between the text and an integer (`IntegerAt`), with
no bound on the number of digits.

The number has 64 bits, and the digits are read without their sign. So an integer whose digits
denote a number that is too large counts as nothing, and this is one integer too many: the least
number of 64 bits has a magnitude that is too large by one. It is displayed with all its digits, and
the displayed text counts as zero.

## Main definitions

* `IntegerAt` — the integer that a text begins with

## Main results

* `Value.leadingNumber_of_integerAt` — it is the number that the text counts as, if it is not too
  large
* `Value.leadingNumber_of_no_integer` — a text that begins with no integer counts as zero
* `Value.toInt64_text_exact` — both for values, and the numbers that come back from their display
-/

namespace ExScript

/-! ### The integer at the front of a text -/

/-- A sign in front of digits. -/
inductive NumberSign where
  | omitted
  | plus
  | minus

namespace NumberSign

/-- The sign as it is written. -/
def chars : NumberSign → List Char
  | omitted => []
  | plus => ['+']
  | minus => ['-']

/-- Whether it is a minus. -/
def negative : NumberSign → Bool
  | minus => true
  | _ => false

/-- The integer with this sign and some magnitude. -/
def signed (sign : NumberSign) (n : Nat) : Int :=
  if sign.negative then -n else n

end NumberSign

/-- `IntegerAt text n`: the text begins with this integer, behind blanks. No further digit stands
behind the digits. -/
inductive IntegerAt : List Char → Int → Prop where
  | mk {blanks : List Char} (sign : NumberSign) {digits : Digits} {rest : List Char} :
    (∀ c ∈ blanks, isBlank c = true) → digits.chars ≠ [] → StartsNoDigit rest →
      IntegerAt (blanks ++ (sign.chars ++ (digits.chars ++ rest)))
        (sign.signed (Numeral.value digits.chars))

namespace Digits

/-- The digits of a number in decimal. -/
def ofNat (n : Nat) : Digits where
  chars := Nat.toDigits 10 n
  all_isDigit := List.all_eq_true.mpr fun _ hc =>
    Nat.isDigit_of_mem_toDigits (by decide) (by decide) hc

theorem value_ofNat (n : Nat) : Numeral.value (ofNat n).chars = n :=
  Numeral.value_repr n

end Digits

namespace Value

/-! ### Reading it -/

/-- Nothing is trimmed in front of a number, and its sign is the one that is read. -/
theorem trimStart_sign {text : List Char} (sign : NumberSign)
    (h : text.head?.any Char.isDigit) :
    Text.trimStart (sign.chars ++ text) = sign.chars ++ text ∧
      splitSign (sign.chars ++ text) = (sign.negative, text) := by
  obtain ⟨c, rest, rfl, hc⟩ : ∃ c rest, text = c :: rest ∧ c.isDigit := by
    cases text with
    | nil => cases h
    | cons c rest => exact ⟨c, rest, rfl, h⟩
  cases sign with
  | omitted =>
    have hblank : isBlank c = false := Script.isBlank_of_isAlphanum (by simp [Char.isAlphanum, hc])
    refine ⟨Text.trimStart_cons hblank rest, ?_⟩
    rw [splitSign.eq_def]
    split
    next hminus =>
      cases hminus
      exact absurd hc (by decide)
    next hplus =>
      cases hplus
      exact absurd hc (by decide)
    next => rfl
  | plus => exact ⟨Text.trimStart_cons (by decide) _, rfl⟩
  | minus => exact ⟨Text.trimStart_cons (by decide) _, rfl⟩

/-- The sign that a text begins with, and what is behind it. -/
theorem exists_sign_chars (text : List Char) : ∃ sign : NumberSign,
    text = sign.chars ++ (splitSign text).2 ∧ sign.negative = (splitSign text).1 := by
  rw [splitSign.eq_def]
  split
  · exact ⟨.minus, rfl, rfl⟩
  · exact ⟨.plus, rfl, rfl⟩
  · exact ⟨.omitted, rfl, rfl⟩

/-- The digits that a text begins with, behind blanks and a sign. -/
def leadingDigits (text : List Char) : List Char :=
  (Numeral.digits (splitSign (Text.trimStart text)).2).1

theorem leadingNumber_eq (text : List Char) :
    leadingNumber text =
      if Numeral.value (leadingDigits text) ≤ Numeral.maxInt then
        Int64.ofInt (if (splitSign (Text.trimStart text)).1 then
          -(Numeral.value (leadingDigits text) : Int) else Numeral.value (leadingDigits text))
      else 0 := rfl

/-- The integer that a text begins with is the one whose sign and digits are read. -/
theorem integerAt_iff {text : List Char} {n : Int} :
    IntegerAt text n ↔ leadingDigits text ≠ [] ∧
      n = if (splitSign (Text.trimStart text)).1 then
        -(Numeral.value (leadingDigits text) : Int) else Numeral.value (leadingDigits text) := by
  constructor
  · rintro ⟨sign, hblanks, hne, hrest⟩
    next blanks digits rest =>
    have hhead : (digits.chars ++ rest).head?.any Char.isDigit := by
      obtain ⟨c, others, hchars⟩ := List.exists_cons_of_ne_nil hne
      rw [hchars]
      exact digits.isDigit c (hchars ▸ List.mem_cons_self)
    obtain ⟨htrim, hsplit⟩ := trimStart_sign sign hhead
    rw [leadingDigits, Text.trimStart_blanks hblanks, htrim, hsplit, digits.digits_append hrest]
    exact ⟨hne, rfl⟩
  · rintro ⟨hne, rfl⟩
    obtain ⟨sign, hsign, hnegative⟩ := exists_sign_chars (Text.trimStart text)
    rw [← hnegative]
    rw [leadingDigits] at hne ⊢
    generalize (splitSign (Text.trimStart text)).2 = behind at hne hsign ⊢
    have written := @IntegerAt.mk (text.takeWhile isBlank) sign (Digits.ofText behind)
      (behind.dropWhile Char.isDigit) (fun c hc => List.mem_takeWhile_imp hc) hne
      (Digits.startsNoDigit_dropWhile behind)
    rwa [Digits.ofText_append, ← hsign, Text.trimStart, List.takeWhile_append_dropWhile] at written

/-- **A text counts as the integer it begins with**, if the magnitude of the integer is a number of
64 bits, and otherwise as zero. -/
theorem leadingNumber_of_integerAt {text : List Char} {n : Int} (h : IntegerAt text n) :
    (leadingNumber text).toInt = if n.natAbs ≤ Numeral.maxInt then n else 0 := by
  obtain ⟨-, hn⟩ := integerAt_iff.mp h
  have hmagnitude : Numeral.value (leadingDigits text) = n.natAbs := by
    rw [hn]
    split <;> omega
  rw [leadingNumber_eq, ← hn, hmagnitude]
  split
  next hle =>
    rw [Numeral.maxInt] at hle
    exact Int64.toInt_ofInt_of_le (by omega) (by omega)
  next => rfl

/-- A text that begins with no integer counts as zero. -/
theorem leadingNumber_of_no_integer {text : List Char} (h : ∀ n, ¬IntegerAt text n) :
    leadingNumber text = 0 := by
  have hdigits : leadingDigits text = [] := by
    by_contra hne
    exact h _ (integerAt_iff.mpr ⟨hne, rfl⟩)
  have hvalue : Numeral.value [] = 0 := rfl
  rw [leadingNumber_eq, hdigits, hvalue, if_pos (Nat.zero_le _)]
  cases (splitSign (Text.trimStart text)).1 <;> rfl

/-! ### Numbers that are displayed -/

/-- The displayed form of a number begins with it. -/
theorem integerAt_decimal (n : Int64) : IntegerAt (decimal n).toList n.toInt := by
  have hne : (Digits.ofNat n.toInt.natAbs).chars ≠ [] :=
    List.ne_nil_of_length_pos Nat.length_toDigits_pos
  have ends : StartsNoDigit [] := by
    rintro c ⟨⟩
  have at_front (sign : NumberSign) : IntegerAt
      (sign.chars ++ Nat.toDigits 10 n.toInt.natAbs) (sign.signed n.toInt.natAbs) := by
    have written := IntegerAt.mk sign (fun c hc => absurd hc List.not_mem_nil) hne ends
    rwa [List.nil_append, List.append_nil, Digits.value_ofNat] at written
  rw [toList_decimal]
  split
  next hneg =>
    have hminus := at_front .minus
    rwa [show NumberSign.minus.signed n.toInt.natAbs = n.toInt by
      show -(n.toInt.natAbs : Int) = n.toInt
      omega] at hminus
  next hpos =>
    have hplain := at_front .omitted
    rwa [show NumberSign.omitted.signed n.toInt.natAbs = n.toInt by
      show (n.toInt.natAbs : Int) = n.toInt
      omega] at hplain

/-- A number that is displayed counts as itself again, but for the least one. -/
theorem leadingNumber_decimal (n : Int64) :
    leadingNumber (decimal n).toList = if n = -9223372036854775808 then 0 else n := by
  have hread := leadingNumber_of_integerAt (integerAt_decimal n)
  have hle := n.le_toInt
  have hlt := n.toInt_lt
  rw [← Int64.toInt_inj, hread, Numeral.maxInt]
  split
  next hfits =>
    have hn : n ≠ -9223372036854775808 := by
      rintro rfl
      exact absurd hfits (by decide)
    rw [if_neg hn]
  next hlarge =>
    have hn : n = -9223372036854775808 := by
      rw [← Int64.toInt_inj]
      show n.toInt = -9223372036854775808
      omega
    rw [if_pos hn]
    rfl

/-! ### Texts as values -/

/-- **Texts count as the integers they begin with.** The number is exact whenever it fits into 64
bits, except for the least one; a text that begins with that one, with an integer that does not fit
or with no integer counts as zero. So a number that is displayed counts as itself again, but for the
least one. -/
theorem toInt64_text_exact (s : String) :
    (∀ n : Int, IntegerAt s.toList n →
      (text s).toInt64.toInt =
        if -9223372036854775808 < n ∧ n < 9223372036854775808 then n else 0) ∧
      ((∀ n, ¬IntegerAt s.toList n) → (text s).toInt64 = 0) ∧
        ∀ n : Int64, s = (number n).display →
          (text s).toInt64 = if n = -9223372036854775808 then 0 else n := by
  refine ⟨fun n h => ?_, fun h => leadingNumber_of_no_integer h, fun n hdisplay => ?_⟩
  · have fits : n.natAbs ≤ Numeral.maxInt ↔
        -9223372036854775808 < n ∧ n < 9223372036854775808 := by
      rw [Numeral.maxInt]
      omega
    rw [toInt64, leadingNumber_of_integerAt h]
    simp only [fits]
  · rw [hdisplay]
    exact leadingNumber_decimal n

/-- A text that begins with the greatest number, one that begins with a sign only, and a number that
is displayed. -/
theorem toInt64_text_exact_greatest :
    (text "\t +09223372036854775807abc").toInt64.toInt = 9223372036854775807 ∧
      (text "- 7").toInt64 = 0 ∧ (text "-12").toInt64 = -12 := by
  refine ⟨?_, ?_, (toInt64_text_exact "-12").2.2 (-12) (by decide)⟩
  · have h : IntegerAt "\t +09223372036854775807abc".toList 9223372036854775807 :=
      integerAt_iff.mpr (by decide)
    exact (toInt64_text_exact _).1 _ h
  · refine (toInt64_text_exact _).2.1 fun n h => ?_
    exact absurd (integerAt_iff.mp h).1 (by decide)

/-- The least number is displayed with all its digits, and the displayed text counts as zero. -/
theorem leastNumber_lost :
    (number (-9223372036854775808)).display = "-9223372036854775808" ∧
      IntegerAt "-9223372036854775808".toList (-9223372036854775808) ∧
        (text "-9223372036854775808").toInt64.toInt = 0 :=
  ⟨by decide, integerAt_iff.mpr (by decide), by decide⟩

end Value

end ExScript
