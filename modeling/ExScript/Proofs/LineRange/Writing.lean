import ExScript.Pattern.CharSet
import ExScript.Proofs.LineRange.Resolution
import ExScript.Proofs.Script.Plain
import Mathlib.Data.List.Infix

/-!
# Ranges are read as they were written

A range can be written down from its addresses: each with its base and its counts one behind the
other, a comma or a semicolon between two of them, and as many blanks around it as one likes. What
is read from such a text, with the name of a command behind it, is what was written. No part takes
in something of the next one: a number ends at the sign or the separator behind it, a count at the
sign of the next one, and the last address at the letter that the name begins with.

What may stand behind the range is a condition on a text (`EndsRange`), and any letter of any script
meets it, so a range can be followed by a name whatever the names are. Blanks do not: they would be
passed over, and what is left is not what was behind the range.

The numbers are those that were written as long as they can be stored. For a base this is said of
the number, for counts of each of them and of the sums on the way.

## Main definitions

* `EndsRange` — what can stand behind a range
* `WrittenRange.write` — a range as a text
* `WrittenAddress.IsExact` — an address that can be stored as it is written

## Main results

* `EndsRange.of_isWordChar` — a letter can stand behind a range
* `LineRange.parse_write` — a range that was written is read back
-/

namespace ExScript

/-! ### What stands behind

An address goes on as long as there are digits behind a number or signs behind the counts. A range
goes on at a comma or a semicolon too, with blanks in front of it. -/

/-- Whether an address ends in front of a text: neither a number nor the counts go on there. -/
def EndsAddress (text : List Char) : Prop :=
  StartsNoDigit text ∧ Address.startsSigned text = false

theorem endsAddress_cons {c : Char} (hdigit : c.isDigit = false) (hsign : c ≠ '+' ∧ c ≠ '-')
    (text : List Char) : EndsAddress (c :: text) := by
  refine ⟨startsNoDigit_cons hdigit text, ?_⟩
  rw [Address.startsSigned.eq_def]
  split
  next heq => exact absurd (List.cons.inj heq).1 hsign.1
  next heq => exact absurd (List.cons.inj heq).1 hsign.2
  next => rfl

/-- An address ends in front of a blank. -/
theorem endsAddress_of_isBlank {c : Char} (h : isBlank c = true) (text : List Char) :
    EndsAddress (c :: text) := by
  have hdigit : c.isDigit = false := by
    refine Bool.eq_false_iff.mpr fun hdigit => ?_
    have hword : c.isAlphanum = true := by rw [Char.isAlphanum, hdigit, Bool.or_true]
    exact Script.ne_of_class h (Script.isBlank_of_isAlphanum hword) rfl
  exact endsAddress_cons hdigit
    ⟨Script.ne_of_class h (by decide), Script.ne_of_class h (by decide)⟩ text

/-- Whether a range ends in front of a text: its last address does, and there is neither a separator
nor a blank. -/
structure EndsRange (text : List Char) : Prop where
  address : EndsAddress text
  notSeparator : ¬StartsSeparator text
  notBlank : Text.trimStart text = text

namespace Pattern

/-- The blanks that are not of ASCII. -/
def blankCodes : List Nat :=
  [0x85, 0xA0, 0x1680, 0x2000, 0x2001, 0x2002, 0x2003, 0x2004, 0x2005, 0x2006, 0x2007, 0x2008,
    0x2009, 0x200A, 0x2028, 0x2029, 0x202F, 0x205F, 0x3000]

theorem blankCodes_not_word :
    blankCodes.all (fun n => !wordRanges.any fun range => range.1 ≤ n && n ≤ range.2) = true := by
  decide +kernel

/-- No part of a word is blank. -/
theorem not_isBlank_of_isWordChar {c : Char} (h : isWordChar c = true) : isBlank c = false := by
  rw [isWordChar] at h
  split at h
  · rw [Bool.or_eq_true, beq_iff_eq] at h
    rcases h with halphanum | rfl
    · exact Script.isBlank_of_isAlphanum halphanum
    · decide
  next hascii =>
    refine Bool.eq_false_iff.mpr fun hblank => ?_
    have hcode : c.toNat ∈ blankCodes := by
      simp only [isBlank, Bool.or_eq_true, Bool.and_eq_true, decide_eq_true_eq, beq_iff_eq] at hblank
      simp only [blankCodes, List.mem_cons, List.not_mem_nil]
      omega
    have hnot := List.all_eq_true.mp blankCodes_not_word _ hcode
    rw [h] at hnot
    cases hnot

end Pattern

/-- **A letter can stand behind a range**, of whatever script it is, and so can all else that words
are made of but the digits that numbers are written with. -/
theorem EndsRange.of_isWordChar {c : Char} (hword : Pattern.isWordChar c = true)
    (hdigit : c.isDigit = false) (text : List Char) : EndsRange (c :: text) := by
  have other {d : Char} (hd : Pattern.isWordChar d = false) : c ≠ d := Script.ne_of_class hword hd
  exact ⟨endsAddress_cons hdigit ⟨other (by decide), other (by decide)⟩ text,
    not_startsSeparator_cons ⟨other (by decide), other (by decide)⟩ text,
    Text.trimStart_cons (Pattern.not_isBlank_of_isWordChar hword) text⟩

/-! ### Addresses as texts

What is written is data that cannot be malformed: digits are digits, and an address has a base or a
count. So nothing has to be asked of it for its text to be read as its parts. -/

/-- A count as a text. -/
def SignedCount.write (c : SignedCount) : List Char :=
  c.sign :: c.digits.chars

/-- A base as a text. -/
def WrittenBase.write : WrittenBase → List Char
  | current => ['.']
  | last => ['$']
  | number digits _ => digits.chars

/-- An address as a text. -/
def WrittenAddress.write (w : WrittenAddress) : List Char :=
  (w.base.map WrittenBase.write).getD [] ++ w.counts.flatMap SignedCount.write

section Addresses

variable {behind : List Char}

theorem SignedCount.isDigit_sign (c : SignedCount) : c.sign.isDigit = false := by
  rw [sign]
  cases c.negative <;> rfl

theorem SignedCount.sign_cases (c : SignedCount) : c.sign = '+' ∨ c.sign = '-' := by
  rw [sign]
  cases c.negative
  · exact .inl rfl
  · exact .inr rfl

/-- Counts are no digits, and so a number ends in front of them. -/
theorem startsNoDigit_counts (counts : List SignedCount) (h : StartsNoDigit behind) :
    StartsNoDigit (counts.flatMap SignedCount.write ++ behind) := by
  cases counts with
  | nil => exact h
  | cons c counts => exact startsNoDigit_cons c.isDigit_sign _

theorem countsAt_write (counts : List SignedCount) (h : EndsAddress behind) :
    CountsAt (counts.flatMap SignedCount.write ++ behind) counts behind := by
  induction counts with
  | nil => exact .nil h.2
  | cons c counts ih =>
    rw [List.flatMap_cons, List.append_assoc, SignedCount.write, List.cons_append]
    exact .cons (startsNoDigit_counts counts h.1) ih

namespace WrittenAddress

/-- An address that is written stands there. -/
theorem addressAt_write (w : WrittenAddress) (h : EndsAddress behind) :
    AddressAt (w.write ++ behind) w behind := by
  obtain ⟨base, counts, hw⟩ := w
  refine ⟨counts.flatMap SignedCount.write ++ behind, ?_, countsAt_write counts h⟩
  rw [write, List.append_assoc]
  rcases base with _ | (_ | _ | ⟨digits, ne⟩)
  · -- without a base there is a sign at the front
    obtain ⟨c, others, hcounts⟩ := List.exists_cons_of_ne_nil (hw.resolve_left (not_not_intro rfl))
    obtain rfl : counts = c :: others := hcounts
    refine .omitted ?_
    rintro _ ⟨⟩
    rcases c.sign_cases with hsign | hsign <;> rw [hsign] <;> decide
  · exact .current
  · exact .last
  · exact .number (startsNoDigit_counts counts h.1)

/-- What an address begins with is no blank, and it is not short for all lines. -/
theorem write_begins (w : WrittenAddress) :
    ∃ c more, w.write = c :: more ∧ isBlank c = false ∧ c ≠ '%' := by
  obtain ⟨base, counts, hw⟩ := w
  rcases base with _ | (_ | _ | ⟨digits, ne⟩)
  · obtain ⟨c, others, hcounts⟩ := List.exists_cons_of_ne_nil (hw.resolve_left (not_not_intro rfl))
    obtain rfl : counts = c :: others := hcounts
    refine ⟨c.sign, _, rfl, ?_⟩
    rcases c.sign_cases with hsign | hsign <;> rw [hsign] <;> decide
  · exact ⟨'.', _, rfl, by decide⟩
  · exact ⟨'$', _, rfl, by decide⟩
  · obtain ⟨c, others, hchars⟩ := List.exists_cons_of_ne_nil ne
    have hdigit : c.isDigit = true := digits.isDigit c (hchars ▸ List.mem_cons_self)
    refine ⟨c, others ++ counts.flatMap SignedCount.write, ?_, ?_, ?_⟩
    · simp [write, WrittenBase.write, hchars]
    · exact Script.isBlank_of_isAlphanum (by simp [Char.isAlphanum, hdigit])
    · rintro rfl
      cases hdigit

theorem trimStart_write (w : WrittenAddress) (behind : List Char) :
    Text.trimStart (w.write ++ behind) = w.write ++ behind := by
  obtain ⟨c, more, hwrite, hblank, -⟩ := w.write_begins
  rw [hwrite, List.cons_append, Text.trimStart_cons hblank]

end WrittenAddress

end Addresses

/-! ### Ranges as texts

The blanks around a separator are a part of it, and may be different ones each time. -/

/-- A comma or a semicolon, with blanks around it. -/
structure RangeSeparator where
  before : List Char
  mark : Char
  after : List Char
  before_blank : ∀ c ∈ before, isBlank c = true
  mark_eq : mark = ',' ∨ mark = ';'
  after_blank : ∀ c ∈ after, isBlank c = true

namespace RangeSeparator

/-- A separator as a text. -/
def write (s : RangeSeparator) : List Char :=
  s.before ++ s.mark :: s.after

theorem mark_not_blank (s : RangeSeparator) : isBlank s.mark = false := by
  rcases s.mark_eq with hmark | hmark <;> rw [hmark] <;> decide

theorem trimStart_write (s : RangeSeparator) (text : List Char) :
    Text.trimStart (s.write ++ text) = s.mark :: (s.after ++ text) := by
  rw [write, List.append_assoc, Text.trimStart_blanks s.before_blank, List.cons_append,
    Text.trimStart_cons s.mark_not_blank]

/-- An address ends in front of a separator and the blanks in front of it. -/
theorem endsAddress (s : RangeSeparator) (text : List Char) : EndsAddress (s.write ++ text) := by
  cases hbefore : s.before with
  | nil =>
    have hmark : s.mark.isDigit = false ∧ s.mark ≠ '+' ∧ s.mark ≠ '-' := by
      rcases s.mark_eq with hmark | hmark <;> rw [hmark] <;> decide
    rw [write, hbefore]
    exact endsAddress_cons hmark.1 hmark.2 _
  | cons c before =>
    rw [write, hbefore]
    exact endsAddress_of_isBlank (s.before_blank c (hbefore ▸ List.mem_cons_self)) _

end RangeSeparator

/-- A range as it is written: an address, and others behind separators. -/
structure WrittenRange where
  first : WrittenAddress
  others : List (RangeSeparator × WrittenAddress)

namespace WrittenRange

/-- Separators and addresses as a text. -/
def writeOthers (others : List (RangeSeparator × WrittenAddress)) : List Char :=
  others.flatMap fun o => o.1.write ++ o.2.write

/-- A range as a text. -/
def write (range : WrittenRange) : List Char :=
  range.first.write ++ writeOthers range.others

/-- The addresses of a range, as they are written. -/
def written (range : WrittenRange) : List WrittenAddress :=
  range.first :: range.others.map Prod.snd

/-- Addresses that are written stand there, separators between them. -/
theorem addressesAt_write (w : WrittenAddress) (others : List (RangeSeparator × WrittenAddress))
    {rest : List Char} (h : EndsRange rest) :
    AddressesAt (w.write ++ (writeOthers others ++ rest)) (w :: others.map Prod.snd) rest := by
  induction others generalizing w with
  | nil =>
    have hend : ¬StartsSeparator (Text.trimStart rest) := by
      rw [h.notBlank]
      exact h.notSeparator
    have hlast := AddressesAt.last (w.addressAt_write h.address) hend
    rwa [h.notBlank] at hlast
  | cons o others ih =>
    obtain ⟨s, next⟩ := o
    have hothers : writeOthers ((s, next) :: others) ++ rest =
        s.write ++ (next.write ++ (writeOthers others ++ rest)) := by
      simp [writeOthers]
    rw [hothers]
    refine .next (w.addressAt_write (s.endsAddress _)) (s.trimStart_write _) s.mark_eq ?_
    rw [Text.trimStart_blanks s.after_blank, next.trimStart_write]
    exact ih next

/-- A range that is written stands there. -/
theorem rangeAt_write (range : WrittenRange) {rest : List Char} (h : EndsRange rest) :
    LineRange.RangeAt (range.write ++ rest) range.written rest := by
  have hstart : Text.trimStart (range.write ++ rest) =
      range.first.write ++ (writeOthers range.others ++ rest) := by
    rw [write, List.append_assoc, WrittenAddress.trimStart_write]
  refine .addresses (fun more hall => ?_) (hstart ▸ addressesAt_write range.first range.others h)
  obtain ⟨c, _, hwrite, -, hpercent⟩ := range.first.write_begins
  rw [hstart, hwrite, List.cons_append] at hall
  exact hpercent (List.cons.inj hall).1

end WrittenRange

/-! ### Reading them

That the right parts are found was a matter of characters. Here the numbers come in, and with them
what can be stored. -/

namespace WrittenBase

/-- The base that is meant. -/
def base : WrittenBase → LineBase
  | current => .current
  | last => .last
  | number digits _ => .number (Numeral.value digits.chars)

/-- Whether a base can be stored as it is written: its number fits 64 bits. -/
def IsExact : WrittenBase → Prop
  | current => True
  | last => True
  | number digits _ => Numeral.value digits.chars ≤ Numeral.maxNat

instance : DecidablePred IsExact
  | current => inferInstanceAs (Decidable True)
  | last => inferInstanceAs (Decidable True)
  | number digits _ => inferInstanceAs (Decidable (Numeral.value digits.chars ≤ Numeral.maxNat))

theorem IsExact.toBase_eq {b : WrittenBase} (h : b.IsExact) : b.toBase = b.base := by
  cases b with
  | current | last => rfl
  | number digits ne => exact congrArg LineBase.number (Nat.min_eq_left h)

end WrittenBase

instance : DecidablePred SignedCount.IsStored :=
  fun n => inferInstanceAs (Decidable (-(Numeral.maxInt : Int) - 1 ≤ n ∧ n ≤ Numeral.maxInt))

instance : DecidablePred Fits := fun counts =>
  decidable_of_iff ((∀ c ∈ counts, c.magnitude ≤ Numeral.maxInt) ∧
      ∀ front ∈ counts.inits, SignedCount.IsStored (totalValue front))
    ⟨fun h => ⟨h.1, fun front hfront => h.2 front ((List.mem_inits front counts).mpr hfront)⟩,
      fun h => ⟨h.magnitude, fun front hfront => h.sum front ((List.mem_inits front counts).mp hfront)⟩⟩

namespace WrittenAddress

/-- The address that is meant: without a base it counts from the line of the cursor, and its offset
is the sum of its counts. -/
def address (w : WrittenAddress) : Address where
  base := (w.base.map WrittenBase.base).getD .current
  offset := totalValue w.counts

/-- Whether an address can be stored as it is written: its base can, each of its counts and each sum
on the way. -/
structure IsExact (w : WrittenAddress) : Prop where
  base : ∀ b ∈ w.base, b.IsExact
  counts : Fits w.counts

instance : DecidablePred IsExact := fun w =>
  decidable_of_iff ((∀ b ∈ w.base, b.IsExact) ∧ Fits w.counts)
    ⟨fun h => ⟨h.1, h.2⟩, fun h => ⟨h.base, h.counts⟩⟩

/-- What is read is what is meant if it can be stored. -/
theorem IsExact.toAddress_eq {w : WrittenAddress} (h : w.IsExact) : w.toAddress = w.address := by
  have hbase : w.base.map WrittenBase.toBase = w.base.map WrittenBase.base :=
    Option.map_congr fun b hb => (h.base b hb).toBase_eq
  rw [toAddress, address, hbase, h.counts.foldl_addTo]

end WrittenAddress

namespace LineRange

/-- **A range that was written is read back**, and what stands behind it is left, be it a letter or
anything else that a range ends in front of. The addresses are those that were written: a base that
was left out is the line of the cursor, a sign without digits counts one, and the offsets are the
sums of the counts. -/
theorem parse_write (range : WrittenRange) (hexact : ∀ w ∈ range.written, w.IsExact)
    {rest : List Char} (hrest : EndsRange rest) :
    parse (range.write ++ rest) = (⟨range.written.map WrittenAddress.address⟩, rest) := by
  have hread : range.written.map WrittenAddress.toAddress =
      range.written.map WrittenAddress.address :=
    List.map_congr_left fun w hw => (hexact w hw).toAddress_eq
  rw [parse_of_rangeAt (range.rangeAt_write hrest), hread]

/-- A sign without digits. -/
def bareSign (negative : Bool) : SignedCount :=
  ⟨negative, ⟨[], List.all_nil⟩⟩

/-- The range `02+7-- ;\t$-9223372036854775806-,+`. -/
def countedRange : WrittenRange where
  first := ⟨some (.number ⟨['0', '2'], rfl⟩ (List.cons_ne_nil _ _)),
    [⟨false, ⟨['7'], rfl⟩⟩, bareSign true, bareSign true], .inl (Option.some_ne_none _)⟩
  others :=
    [(⟨[' '], ';', ['\t'], List.forall_mem_singleton.mpr rfl, .inr rfl,
          List.forall_mem_singleton.mpr rfl⟩,
        ⟨some .last, [⟨true, ⟨"9223372036854775806".toList, rfl⟩⟩, bareSign true],
          .inl (Option.some_ne_none _)⟩),
      (⟨[], ',', [], List.forall_mem_nil _, .inl rfl, List.forall_mem_nil _⟩,
        ⟨none, [bareSign false], .inr (List.cons_ne_nil _ _)⟩)]

/-- Three addresses with all kinds of counts, in front of a command. -/
theorem parse_write_countedRange :
    countedRange.write ++ "delete".toList =
        "02+7-- ;\t$-9223372036854775806-,+delete".toList ∧
      parse "02+7-- ;\t$-9223372036854775806-,+delete".toList =
        (⟨[⟨.number 2, 5⟩, ⟨.last, -9223372036854775807⟩, ⟨.current, 1⟩]⟩, "delete".toList) := by
  have htext : countedRange.write ++ "delete".toList =
      "02+7-- ;\t$-9223372036854775806-,+delete".toList := by decide
  have hexact : ∀ w ∈ countedRange.written, w.IsExact := by decide +kernel
  have haddresses : countedRange.written.map WrittenAddress.address =
      [⟨.number 2, 5⟩, ⟨.last, -9223372036854775807⟩, ⟨.current, 1⟩] := by decide +kernel
  refine ⟨htext, ?_⟩
  rw [← htext, ← haddresses]
  exact parse_write countedRange hexact (.of_isWordChar (c := 'd') (by decide) (by decide) _)

end LineRange

end ExScript
