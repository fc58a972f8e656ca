import ExScript.Proofs.LineRange.Notation
import ExScript.Proofs.Result

/-!
# The lines that a range names

What a range means is a matter of counting, in numbers without bounds: an address names the line of
its base, so many lines down and so many up (`WrittenAddress.line`). The program counts in numbers
of 64 bits. A count that is too large for them stops at the largest one, and so does the sum; the
idea is that the line is then far outside of the buffer, so that the range is refused.

That is true as long as the counts go one way. Where they go both ways, a count that stopped can be
taken back by another one, and the address names a line of the buffer that is not the one that was
written. For this to happen the counts have to go down by about as many lines as there are numbers,
and up by as many (`WrittenAddress.IsModerate`). Everything else is exact.

The condition is on what is written and says nothing about the program. It is not a bound on the
numbers: an address may have counts that cannot be stored, in one direction, and then it is either
refused or, if it is found, it is the right line. A bound would have been easier
to work with, and would have left out just the addresses for which the program stops at the largest
number.

An address that is refused is not wrong, whatever it means. So the statements are about lines that
are found.

## Main definitions

* `WrittenAddress.line` — the line that an address means
* `WrittenAddress.IsModerate` — an address that cannot be taken for another line

## Main results

* `LineRange.resolve_eq_ok` — what it means that a range names lines of the buffer
* `foldl_addTo_cases` — the sum of the counts is exact, or is far off in one direction
* `LineRange.resolve_exact` — the lines that are found are those that were written
* `LineRange.taken_back` — the exception
-/

namespace ExScript

/-! ### Addresses and ranges that name lines

What the program finds for an address that was read, in terms of the base and the offset, and for a
range, of which only the last two addresses count. -/

/-- `LastTwo xs x y`: these are the last two elements of a list, or both are its only one. -/
inductive LastTwo {α : Type} : List α → α → α → Prop where
  | only {x} : LastTwo [x] x x
  | more {front x y} : LastTwo (front ++ [x, y]) x y

/-- The last two of what was read come from the last two of what was written. -/
theorem LastTwo.exists_of_map {α β : Type} {f : α → β} {xs : List α} {y y' : β}
    (h : LastTwo (xs.map f) y y') : ∃ x x', LastTwo xs x x' ∧ f x = y ∧ f x' = y' := by
  generalize hys : xs.map f = ys at h
  cases h with
  | only =>
    obtain ⟨x, rfl, rfl⟩ := List.map_eq_singleton_iff.mp hys
    exact ⟨x, x, .only, rfl, rfl⟩
  | more =>
    obtain ⟨front, others, rfl, -, hothers⟩ := List.map_eq_append_iff.mp hys
    obtain ⟨x, rest, rfl, rfl, hrest⟩ := List.map_eq_cons_iff.mp hothers
    obtain ⟨x', rfl, rfl⟩ := List.map_eq_singleton_iff.mp hrest
    exact ⟨x, x', .more, rfl, rfl⟩

theorem LastTwo.unique {α : Type} {xs : List α} {x x' y y' : α} (h : LastTwo xs x y)
    (h' : LastTwo xs x' y') : x = x' ∧ y = y' := by
  generalize hys : xs = ys at h'
  cases h with
  | only =>
    cases h' with
    | only => simpa using hys
    | more => simpa using congrArg List.length hys
  | more =>
    cases h' with
    | only => simpa using congrArg List.length hys
    | more => simpa using (List.append_inj' hys rfl).2

/-- The line that a base stands for. -/
def LineBase.line (b : Buffer) : LineBase → Nat
  | current => b.cursorLine
  | last => b.lineCount
  | number n => n

/-- An address names a line of the buffer, or line zero, if its base can be stored. -/
theorem Address.resolve_eq_ok_iff {a : Address} {b : Buffer} {line : Nat} :
    a.resolve b = .ok line ↔
      a.base.line b ≤ Numeral.maxInt ∧ (line : Int) = a.base.line b + a.offset ∧
        line ≤ b.lineCount := by
  have check : a.resolve b =
      if (a.base.line b : Int) ≤ Numeral.maxInt ∧ 0 ≤ a.base.line b + a.offset ∧
          a.base.line b + a.offset ≤ b.lineCount then .ok (a.base.line b + a.offset).toNat
      else .error .invalidRange := by
    rw [Address.resolve]
    cases a.base <;> rfl
  rw [check]
  split
  next hline =>
    rw [Except.ok.injEq]
    omega
  next hline =>
    constructor
    · rintro ⟨⟩
    · omega

/-- A range names the lines of its last two addresses, which stand in this order, or the line of the
cursor if it has no addresses. -/
theorem LineRange.resolve_eq_ok {range : LineRange} {b : Buffer} {first last : Nat}
    (h : range.resolve b = .ok (first, last)) :
    (range.addresses = [] ∧ first = b.cursorLine ∧ last = b.cursorLine) ∨
      ∃ a a', LastTwo range.addresses a a' ∧ a.resolve b = .ok first ∧ a'.resolve b = .ok last ∧
        first ≤ last := by
  obtain ⟨addresses⟩ := range
  rw [LineRange.resolve] at h
  split at h
  next hnil =>
    cases h
    exact .inl ⟨List.reverse_eq_nil_iff.mp hnil, rfl, rfl⟩
  next only honly =>
    obtain ⟨line, hline, hpair⟩ := exists_of_map_eq_ok h
    cases hpair
    have haddresses : addresses = [only] := by simpa using congrArg List.reverse honly
    exact .inr ⟨only, only, haddresses ▸ .only, hline, hline, Nat.le_refl _⟩
  next a' a before hmore =>
    have haddresses : addresses = before.reverse ++ [a, a'] := by
      simpa using congrArg List.reverse hmore
    split at h
    next line line' hline hline' =>
      split at h
      · cases h
      next horder =>
        cases h
        exact .inr ⟨a, a', haddresses ▸ .more, hline, hline', Nat.le_of_not_lt horder⟩
    · cases h
    · cases h

/-! ### Exact lines

A count is seen as two numbers, how far it goes down and how far up, of which one is zero. Lines
down and lines up are then added up on their own, and no sum of these is ever taken back. -/

namespace SignedCount

/-- The number of lines that a count goes down. -/
def down (c : SignedCount) : Nat :=
  if c.negative then 0 else c.magnitude

/-- The number of lines that a count goes up. -/
def up (c : SignedCount) : Nat :=
  if c.negative then c.magnitude else 0

theorem value_eq (c : SignedCount) : c.value = c.down - c.up := by
  rw [value, down, up]
  split <;> simp

/-- Whether a sum can be stored. -/
def IsStored (n : Int) : Prop :=
  -Numeral.maxInt - 1 ≤ n ∧ n ≤ Numeral.maxInt

theorem isStored_zero : IsStored 0 := by
  rw [IsStored]
  omega

/-- Adding a count stops at the largest number twice, for the count and for the sum. -/
theorem addTo_eq (offset : Int) (c : SignedCount) :
    addTo offset c =
      Address.clamp (offset + min c.down Numeral.maxInt - min c.up Numeral.maxInt) := by
  rw [addTo, down, up]
  split <;> simp

section Add

variable {offset : Int}

/-- However it stops, an offset moves by no more than the count says. -/
theorem addTo_bounds (h : IsStored offset) (c : SignedCount) :
    IsStored (addTo offset c) ∧ offset - c.up ≤ addTo offset c ∧
      addTo offset c ≤ offset + c.down := by
  simp only [addTo_eq, Address.clamp, IsStored] at h ⊢
  omega

/-- Adding a count is exact, or it stops at the one end or the other. -/
theorem addTo_cases (h : IsStored offset) (c : SignedCount) :
    addTo offset c = offset + c.down - c.up ∨
      (Numeral.maxInt < max offset 0 + c.down ∧ min offset 0 + Numeral.maxInt ≤ addTo offset c) ∨
      (Numeral.maxInt < c.up - min offset 0 ∧ addTo offset c ≤ max offset 0 - Numeral.maxInt) := by
  have hone : c.down = 0 ∨ c.up = 0 := by
    rw [down, up]
    split
    · exact .inl rfl
    · exact .inr rfl
  simp only [addTo_eq, Address.clamp, IsStored] at h ⊢
  omega

end Add

end SignedCount

/-! ### Sums of counts

What is kept along the counts is not that the offset is exact, but a choice of three: it is exact;
or it has been at the upper end, and is as far below it now as there were lines up, at most; or the
same at the lower end. The last two can only lead back to the buffer if there are enough lines in
the other direction. -/

/-- The sum of counts. -/
def totalValue : List SignedCount → Int
  | [] => 0
  | c :: counts => c.value + totalValue counts

/-- How many lines counts go down, those that go up left aside. -/
def totalDown : List SignedCount → Nat
  | [] => 0
  | c :: counts => c.down + totalDown counts

/-- How many lines counts go up, those that go down left aside. -/
def totalUp : List SignedCount → Nat
  | [] => 0
  | c :: counts => c.up + totalUp counts

section Sums

open SignedCount

variable {c : SignedCount} {counts : List SignedCount} {offset : Int}

theorem totalValue_eq (counts : List SignedCount) :
    totalValue counts = totalDown counts - totalUp counts := by
  induction counts with
  | nil => rfl
  | cons c counts ih =>
    rw [totalValue, ih, c.value_eq, totalDown, totalUp]
    omega

/-- The same of any number of counts. -/
theorem foldl_addTo_bounds (h : IsStored offset) :
    offset - totalUp counts ≤ counts.foldl addTo offset ∧
      counts.foldl addTo offset ≤ offset + totalDown counts := by
  induction counts generalizing offset with
  | nil => simp [totalUp, totalDown]
  | cons c counts ih =>
    obtain ⟨hstored, hlow, hhigh⟩ := addTo_bounds h c
    obtain ⟨hlow', hhigh'⟩ := ih hstored
    rw [List.foldl_cons, totalUp, totalDown]
    omega

/-- **The sum of counts is exact, or it has stopped at one end and the counts in the other direction
are all that can bring it back.** The numbers `d` and `u` are those of the lines that were counted
down and up before. -/
theorem foldl_addTo_cases {d u : Nat} (h : IsStored offset) (hoffset : offset = d - u) :
    counts.foldl addTo offset = offset + totalDown counts - totalUp counts ∨
      (Numeral.maxInt < d + totalDown counts ∧
        (Numeral.maxInt : Int) ≤ counts.foldl addTo offset + (u + totalUp counts)) ∨
      (Numeral.maxInt < u + totalUp counts ∧
        counts.foldl addTo offset + Numeral.maxInt ≤ d + totalDown counts) := by
  induction counts generalizing offset d u with
  | nil => simp [totalUp, totalDown]
  | cons c counts ih =>
    obtain ⟨hstored, -⟩ := addTo_bounds h c
    rw [List.foldl_cons, totalUp, totalDown]
    rcases addTo_cases h c with hexact | hstopped
    · have hsum : addTo offset c = (d + c.down : Nat) - (u + c.up : Nat) := by omega
      have hrest := ih hstored hsum
      omega
    · -- The counts that follow bring the sum back by what they go in the other direction, at most.
      have hbounds := @foldl_addTo_bounds counts _ hstored
      omega

/-- Counts whose sums can all be stored, each of them as well. -/
structure Fits (counts : List SignedCount) : Prop where
  magnitude : ∀ c ∈ counts, c.magnitude ≤ Numeral.maxInt
  sum : ∀ front, front <+: counts → IsStored (totalValue front)

/-- Nothing stops if all sums on the way can be stored. -/
theorem foldl_addTo_of_isStored (hcounts : ∀ c ∈ counts, c.magnitude ≤ Numeral.maxInt)
    (hsums : ∀ front, front <+: counts → IsStored (offset + totalValue front)) :
    counts.foldl addTo offset = offset + totalValue counts := by
  induction counts generalizing offset with
  | nil => simp [totalValue]
  | cons c counts ih =>
    obtain ⟨hc, hcounts⟩ := List.forall_mem_cons.mp hcounts
    have hfirst : IsStored (offset + c.value) := by
      simpa [totalValue] using hsums [c] (List.cons_prefix_cons.mpr ⟨rfl, List.nil_prefix⟩)
    have hadd : addTo offset c = offset + c.value := by
      simp only [addTo, value, Address.clamp, IsStored] at hfirst ⊢
      cases hnegative : c.negative with
      | false =>
        simp only [hnegative, Bool.false_eq_true, if_false] at hfirst ⊢
        omega
      | true =>
        simp only [hnegative, if_true] at hfirst ⊢
        omega
    rw [List.foldl_cons, hadd, ih hcounts, totalValue, Int.add_assoc]
    intro front hfront
    have hlonger := hsums (c :: front) (List.cons_prefix_cons.mpr ⟨rfl, hfront⟩)
    rwa [totalValue, ← Int.add_assoc] at hlonger

/-- Counts that fit are added up exactly. -/
theorem Fits.foldl_addTo (h : Fits counts) :
    counts.foldl addTo 0 = totalValue counts := by
  rw [foldl_addTo_of_isStored h.magnitude fun front hfront => by
    simpa using h.sum front hfront, Int.zero_add]

end Sums

/-! ### Lines that were written

If a line is found, the offset is in the bounds of the buffer, whose lines can be counted. That
rules out two of the three cases for a moderate address. -/

namespace WrittenBase

variable {b : Buffer}

/-- The line that a base means. -/
def line (b : Buffer) : WrittenBase → Nat
  | current => b.cursorLine
  | last => b.lineCount
  | number digits _ => Numeral.value digits.chars

/-- A base that can be stored is the one that was written. -/
theorem line_toBase {base : WrittenBase} (h : base.toBase.line b ≤ Numeral.maxInt) :
    base.toBase.line b = base.line b := by
  cases base with
  | current | last => rfl
  | number digits ne =>
    have hstops : Numeral.maxInt < Numeral.maxNat := by decide
    simp only [toBase, LineBase.line, Numeral.valueUpTo, line] at h ⊢
    omega

end WrittenBase

namespace WrittenAddress

variable {w : WrittenAddress} {b : Buffer} {n : Nat}

/-- The line that an address counts from. -/
def start (w : WrittenAddress) (b : Buffer) : Nat :=
  (w.base.map (WrittenBase.line b)).getD b.cursorLine

/-- The line that an address means, which need not be one of the buffer. -/
def line (w : WrittenAddress) (b : Buffer) : Int :=
  w.start b + totalValue w.counts

/-- Whether an address cannot be taken for another one: no sum of its counts is too large, or they
do not go down as far as the numbers go, or not up. -/
def IsModerate (w : WrittenAddress) (b : Buffer) : Prop :=
  Fits w.counts ∨ w.start b + totalDown w.counts < Numeral.maxInt ∨
    b.lineCount + totalUp w.counts < Numeral.maxInt

/-- What it means that the address that is read names a line. -/
theorem resolve_toAddress (h : w.toAddress.resolve b = .ok n) :
    (n : Int) = w.start b + w.counts.foldl SignedCount.addTo 0 ∧ n ≤ b.lineCount := by
  obtain ⟨hstored, hn, hle⟩ := Address.resolve_eq_ok_iff.mp h
  have hstart : w.toAddress.base.line b = w.start b := by
    rw [toAddress] at hstored ⊢
    rw [start]
    cases hbase : w.base with
    | none => rfl
    | some base =>
      rw [hbase] at hstored
      exact WrittenBase.line_toBase hstored
  rw [hstart] at hn
  exact ⟨hn, hle⟩

/-- A line that is found for a moderate address is the one that was written. -/
theorem line_of_resolve (h : w.toAddress.resolve b = .ok n) (hw : w.IsModerate b) :
    (n : Int) = w.line b := by
  obtain ⟨hn, hle⟩ := resolve_toAddress h
  rw [line]
  rcases hw with hfits | hmoderate
  · rw [hn, hfits.foldl_addTo]
  · have hcases := @foldl_addTo_cases w.counts 0 0 0 SignedCount.isStored_zero (by simp)
    rw [totalValue_eq]
    omega

end WrittenAddress

namespace LineRange

/-- **The lines that a range names are those that were written.** What is written is not in doubt,
and if the program finds lines for it, these are the lines that its last two addresses mean, as long
as each of these is moderate. -/
theorem resolve_exact {text : List Char} {b : Buffer} {first last : Nat}
    (hsome : (parse text).1.addresses ≠ []) (h : (parse text).1.resolve b = .ok (first, last)) :
    (∃ ws rest, RangeAt text ws rest) ∧
      ∀ ws rest, RangeAt text ws rest → ∃ w w', LastTwo ws w w' ∧
        (w.IsModerate b → (first : Int) = w.line b) ∧
        (w'.IsModerate b → (last : Int) = w'.line b) := by
  refine ⟨exists_rangeAt text, fun ws rest hws => ?_⟩
  rw [parse_of_rangeAt hws] at hsome h
  rcases resolve_eq_ok h with ⟨hnone, -⟩ | ⟨a, a', hlast, hfirst, hsecond, -⟩
  · exact absurd hnone hsome
  · obtain ⟨w, w', hws, rfl, rfl⟩ := hlast.exists_of_map
    exact ⟨w, w', hws, WrittenAddress.line_of_resolve hfirst,
      WrittenAddress.line_of_resolve hsecond⟩

/-- A buffer with three lines. -/
def threeLines : Buffer :=
  { lines := ["a", "b", "c"] }

/-- The address `.+2`. -/
def twoDown : WrittenAddress :=
  ⟨some .current, [⟨false, ⟨['2'], rfl⟩⟩], .inl (by simp)⟩

/-- The address `$-`. -/
def lastButOne : WrittenAddress :=
  ⟨some .last, [⟨true, ⟨[], rfl⟩⟩], .inl (by simp)⟩

theorem rangeAt_threeAddresses :
    RangeAt "1;$-,.+2d".toList [firstLine, lastButOne, twoDown] ['d'] := by
  have htwoDown : AddressAt ['.', '+', '2', 'd'] twoDown ['d'] :=
    ⟨_, .current, CountsAt.cons (c := ⟨false, ⟨['2'], rfl⟩⟩) (startsNoDigit_cons rfl _) (.nil rfl)⟩
  have hlastButOne : AddressAt "$-,.+2d".toList lastButOne ",.+2d".toList :=
    ⟨_, .last, CountsAt.cons (c := ⟨true, ⟨[], rfl⟩⟩) (startsNoDigit_cons rfl _) (.nil rfl)⟩
  have hfirstLine : AddressAt "1;$-,.+2d".toList firstLine ";$-,.+2d".toList :=
    ⟨_, @BaseAt.number ⟨['1'], rfl⟩ _ _ (startsNoDigit_cons rfl _), .nil rfl⟩
  have hend : ¬StartsSeparator (Text.trimStart ['d']) := not_startsSeparator_cons (by decide) []
  exact .addresses (by rintro _ ⟨⟩) (.next hfirstLine rfl (.inr rfl)
    (.next hlastButOne rfl (.inl rfl) (.last htwoDown hend)))

/-- Of three addresses the last two count. -/
theorem resolve_exact_lastTwo :
    (parse "1;$-,.+2d".toList).1.resolve threeLines = .ok (2, 3) ∧
      lastButOne.line threeLines = 2 ∧ twoDown.line threeLines = 3 := by
  have hresolve : (parse "1;$-,.+2d".toList).1.resolve threeLines = .ok (2, 3) := by decide +kernel
  have hsome : (parse "1;$-,.+2d".toList).1.addresses ≠ [] := by decide +kernel
  obtain ⟨w, w', hlast, hfirst, hsecond⟩ :=
    (resolve_exact hsome hresolve).2 _ _ rangeAt_threeAddresses
  obtain ⟨rfl, rfl⟩ := hlast.unique (@LastTwo.more _ [firstLine] _ _)
  have hmoderate : lastButOne.IsModerate threeLines ∧ twoDown.IsModerate threeLines :=
    ⟨.inr (.inl (by decide +kernel)), .inr (.inl (by decide +kernel))⟩
  exact ⟨hresolve, (hfirst hmoderate.1).symm, (hsecond hmoderate.2).symm⟩

/-- The address `.+99999999999999999999-9223372036854775807`. -/
def farDownAndUp : WrittenAddress :=
  ⟨some .current, [⟨false, ⟨"99999999999999999999".toList, rfl⟩⟩,
    ⟨true, ⟨"9223372036854775807".toList, rfl⟩⟩], .inl (by simp)⟩

/-- A count that is too large and that is taken back: the line is far behind the last one, and the
first one is found. -/
theorem taken_back :
    RangeAt ".+99999999999999999999-9223372036854775807d".toList [farDownAndUp] ['d'] ∧
      (parse ".+99999999999999999999-9223372036854775807d".toList).1.resolve threeLines =
        .ok (1, 1) ∧
      farDownAndUp.line threeLines = 90776627963145224193 := by
  have haddress :
      AddressAt ".+99999999999999999999-9223372036854775807d".toList farDownAndUp ['d'] :=
    ⟨_, .current, CountsAt.cons (c := ⟨false, ⟨"99999999999999999999".toList, rfl⟩⟩)
      (startsNoDigit_cons rfl _)
      (CountsAt.cons (c := ⟨true, ⟨"9223372036854775807".toList, rfl⟩⟩) (startsNoDigit_cons rfl _)
        (.nil rfl))⟩
  have hend : ¬StartsSeparator (Text.trimStart ['d']) := not_startsSeparator_cons (by decide) []
  exact ⟨.addresses (by rintro _ ⟨⟩) (.last haddress hend), by decide +kernel, by decide +kernel⟩

end LineRange

end ExScript
