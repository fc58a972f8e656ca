import ExScript.Proofs.Script.LineEnd

/-!
# How line ranges are written

A range is written as addresses with commas or semicolons between them, and an address as a base and
signed counts behind it, of which either may be missing. Here this notation is a relation between a
text, the addresses that are written at its front, and the text behind them. It says where each part
ends and nothing about numbers: the digits are kept as they are written, so what an address means
can be said without a thought of how large a number may be.

There are two uses of it. What a range is resolved to can be compared with the exact sum of its
counts (`Proofs/LineRange/Resolution.lean`), which the reader never sees, since it keeps a number in
bounds while it reads. And facts about where a range ends, like that a bar ends it, are proved by
induction on the rules, with no fuel in them and no numbers.

The reader is described by the relation: each text has some addresses at its front, perhaps none
(`LineRange.exists_rangeAt`), and these are the ones that are read (`LineRange.parse_of_rangeAt`).

## Main definitions

* `SignedCount`, `WrittenAddress` — the parts of a range, as they are written
* `CountsAt`, `BaseAt`, `AddressesAt`, `LineRange.RangeAt` — how they stand at the front of a text
* `WrittenAddress.toAddress` — the address that is read

## Main results

* `LineRange.exists_rangeAt` — each text has a range at its front
* `LineRange.parse_of_rangeAt` — it is the range that is read
-/

namespace ExScript

/-! ### The parts of an address

What is written, and beside it what the reader makes of it. The digits carry the proof that they are
digits, and an address the proof that it has a base or a count, so that no other ones can be
written. -/

/-- A row of decimal digits, which may be empty. -/
structure Digits where
  chars : List Char
  all_isDigit : chars.all Char.isDigit = true

/-- A sign, and the digits behind it. -/
structure SignedCount where
  negative : Bool
  digits : Digits

namespace SignedCount

def sign (c : SignedCount) : Char :=
  if c.negative then '-' else '+'

/-- The number of lines, whatever their direction: one if there are no digits. -/
def magnitude (c : SignedCount) : Nat :=
  if c.digits.chars = [] then 1 else Numeral.value c.digits.chars

/-- The number of lines down. -/
def value (c : SignedCount) : Int :=
  if c.negative then -c.magnitude else c.magnitude

/-- What is added to an offset for a count: it stops at the largest number, and so does the sum. -/
def addTo (offset : Int) (c : SignedCount) : Int :=
  if c.negative then Address.clamp (offset - min c.magnitude Numeral.maxInt)
  else Address.clamp (offset + min c.magnitude Numeral.maxInt)

end SignedCount

/-- A base as it is written. -/
inductive WrittenBase where
  | current
  | last
  | number (digits : Digits) (ne : digits.chars ≠ [])

/-- The base that is read: a number that is too large becomes the largest one. -/
def WrittenBase.toBase : WrittenBase → LineBase
  | current => .current
  | last => .last
  | number digits _ => .number (Numeral.valueUpTo Numeral.maxNat digits.chars)

/-- An address as it is written. Its base may be left out if there are counts. -/
structure WrittenAddress where
  base : Option WrittenBase
  counts : List SignedCount
  isWritten : base ≠ none ∨ counts ≠ []

/-- The address that is read. -/
def WrittenAddress.toAddress (w : WrittenAddress) : Address where
  base := (w.base.map WrittenBase.toBase).getD .current
  offset := w.counts.foldl SignedCount.addTo 0

/-! ### Where they stand

Each relation has the whole text and what is left of it behind the part. A part goes on as far as it
can, and the rules say so by what may not follow: no digit behind digits, no sign behind counts.
That is what makes the parts of a text unique. -/

/-- Whether no digit stands at the front of a text. -/
def StartsNoDigit (text : List Char) : Prop :=
  ∀ c, text.head? = some c → c.isDigit = false

/-- `CountsAt text counts rest`: these counts stand at the front of the text, and no further one in
front of the rest. -/
inductive CountsAt : List Char → List SignedCount → List Char → Prop where
  | nil {text} : Address.startsSigned text = false → CountsAt text [] text
  | cons {c text counts rest} :
    StartsNoDigit text → CountsAt text counts rest →
      CountsAt (c.sign :: (c.digits.chars ++ text)) (c :: counts) rest

/-- `BaseAt text base rest`: this base stands at the front of the text, or none does. -/
inductive BaseAt : List Char → Option WrittenBase → List Char → Prop where
  | current {rest} : BaseAt ('.' :: rest) (some .current) rest
  | last {rest} : BaseAt ('$' :: rest) (some .last) rest
  | number {digits ne rest} :
    StartsNoDigit rest → BaseAt (digits.chars ++ rest) (some (.number digits ne)) rest
  | omitted {text} :
    (∀ c, text.head? = some c → c ≠ '.' ∧ c ≠ '$' ∧ c.isDigit = false) → BaseAt text none text

/-- `AddressAt text w rest`: this address stands at the front of the text. -/
def AddressAt (text : List Char) (w : WrittenAddress) (rest : List Char) : Prop :=
  ∃ middle, BaseAt text w.base middle ∧ CountsAt middle w.counts rest

/-- Whether a comma or a semicolon stands at the front of a text. -/
def StartsSeparator (text : List Char) : Prop :=
  ∃ c rest, text = c :: rest ∧ (c = ',' ∨ c = ';')

/-- `AddressesAt text ws rest`: these addresses stand at the front of the text. Blanks may stand
around the separators, and a separator may stand behind the last address. -/
inductive AddressesAt : List Char → List WrittenAddress → List Char → Prop where
  | nil {text} : BaseAt text none text → CountsAt text [] text → AddressesAt text [] text
  | last {text w rest} :
    AddressAt text w rest → ¬StartsSeparator (Text.trimStart rest) →
      AddressesAt text [w] (Text.trimStart rest)
  | next {text w middle c more ws rest} :
    AddressAt text w middle → Text.trimStart middle = c :: more → c = ',' ∨ c = ';' →
      AddressesAt (Text.trimStart more) ws rest → AddressesAt text (w :: ws) rest

namespace LineRange

/-- The address `1`. -/
def firstLine : WrittenAddress :=
  ⟨some (.number ⟨['1'], rfl⟩ (by decide)), [], .inl (by simp)⟩

/-- The address `$`. -/
def lastLine : WrittenAddress :=
  ⟨some .last, [], .inl (by simp)⟩

/-- `RangeAt text ws rest`: the range at the front of the text is written as these addresses, behind
blanks. A percent sign is short for `1,$`. -/
inductive RangeAt (text : List Char) : List WrittenAddress → List Char → Prop where
  | all {rest} : Text.trimStart text = '%' :: rest → RangeAt text [firstLine, lastLine] rest
  | addresses {ws rest} :
    (∀ more, Text.trimStart text ≠ '%' :: more) → AddressesAt (Text.trimStart text) ws rest →
      RangeAt text ws rest

end LineRange

theorem startsNoDigit_cons {c : Char} (h : c.isDigit = false) (text : List Char) :
    StartsNoDigit (c :: text) := by
  rintro _ ⟨⟩
  exact h

theorem not_startsSeparator_cons {c : Char} (h : c ≠ ',' ∧ c ≠ ';') (text : List Char) :
    ¬StartsSeparator (c :: text) := by
  rintro ⟨_, _, ⟨⟩, hc⟩
  exact hc.elim h.1 h.2

/-! ### Digits

The digits at the front of a text are all that there are, up to the first character that is none. -/

namespace Digits

theorem isDigit (d : Digits) : ∀ c ∈ d.chars, c.isDigit = true :=
  List.all_eq_true.mp d.all_isDigit

theorem digits_append (d : Digits) {rest : List Char} (h : StartsNoDigit rest) :
    Numeral.digits (d.chars ++ rest) = (d.chars, rest) := by
  have hrest : rest.takeWhile Char.isDigit = [] ∧ rest.dropWhile Char.isDigit = rest := by
    cases rest with
    | nil => exact ⟨rfl, rfl⟩
    | cons c rest => simp [h c rfl]
  rw [Numeral.digits, List.takeWhile_append_of_pos d.isDigit,
    List.dropWhile_append_of_pos d.isDigit, hrest.1, hrest.2, List.append_nil]

/-- The digits at the front of a text. -/
def ofText (text : List Char) : Digits :=
  ⟨text.takeWhile Char.isDigit, List.all_takeWhile⟩

theorem ofText_append (text : List Char) :
    (ofText text).chars ++ text.dropWhile Char.isDigit = text :=
  List.takeWhile_append_dropWhile

theorem startsNoDigit_dropWhile (text : List Char) :
    StartsNoDigit (text.dropWhile Char.isDigit) := by
  intro c hc
  have hhead := List.head?_dropWhile_not Char.isDigit text
  rwa [hc] at hhead

end Digits

/-! ### Counts

For counts, bases and addresses there is the same pair of facts: some stand at the front of any
text, and those that do are read. The fuel of a reader comes in as a bound on the length of the
text. -/

section Counts

variable {text rest : List Char} {counts : List SignedCount}

/-- A count is read up to the largest number. -/
theorem SignedCount.magnitude_eq (c : SignedCount) :
    Address.count c.digits.chars = min c.magnitude Numeral.maxInt := by
  rw [Address.count, SignedCount.magnitude, Numeral.valueUpTo]
  by_cases h : c.digits.chars = []
  · rw [if_pos h, if_pos (List.isEmpty_iff.mpr h)]
    rfl
  · rw [if_neg h, if_neg (by simpa using h)]

theorem CountsAt.length_le (h : CountsAt text counts rest) : rest.length ≤ text.length := by
  induction h with
  | nil => exact Nat.le_refl _
  | cons _ _ ih =>
    rw [List.length_cons, List.length_append]
    omega

/-- The counts that stand at the front of a text are read. -/
theorem readOffsets_of_countsAt (h : CountsAt text counts rest) :
    ∀ {n : Nat} (offset : Int), text.length ≤ n →
      Address.readOffsets n offset text = (counts.foldl SignedCount.addTo offset, rest) := by
  induction h with
  | @nil text hsigned =>
    intro n offset hn
    rw [Address.readOffsets]
    · rfl
    · rintro m rest - rfl
      cases hsigned
    · rintro m rest - rfl
      cases hsigned
  | @cons c text counts rest hdigit _ ih =>
    intro n offset hn
    rw [List.length_cons, List.length_append] at hn
    obtain ⟨k, rfl⟩ : ∃ k, n = k + 1 := ⟨n - 1, by omega⟩
    have hk : text.length ≤ k := by omega
    have hread := c.digits.digits_append hdigit
    rw [List.foldl_cons, ← ih (SignedCount.addTo offset c) hk, SignedCount.sign, SignedCount.addTo]
    cases c.negative with
    | false => simp only [Bool.false_eq_true, if_false, Address.readOffsets, hread, c.magnitude_eq]
    | true => simp only [if_true, Address.readOffsets, hread, c.magnitude_eq]

/-- What starts with a sign has one of the two. -/
theorem exists_sign (h : Address.startsSigned text = true) :
    ∃ (negative : Bool) (more : List Char), text = (if negative then '-' else '+') :: more := by
  rw [Address.startsSigned.eq_def] at h
  split at h
  next more => exact ⟨false, more, rfl⟩
  next more => exact ⟨true, more, rfl⟩
  next => cases h

/-- Some counts stand at the front of any text, perhaps none. -/
theorem exists_countsAt (text : List Char) : ∃ counts rest, CountsAt text counts rest := by
  induction hlength : text.length using Nat.strong_induction_on generalizing text with
  | _ n ih =>
    cases hsigned : Address.startsSigned text with
    | false => exact ⟨[], text, .nil hsigned⟩
    | true =>
      obtain ⟨negative, more, rfl⟩ := exists_sign hsigned
      have hshort : (more.dropWhile Char.isDigit).length < n := by
        have hdrop := (List.dropWhile_suffix (l := more) Char.isDigit).length_le
        rw [← hlength, List.length_cons]
        omega
      obtain ⟨counts, rest, h⟩ := ih _ hshort _ rfl
      have hcons := CountsAt.cons (c := ⟨negative, .ofText more⟩)
        (Digits.startsNoDigit_dropWhile more) h
      rw [Digits.ofText_append] at hcons
      exact ⟨_, rest, hcons⟩

end Counts

/-! ### Bases

A base has no recursion in it; what stands at the front of the text decides. -/

section Bases

variable {text rest : List Char} {base : Option WrittenBase}

theorem BaseAt.length_le (h : BaseAt text base rest) : rest.length ≤ text.length := by
  cases h with
  | current | last => simp
  | number => simp
  | omitted => exact Nat.le_refl _

/-- The base that stands at the front of a text is read. -/
theorem readBase_of_baseAt (h : BaseAt text base rest) :
    Address.readBase text = (base.map WrittenBase.toBase, rest) := by
  cases h with
  | current | last => rfl
  | @number digits ne _ hdigit =>
    have hread := digits.digits_append hdigit
    obtain ⟨c, others, hchars⟩ := List.exists_cons_of_ne_nil ne
    have hc : c.isDigit = true := digits.isDigit c (hchars ▸ List.mem_cons_self)
    rw [hchars, List.cons_append] at hread ⊢
    rw [Address.readBase_cons (by rintro rfl; cases hc) (by rintro rfl; cases hc), hread,
      if_neg (by simp)]
    simp only [Option.map_some, WrittenBase.toBase, hchars]
  | @omitted text hnone =>
    cases text with
    | nil => rfl
    | cons c more =>
      obtain ⟨hdot, hdollar, hdigit⟩ := hnone c rfl
      rw [Address.readBase_cons hdot hdollar, if_pos (by simp [Numeral.digits, hdigit])]
      rfl

/-- A base stands at the front of any text, or is left out there. -/
theorem exists_baseAt (text : List Char) : ∃ base rest, BaseAt text base rest := by
  cases text with
  | nil => exact ⟨none, [], .omitted (by rintro _ ⟨⟩)⟩
  | cons c more =>
    by_cases hdot : c = '.'
    · subst hdot
      exact ⟨_, more, .current⟩
    · by_cases hdollar : c = '$'
      · subst hdollar
        exact ⟨_, more, .last⟩
      · cases hdigit : c.isDigit with
        | false =>
          refine ⟨none, c :: more, .omitted ?_⟩
          rintro _ ⟨⟩
          exact ⟨hdot, hdollar, hdigit⟩
        | true =>
          have ne : (Digits.ofText (c :: more)).chars ≠ [] := by simp [Digits.ofText, hdigit]
          have hnumber := @BaseAt.number _ ne _ (Digits.startsNoDigit_dropWhile (c :: more))
          rw [Digits.ofText_append] at hnumber
          exact ⟨_, _, hnumber⟩

end Bases

/-! ### Addresses

An address that was left out altogether is none. So where neither a base nor a count is, the row of
addresses ends, even behind a separator. -/

section Addresses

variable {text rest : List Char} {w : WrittenAddress} {ws : List WrittenAddress}

theorem AddressAt.length_le (h : AddressAt text w rest) : rest.length ≤ text.length := by
  obtain ⟨middle, hbase, hcounts⟩ := h
  exact hcounts.length_le.trans hbase.length_le

/-- Behind an address and a separator less of the text is left. -/
theorem AddressAt.length_more {c : Char} {more : List Char} (h : AddressAt text w rest)
    (hrest : Text.trimStart rest = c :: more) : (Text.trimStart more).length < text.length := by
  have haddress := h.length_le
  have hblank : (Text.trimStart rest).length ≤ rest.length := length_dropWhile_le rest
  have hblank' : (Text.trimStart more).length ≤ more.length := length_dropWhile_le more
  rw [hrest, List.length_cons] at hblank
  omega

theorem CountsAt.startsSigned (h : CountsAt text counts rest) :
    Address.startsSigned text = !counts.isEmpty := by
  cases h with
  | nil hsigned => exact hsigned
  | @cons c =>
    rw [SignedCount.sign]
    cases c.negative <;> rfl

/-- The address that stands at the front of a text is read. -/
theorem read?_of_addressAt (h : AddressAt text w rest) :
    Address.read? text = some (w.toAddress, rest) := by
  obtain ⟨middle, hbase, hcounts⟩ := h
  have hthere :
      ((w.base.map WrittenBase.toBase).isNone && !Address.startsSigned middle) = false := by
    rw [hcounts.startsSigned]
    rcases w.isWritten with hw | hw
    · simp [hw]
    · simp [hw]
  simp only [Address.read?, readBase_of_baseAt hbase, hthere, readOffsets_of_countsAt hcounts 0
    (Nat.le_refl _)]
  rfl

/-- Where neither a base nor a count stands, no address is read. -/
theorem read?_of_none (hbase : BaseAt text none text) (hcounts : CountsAt text [] text) :
    Address.read? text = none := by
  simp [Address.read?, readBase_of_baseAt hbase, hcounts.startsSigned]

/-- An address stands at the front of a text, or neither a base nor a count does. -/
theorem exists_addressAt (text : List Char) :
    (BaseAt text none text ∧ CountsAt text [] text) ∨ ∃ w rest, AddressAt text w rest := by
  obtain ⟨base, middle, hbase⟩ := exists_baseAt text
  obtain ⟨counts, rest, hcounts⟩ := exists_countsAt middle
  by_cases hw : base ≠ none ∨ counts ≠ []
  · exact .inr ⟨⟨base, counts, hw⟩, rest, middle, hbase, hcounts⟩
  · obtain ⟨hnone, hnil⟩ : base = none ∧ counts = [] := by simpa using hw
    subst hnone hnil
    cases hbase
    cases hcounts
    exact .inl ⟨.omitted ‹_›, .nil ‹_›⟩

theorem AddressAt.ne_nil (h : AddressAt text w rest) : text ≠ [] := by
  rintro rfl
  have hread := read?_of_addressAt h
  cases hread

end Addresses

namespace LineRange

variable {text rest : List Char} {ws : List WrittenAddress}

/-- The addresses that stand at the front of a text are read. -/
theorem readAddresses_of_addressesAt (h : AddressesAt text ws rest) :
    ∀ {n : Nat}, text.length ≤ n →
      readAddresses n text = (ws.map WrittenAddress.toAddress, rest) := by
  induction h with
  | @nil text hbase hcounts =>
    intro n _
    cases n with
    | zero => rfl
    | succ n => rw [readAddresses, read?_of_none hbase hcounts]; rfl
  | @last text w rest hw hrest =>
    intro n hn
    have hpos := List.length_pos_iff.mpr hw.ne_nil
    obtain ⟨k, rfl⟩ : ∃ k, n = k + 1 := ⟨n - 1, by omega⟩
    rw [readAddresses_last k (read?_of_addressAt hw)]
    · rfl
    · intro c more hstart
      exact not_or.mp fun hc => hrest ⟨c, more, hstart, hc⟩
  | @next text w middle c more ws rest hw hmiddle hc _ ih =>
    intro n hn
    have hpos := List.length_pos_iff.mpr hw.ne_nil
    obtain ⟨k, rfl⟩ : ∃ k, n = k + 1 := ⟨n - 1, by omega⟩
    have hshort := hw.length_more hmiddle
    rw [readAddresses_separator k (read?_of_addressAt hw) hmiddle hc, ih (by omega)]
    rfl

/-- Some addresses stand at the front of any text, perhaps none. -/
theorem exists_addressesAt (text : List Char) : ∃ ws rest, AddressesAt text ws rest := by
  induction hlength : text.length using Nat.strong_induction_on generalizing text with
  | _ n ih =>
    rcases exists_addressAt text with ⟨hbase, hcounts⟩ | ⟨w, middle, hw⟩
    · exact ⟨[], text, .nil hbase hcounts⟩
    · by_cases hseparator : StartsSeparator (Text.trimStart middle)
      · obtain ⟨c, more, hmiddle, hc⟩ := hseparator
        obtain ⟨ws, rest, h⟩ := ih _ (hlength ▸ hw.length_more hmiddle) _ rfl
        exact ⟨w :: ws, rest, .next hw hmiddle hc h⟩
      · exact ⟨[w], _, .last hw hseparator⟩

/-- **Each text has a range at its front**, perhaps without addresses. -/
theorem exists_rangeAt (text : List Char) : ∃ ws rest, RangeAt text ws rest := by
  by_cases hall : ∃ more, Text.trimStart text = '%' :: more
  · obtain ⟨more, hall⟩ := hall
    exact ⟨_, more, .all hall⟩
  · obtain ⟨ws, rest, h⟩ := exists_addressesAt (Text.trimStart text)
    exact ⟨ws, rest, .addresses (not_exists.mp hall) h⟩

/-- **The range at the front of a text is read.** -/
theorem parse_of_rangeAt (h : RangeAt text ws rest) :
    parse text = (⟨ws.map WrittenAddress.toAddress⟩, rest) := by
  cases h with
  | all hall =>
    have hfirst : firstLine.toAddress = ⟨.number 1, 0⟩ := by decide
    have hlast : lastLine.toAddress = ⟨.last, 0⟩ := by decide
    rw [parse, hall, List.map_cons, List.map_singleton, hfirst, hlast]
    rfl
  | addresses hnot haddresses =>
    rw [parse]
    split
    next hall => exact absurd hall (hnot _)
    next => rw [readAddresses_of_addressesAt haddresses (Nat.le_refl _)]

end LineRange

end ExScript
