import ExScript.Statement.Line
import Mathlib.Data.List.TakeWhile

/-!
# A carriage return at the end of a line

A line break is a line feed, or a carriage return followed by one. At the end of a text there is no
line feed, so a carriage return that stands there is a part of the last line, and the same text in
front of another one has a line without it. The statements of the line are the same: they are
trimmed, and a blank behind everything else changes none of the places at which the reader cuts.

The last of these is not obvious. Whether a line is one statement depends on the keyword behind its
range, and reading a range passes over blanks between addresses, so the carriage return may be
passed over with them or be left.

## Where it is needed

Two scripts with a line feed between them are one script (`Proofs/Script/Seam.lean`). If the first
ends with a carriage return, this is a part of its last line as long as the script stands alone, and
a part of the line break as soon as something follows. So the two have different lines, and that
they have the same statements is what this module says. Without it the result would need a
hypothesis that excludes such scripts, and files that were written elsewhere are often of this kind.

## How it is shown

For each function that reads from the front of a line there is a lemma with `_return` in its name:
what it says of a text with a carriage return behind it, in terms of the text. There are three
kinds.

* What stops in front of the carriage return leaves it behind: digits, signs, names.
* What drops blanks takes it if it takes everything, and otherwise leaves it
  (`Text.dropWhile_return`). Behind a range either may happen, and `IsReturned` allows for both.
* What trims at the end does not see it.

The functions count down the length of the text they get. With one character more there is one more
to count, so the lemmas compare two counts, each large enough for its text.

Nothing here is special about a carriage return but that it is blank, no mark, and the beginning of
nothing. That a line break is read in this way is a matter of `Text.lines` and of the other module.

## Main results

* `LineRange.parse_return` — what is left behind a range
* `Script.splitBars_return` — the statements of a line
-/

namespace ExScript

/-! ### Trimming -/

namespace Text

/-- At the end it is trimmed. -/
theorem trimEnd_return (text : List Char) : trimEnd (text ++ ['\r']) = trimEnd text := by
  have blank : isBlank '\r' = true := by decide
  rw [trimEnd, trimEnd, List.reverse_append, List.reverse_singleton, List.singleton_append,
    List.dropWhile_cons_of_pos blank]

/-- Dropping from the front of a text takes the carriage return only if it takes everything. -/
theorem dropWhile_return {p : Char → Bool} (hp : p '\r') (text : List Char) :
    text.dropWhile p = [] ∧ (text ++ ['\r']).dropWhile p = [] ∨
      text.dropWhile p ≠ [] ∧ (text ++ ['\r']).dropWhile p = text.dropWhile p ++ ['\r'] := by
  rw [List.dropWhile_append]
  cases h : text.dropWhile p with
  | nil => exact .inl ⟨rfl, by simp [hp]⟩
  | cons c rest => exact .inr ⟨List.cons_ne_nil c rest, by simp⟩

/-- In particular dropping blanks. The cases are told apart by whether anything is left, since in
one of them the carriage return is a blank in front of nothing. -/
theorem trimStart_return (text : List Char) :
    trimStart text = [] ∧ trimStart (text ++ ['\r']) = [] ∨
      trimStart text ≠ [] ∧ trimStart (text ++ ['\r']) = trimStart text ++ ['\r'] :=
  dropWhile_return (by decide) text

end Text

/-! ### Ranges

A range is read from left to right: a base and signed counts for each address, separators between
them. None of these begins with a carriage return, so whatever is read in front of one stops there.
-/

section Spans

variable {p : Char → Bool}

theorem takeWhile_return (hp : p '\r' = false) (text : List Char) :
    (text ++ ['\r']).takeWhile p = text.takeWhile p := by
  induction text with
  | nil => simp [hp]
  | cons c text ih => cases hc : p c <;> simp [hc, ih]

theorem dropWhile_return (hp : p '\r' = false) (text : List Char) :
    (text ++ ['\r']).dropWhile p = text.dropWhile p ++ ['\r'] := by
  induction text with
  | nil => simp [hp]
  | cons c text ih => cases hc : p c <;> simp [hc, ih]

/-- What is dropped makes a text no longer, which is what counts are compared by. -/
theorem length_dropWhile_le (text : List Char) : (text.dropWhile p).length ≤ text.length :=
  (List.dropWhile_sublist p).length_le

end Spans

/-- A rest of a text, and the rest of the text with a carriage return behind it, which may have been
passed over. -/
def IsReturned (rest rest' : List Char) : Prop :=
  rest' = rest ++ ['\r'] ∨ rest' = rest

/-- A carriage return is no digit. -/
theorem Numeral.digits_return (text : List Char) :
    Numeral.digits (text ++ ['\r']) =
      ((Numeral.digits text).1, (Numeral.digits text).2 ++ ['\r']) := by
  rw [digits, takeWhile_return (by decide), dropWhile_return (by decide)]
  rfl

namespace Address

/-- Digits are taken from the front. -/
theorem length_digits_le (text : List Char) : (Numeral.digits text).2.length ≤ text.length :=
  length_dropWhile_le text

/-- Signed counts are read as far as they go if there is enough fuel. -/
theorem readOffsets_return {n : Nat} : ∀ {n' : Nat} {text : List Char} (offset : Int),
    text.length ≤ n → text.length + 1 ≤ n' →
      readOffsets n' offset (text ++ ['\r']) =
        ((readOffsets n offset text).1, (readOffsets n offset text).2 ++ ['\r']) := by
  induction n with
  | zero =>
    intro n' text offset hn hn'
    obtain rfl : text = [] := List.eq_nil_of_length_eq_zero (by omega)
    obtain ⟨k, rfl⟩ : ∃ k, n' = k + 1 := ⟨n' - 1, by omega⟩
    rfl
  | succ n ih =>
    intro n' text offset hn hn'
    obtain ⟨k, rfl⟩ : ∃ k, n' = k + 1 := ⟨n' - 1, by omega⟩
    cases text with
    | nil => rfl
    | cons c text =>
      rw [List.length_cons] at hn hn'
      have hle := length_digits_le text
      by_cases hplus : c = '+'
      · subst hplus
        rw [List.cons_append, readOffsets, readOffsets, Numeral.digits_return]
        exact ih _ (by omega) (by omega)
      · by_cases hminus : c = '-'
        · subst hminus
          rw [List.cons_append, readOffsets, readOffsets, Numeral.digits_return]
          exact ih _ (by omega) (by omega)
        · simp [readOffsets, hplus, hminus]

/-- A base that is neither a dot nor a dollar sign is a number, if there are any digits. -/
theorem readBase_cons {c : Char} (hdot : c ≠ '.') (hdollar : c ≠ '$') (rest : List Char) :
    readBase (c :: rest) =
      if (Numeral.digits (c :: rest)).1.isEmpty then (none, c :: rest)
      else (some (.number (Numeral.valueUpTo Numeral.maxNat (Numeral.digits (c :: rest)).1)),
        (Numeral.digits (c :: rest)).2) := by
  rw [readBase]
  · simpa using hdot
  · simpa using hdollar

/-- The base of an address. A text that is empty becomes one that begins with a carriage return, and
this is no base either. -/
theorem readBase_return (text : List Char) :
    readBase (text ++ ['\r']) = ((readBase text).1, (readBase text).2 ++ ['\r']) := by
  cases text with
  | nil => decide
  | cons c text =>
    by_cases hdot : c = '.'
    · subst hdot
      rfl
    · by_cases hdollar : c = '$'
      · subst hdollar
        rfl
      · have digits := Numeral.digits_return (c :: text)
        rw [List.cons_append] at digits ⊢
        rw [readBase_cons hdot hdollar, readBase_cons hdot hdollar, digits]
        dsimp only
        split <;> rfl

/-- Nor is it a sign. -/
theorem startsSigned_return (text : List Char) :
    startsSigned (text ++ ['\r']) = startsSigned text := by
  cases text with
  | nil => decide
  | cons c text =>
    rw [List.cons_append, startsSigned.eq_def, startsSigned.eq_def]
    split <;> simp_all

/-- **An address is the same**, and the carriage return is left behind it. -/
theorem read?_return (text : List Char) :
    read? (text ++ ['\r']) = (read? text).map fun r => (r.1, r.2 ++ ['\r']) := by
  have offsets : readOffsets ((readBase text).2 ++ ['\r']).length 0 ((readBase text).2 ++ ['\r']) =
      ((readOffsets (readBase text).2.length 0 (readBase text).2).1,
        (readOffsets (readBase text).2.length 0 (readBase text).2).2 ++ ['\r']) :=
    readOffsets_return 0 (Nat.le_refl _) (by simp)
  rw [read?, read?, readBase_return]
  simp only [startsSigned_return, offsets]
  split <;> rfl

/-! What is left behind an address is no longer than the text, so the count for the addresses behind
it is large enough. -/

theorem length_readOffsets_le {n : Nat} : ∀ (offset : Int) (text : List Char),
    (readOffsets n offset text).2.length ≤ text.length := by
  induction n with
  | zero => exact fun _ _ => Nat.le_refl _
  | succ n ih =>
    intro offset text
    cases text with
    | nil => exact Nat.le_refl _
    | cons c text =>
      have hle := length_digits_le text
      rw [List.length_cons]
      by_cases hplus : c = '+'
      · subst hplus
        rw [readOffsets]
        exact ((ih _ _).trans hle).trans (Nat.le_succ _)
      · by_cases hminus : c = '-'
        · subst hminus
          rw [readOffsets]
          exact ((ih _ _).trans hle).trans (Nat.le_succ _)
        · simp [readOffsets, hplus, hminus]

theorem length_read?_le {text rest : List Char} {a : Address} (h : read? text = some (a, rest)) :
    rest.length ≤ text.length := by
  have hbase : (readBase text).2.length ≤ text.length := by
    rw [readBase.eq_def]
    split
    · simp
    · simp
    · dsimp only
      split
      · exact Nat.le_refl _
      · exact length_digits_le text
  rw [read?] at h
  dsimp only at h
  split at h
  · cases h
  · cases h
    exact (length_readOffsets_le 0 _).trans hbase

end Address

namespace LineRange

/-! Behind an address stands a separator, perhaps behind blanks, or the addresses end there. -/

theorem readAddresses_nil (n : Nat) : readAddresses n [] = ([], []) := by
  cases n <;> rfl

variable {text rest more : List Char} {address : Address}

theorem readAddresses_separator (n : Nat) (h : Address.read? text = some (address, rest)) {c : Char}
    (hrest : Text.trimStart rest = c :: more) (hc : c = ',' ∨ c = ';') :
    readAddresses (n + 1) text =
      (address :: (readAddresses n (Text.trimStart more)).1,
        (readAddresses n (Text.trimStart more)).2) := by
  simp only [readAddresses, h, hrest]
  rcases hc with rfl | rfl <;> rfl

theorem readAddresses_last (n : Nat) (h : Address.read? text = some (address, rest))
    (hrest : ∀ c more, Text.trimStart rest = c :: more → c ≠ ',' ∧ c ≠ ';') :
    readAddresses (n + 1) text = ([address], Text.trimStart rest) := by
  simp only [readAddresses, h]
  split
  next hcomma => exact absurd rfl (hrest _ _ hcomma).1
  next hsemicolon => exact absurd rfl (hrest _ _ hsemicolon).2
  next => rfl

/-- Addresses are read as far as they go if there is enough fuel. Blanks in front of a separator are
passed over, and with them the carriage return if there is no separator. -/
theorem readAddresses_return {n : Nat} : ∀ {n' : Nat} {text : List Char},
    text.length ≤ n → text.length + 1 ≤ n' →
      (readAddresses n' (text ++ ['\r'])).1 = (readAddresses n text).1 ∧
        IsReturned (readAddresses n text).2 (readAddresses n' (text ++ ['\r'])).2 := by
  induction n with
  | zero =>
    intro n' text hn hn'
    obtain rfl : text = [] := List.eq_nil_of_length_eq_zero (by omega)
    obtain ⟨k, rfl⟩ : ∃ k, n' = k + 1 := ⟨n' - 1, by omega⟩
    exact ⟨rfl, .inl rfl⟩
  | succ n ih =>
    intro n' text hn hn'
    obtain ⟨k, rfl⟩ : ∃ k, n' = k + 1 := ⟨n' - 1, by omega⟩
    have hread := Address.read?_return text
    cases h : Address.read? text with
    | none =>
      rw [h] at hread
      simp only [readAddresses, h, hread, Option.map_none]
      exact ⟨trivial, .inl rfl⟩
    | some found =>
      obtain ⟨address, rest⟩ := found
      rw [h, Option.map_some] at hread
      have hle := Address.length_read?_le h
      -- Nothing is left behind the address but blanks, or something begins there.
      rcases Text.trimStart_return rest with ⟨hrest, hrest'⟩ | ⟨hne, hrest'⟩
      · rw [readAddresses_last n h (by simp [hrest]), readAddresses_last k hread (by simp [hrest']),
          hrest, hrest']
        exact ⟨rfl, .inr rfl⟩
      · obtain ⟨c, more, hrest⟩ := List.exists_cons_of_ne_nil hne
        rw [hrest, List.cons_append] at hrest'
        by_cases hc : c = ',' ∨ c = ';'
        · rw [readAddresses_separator n h hrest hc, readAddresses_separator k hread hrest' hc]
          have hmore : more.length < rest.length := by
            have trimmed : (Text.trimStart rest).length ≤ rest.length := length_dropWhile_le rest
            rw [hrest, List.length_cons] at trimmed
            omega
          have hstart : (Text.trimStart more).length ≤ more.length := length_dropWhile_le more
          -- A separator may be the last thing on the line, and then there are no more addresses.
          rcases Text.trimStart_return more with ⟨hnil, hnil'⟩ | ⟨-, hstart'⟩
          · rw [hnil, hnil', readAddresses_nil, readAddresses_nil]
            exact ⟨rfl, .inr rfl⟩
          · have hn₁ : (Text.trimStart more).length ≤ n := by omega
            have hk₁ : (Text.trimStart more).length + 1 ≤ k := by omega
            obtain ⟨hothers, hreturned⟩ := ih hn₁ hk₁
            rw [hstart', hothers]
            exact ⟨rfl, hreturned⟩
        · have last : ∀ {start rest : List Char}, start = c :: rest →
              ∀ d others, start = d :: others → d ≠ ',' ∧ d ≠ ';' := by
            rintro _ _ rfl _ _ ⟨⟩
            exact not_or.mp hc
          rw [readAddresses_last n h (last hrest), readAddresses_last k hread (last hrest'), hrest,
            hrest']
          exact ⟨rfl, .inl rfl⟩

/-- **The range at the front of a text is the same**, and what is left is the same, with the
carriage return or without it. -/
theorem parse_return (text : List Char) :
    (parse (text ++ ['\r'])).1 = (parse text).1 ∧
      IsReturned (parse text).2 (parse (text ++ ['\r'])).2 := by
  rcases Text.trimStart_return text with ⟨hstart, hstart'⟩ | ⟨hne, hstart'⟩
  · rw [parse, parse, hstart, hstart']
    exact ⟨rfl, .inr rfl⟩
  · obtain ⟨c, rest, hstart⟩ := List.exists_cons_of_ne_nil hne
    rw [hstart, List.cons_append] at hstart'
    by_cases hc : c = '%'
    · subst hc
      rw [parse, parse, hstart, hstart']
      exact ⟨rfl, .inl rfl⟩
    · have unfolded : ∀ {text rest : List Char}, Text.trimStart text = c :: rest →
          parse text = (⟨(readAddresses (c :: rest).length (c :: rest)).1⟩,
            (readAddresses (c :: rest).length (c :: rest)).2) := by
        intro text rest h
        rw [parse, h]
        split
        next hall =>
          cases hall
          exact absurd rfl hc
        next => rfl
      have hlength : (c :: rest).length + 1 ≤ (c :: (rest ++ ['\r'])).length := by simp
      obtain ⟨haddresses, hreturned⟩ := readAddresses_return (Nat.le_refl _) hlength
      rw [List.cons_append] at haddresses hreturned
      rw [unfolded hstart, unfolded hstart', haddresses]
      exact ⟨rfl, hreturned⟩

end LineRange

namespace Script

/-! ### Keywords

A name is made of letters, or of letters and digits if it begins with a capital one. What characters
it may have depends on the text, and so on a text that consists of the carriage return alone. -/

theorem nameOf_return {rest rest' : List Char} (h : IsReturned rest rest') :
    Keyword.nameOf rest' = Keyword.nameOf rest := by
  rcases h with rfl | rfl
  · have starts : Keyword.startsUppercase (rest ++ ['\r']) = Keyword.startsUppercase rest := by
      cases rest with
      | nil => decide
      | cons c rest => rfl
    have same : Keyword.isNameChar (rest ++ ['\r']) = Keyword.isNameChar rest := by
      funext c
      rw [Keyword.isNameChar, Keyword.isNameChar, starts]
    have notName : Keyword.isNameChar rest '\r' = false := by
      have notAlpha : Char.isAlpha '\r' = false := by decide
      have notDigit : Char.isDigit '\r' = false := by decide
      rw [Keyword.isNameChar, notAlpha, notDigit, Bool.and_false, Bool.or_false]
    rw [Keyword.nameOf, same, takeWhile_return notName]
    rfl
  · rfl

/-- Whether the carriage return was passed over with the range is forgotten here. -/
theorem keywordOf_return (statement : List Char) :
    keywordOf (statement ++ ['\r']) = keywordOf statement := by
  obtain ⟨-, hreturned⟩ := LineRange.parse_return statement
  rw [keywordOf, keywordOf, nameOf_return hreturned]

/-- Colons in front of a statement are dropped together with the blanks between them. -/
theorem dropColons_return (text : List Char) :
    dropColons text = [] ∧ dropColons (text ++ ['\r']) = [] ∨
      dropColons text ≠ [] ∧ dropColons (text ++ ['\r']) = dropColons text ++ ['\r'] :=
  Text.dropWhile_return (by decide) text

/-- So a statement is the same once it is trimmed. -/
theorem stripColons_return (text : List Char) :
    stripColons (text ++ ['\r']) = stripColons text := by
  rcases dropColons_return text with ⟨hdrop, hdrop'⟩ | ⟨-, hdrop'⟩
  · rw [stripColons, stripColons, hdrop, hdrop']
  · rw [stripColons, stripColons, hdrop', Text.trimEnd_return]

/-- And it takes the whole line or does not. -/
theorem takesLine_return (rest : List Char) : takesLine (rest ++ ['\r']) = takesLine rest := by
  rcases dropColons_return rest with ⟨hdrop, hdrop'⟩ | ⟨hne, hdrop'⟩
  · rw [takesLine, takesLine, hdrop, hdrop']
  · obtain ⟨c, more, hdrop⟩ := List.exists_cons_of_ne_nil hne
    have comment : isComment (c :: more ++ ['\r']) = isComment (c :: more) := by
      rw [List.cons_append, isComment.eq_def, isComment.eq_def]
      split <;> simp_all
    rw [hdrop] at hdrop'
    rw [takesLine, takesLine, hdrop, hdrop', keywordOf_return, comment]

/-! ### Bars

A line is cut at the first bar that is one, and the reader keeps track of quotes on the way. The
carriage return is behind everything, so it goes to the last piece. It stands behind a quote that is
open, or behind a backslash, without being anything but a character there. -/

/-- What a cut becomes with a carriage return behind the line. -/
def returnedCut : List Char × Option (List Char) → List Char × Option (List Char)
  | (statement, none) => (statement ++ ['\r'], none)
  | (statement, some rest) => (statement, some (rest ++ ['\r']))

theorem returnedCut_cons (c : Char) (cut : List Char × Option (List Char)) :
    returnedCut (c :: cut.1, cut.2) = (c :: (returnedCut cut).1, (returnedCut cut).2) := by
  rcases cut with ⟨statement, _ | rest⟩ <;> rfl

/-- The first character is the same with a carriage return behind a text, unless there is none. -/
theorem ne_cons_return {c : Char} (hc : c ≠ '\r') {text : List Char}
    (h : ∀ rest, text = c :: rest → False) (rest : List Char) : text ++ ['\r'] = c :: rest → False := by
  cases text with
  | nil =>
    rintro ⟨⟩
    exact hc rfl
  | cons d text =>
    rintro ⟨⟩
    exact h text rfl

/-- The cases are those of the function. In each the first character, or the first two, are the
same, and the carriage return is not the second one. -/
theorem cutAtBar_return (quote : Option Quote) (line : List Char) :
    cutAtBar quote (line ++ ['\r']) = returnedCut (cutAtBar quote line) := by
  fun_induction cutAtBar quote line with
  | case1 quote => rcases quote with _ | _ | _ <;> rfl
  | case2 rest ih => simp only [List.cons_append, cutAtBar, ih, returnedCut_cons]
  | case3 rest ih =>
    rw [returnedCut_cons '|' ('|' :: _, _), returnedCut_cons, ← ih]
    rfl
  | case4 rest hrest =>
    rw [List.cons_append, cutAtBar]
    · rfl
    · exact ne_cons_return (by decide) hrest
  | case5 rest ih => simp only [List.cons_append, cutAtBar, ih, returnedCut_cons]
  | case6 rest ih => simp only [List.cons_append, cutAtBar, ih, returnedCut_cons]
  | case7 rest ih => simp only [List.cons_append, cutAtBar, ih, returnedCut_cons]
  | case8 rest ih => simp only [List.cons_append, cutAtBar, ih, returnedCut_cons]
  | case9 c rest ih =>
    rw [returnedCut_cons '\\' (c :: _, _), returnedCut_cons, ← ih]
    simp only [List.cons_append, cutAtBar]
  | case10 quote c rest hbackslash hbars hbar hsingle hdouble hclose hclose' hescape ih =>
    rw [returnedCut_cons, ← ih, List.cons_append]
    by_cases hquoted : quote = some .double ∧ c = '\\'
    · -- The backslash is the last character, so the carriage return stands behind it.
      obtain ⟨rfl, rfl⟩ := hquoted
      cases rest with
      | nil => rfl
      | cons d rest => exact (hescape d rest rfl rfl rfl).elim
    · rw [cutAtBar]
      · exact fun others hq hc => ne_cons_return (by decide) (hbackslash · hq hc) others
      · exact fun others hq hc => ne_cons_return (by decide) (hbars · hq hc) others
      · exact hbar
      · exact hsingle
      · exact hdouble
      · exact hclose
      · exact hclose'
      · exact fun _ _ hq hc _ => hquoted ⟨hq, hc⟩

/-- What is behind a bar is shorter than the line. -/
theorem length_of_cutAtBar {quote : Option Quote} {line rest : List Char}
    (h : (cutAtBar quote line).2 = some rest) : rest.length < line.length := by
  fun_induction cutAtBar quote line with
  | case1 => cases h
  | case4 others =>
    cases h
    exact Nat.lt_succ_self _
  | case2 others ih | case3 others ih | case9 _ others ih =>
    exact (ih h).trans (Nat.lt_add_of_pos_right (Nat.zero_lt_two))
  | case5 others ih | case6 others ih | case7 others ih | case8 others ih =>
    exact (ih h).trans (Nat.lt_succ_self _)
  | case10 _ _ others _ _ _ _ _ _ _ _ ih => exact (ih h).trans (Nat.lt_succ_self _)

/-- A line is cut at the same places if there is enough fuel. -/
theorem splitUpTo_return {n : Nat} : ∀ {n' : Nat} {line : List Char},
    line.length < n → line.length + 1 < n' →
      (splitUpTo n' (line ++ ['\r'])).map stripColons = (splitUpTo n line).map stripColons := by
  induction n with
  | zero => exact fun hn => absurd hn (Nat.not_lt_zero _)
  | succ n ih =>
    intro n' line hn hn'
    obtain ⟨k, rfl⟩ : ∃ k, n' = k + 1 := ⟨n' - 1, by omega⟩
    rw [splitUpTo, splitUpTo, takesLine_return, cutAtBar_return]
    split
    · simp only [List.map_cons, stripColons_return]
    · rcases hcut : cutAtBar none line with ⟨statement, _ | rest⟩
      · simp only [returnedCut, List.map_cons, stripColons_return]
      · have hlength := length_of_cutAtBar (congrArg Prod.snd hcut)
        simp only [returnedCut, List.map_cons]
        rw [ih (by omega) (by omega)]

/-- **A carriage return behind a line changes none of its statements.** -/
theorem splitBars_return (line : List Char) :
    (splitBars (line ++ ['\r'])).map stripColons = (splitBars line).map stripColons :=
  splitUpTo_return (Nat.lt_succ_self _) (by simp)

end Script

end ExScript
