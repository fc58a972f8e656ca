import ExScript.Proofs.Expr.VariableName
import ExScript.Proofs.Script.Plain

/-!
# Bars and tokens

A line is cut into statements before anything is known about the expressions in it, and yet a bar in
a string must not cut. So quotes are looked at twice, by two readers: the one that cuts lines keeps
the quote that is open and goes on from character to character, and the one of expressions takes a
whole literal at once. They agree. A line is cut at the first bar that is a token of its own, and at
no other: not at one in a literal, not at half of an `||`.

The proof follows the tokens. Up to the rest behind a token that is no bar the line is passed over
without a cut, and then both readers are at the same place, outside of quotes (`Passes`). Two single
quotes in a literal are where they go different ways: one reader closes the literal and opens it
again, for the other it goes on.

A backslash takes away the meaning of a bar behind it, of which the reader of expressions knows
nothing. So there must be none outside of the literals. That is the one condition: the line need not
hold an expression, or anything that can be read. Every text is cut into tokens, since a character
without a meaning is one, and a quote that is never closed is a literal up to the end of the text.

How a line goes on behind the first bar is not said here. What is behind it is cut again, and the
same can be said of that.

## Main definitions

* `Lexeme.IsInner` — a token behind which a line goes on
* `Passes` — a line is read up to a rest without being cut
* `firstBar?` — the first bar that is a token
* `HasNoEscapedBar` — no backslash outside of the literals stands in front of a bar

## Main results

* `passes_of_next` — a token that is no bar is passed over
* `cutAtBar_iff_firstBar` — a line is cut at the first bar that is a token
-/

namespace ExScript

/-- A token that has no say in where a line is cut: it is no bar, and it takes no bar its
meaning. -/
structure Lexeme.IsInner (l : Lexeme) : Prop where
  notBar : l.token ≠ .unknown '|'
  notEscape : l.token = .unknown '\\' → l.rest.head? ≠ some '|'

namespace Script

/-! ### Passing over the front of a line

Where the reader of lines is, is given by a rest and by the quote that is open. `Passes` says that
it gets from one such place to another, outside of quotes, with nothing to show for it but the text
in between. Such ways can be put one behind the other, and each token will be one of them. -/

/-- `Passes quote text rest`: from the front of the text, where this quote is open, up to the rest,
where none is, nothing is cut and nothing is changed. -/
def Passes (quote : Option Quote) (text rest : List Char) : Prop :=
  ∃ read, text = read ++ rest ∧
    cutAtBar quote text = (read ++ (cutAtBar none rest).1, (cutAtBar none rest).2)

namespace Passes

variable {quote quote' : Option Quote} {text middle rest : List Char}

theorem refl (text : List Char) : Passes none text text :=
  ⟨[], rfl, rfl⟩

theorem trans (h : Passes quote text middle) (h' : Passes none middle rest) :
    Passes quote text rest := by
  obtain ⟨read, rfl, hcut⟩ := h
  obtain ⟨more, rfl, hmore⟩ := h'
  exact ⟨read ++ more, by rw [List.append_assoc], by rw [hcut, hmore, List.append_assoc]⟩

theorem suffix (h : Passes quote text rest) : rest <:+ text := by
  obtain ⟨read, rfl, -⟩ := h
  exact List.suffix_append read rest

/-- A character that is kept, and after which a quote is open or not. -/
theorem cons {c : Char} (h : Passes quote' text rest)
    (hcut : cutAtBar quote (c :: text) =
      (c :: (cutAtBar quote' text).1, (cutAtBar quote' text).2)) :
    Passes quote (c :: text) rest := by
  obtain ⟨read, rfl, hread⟩ := h
  exact ⟨c :: read, rfl, by rw [hcut, hread, List.cons_append]⟩

end Passes

section Parts

variable {rest : List Char}

/-- A character without a say in where statements end is passed over. -/
theorem passes_plain {c : Char} (hc : isMark c = false) (rest : List Char) :
    Passes none (c :: rest) rest := by
  simp only [isMark, Bool.or_eq_false_iff, beq_eq_false_iff_ne] at hc
  obtain ⟨⟨⟨hbar, hbackslash⟩, hsingle⟩, hdouble⟩ := hc
  refine (Passes.refl rest).cons ?_
  rw [cutAtBar] <;> simp_all

/-- So are all characters of a class that has no mark in it. -/
theorem passes_dropWhile {p : Char → Bool} (hp : ∀ c, p c = true → isMark c = false)
    (text : List Char) : Passes none text (text.dropWhile p) := by
  induction text with
  | nil => exact .refl []
  | cons c text ih =>
    cases hc : p c with
    | false =>
      rw [List.dropWhile_cons_of_neg (by simp [hc])]
      exact .refl _
    | true =>
      rw [List.dropWhile_cons_of_pos hc]
      exact (passes_plain (hp c hc) text).trans ih

theorem passes_bars (rest : List Char) : Passes none ('|' :: '|' :: rest) rest :=
  ⟨['|', '|'], rfl, by rw [cutAtBar]; rfl⟩

/-- A backslash does nothing if there is no bar behind it. -/
theorem passes_backslash (h : rest.head? ≠ some '|') : Passes none ('\\' :: rest) rest := by
  refine (Passes.refl rest).cons ?_
  cases rest with
  | nil => rfl
  | cons c rest =>
    have hc : c ≠ '|' := fun heq => h (congrArg some heq)
    rw [cutAtBar]
    · rintro _ - - ⟨⟩
      exact hc rfl
    all_goals simp

/-! ### Literals

The reader of lines is behind the opening quote. Where the reader of expressions takes two
characters at once, the reader of lines goes out of the literal and in again, or passes over a
character behind a backslash. Both come to the end of the literal together. -/

/-- Between single quotes, a quote that is written twice closes the literal and opens it again. -/
theorem passes_readSingle (text : List Char) :
    Passes (some .single) text (Text.readSingle text).2 := by
  fun_induction Text.readSingle text with
  | case1 => exact ⟨[], rfl, rfl⟩
  | case2 rest ih =>
    have hopens : Passes none ('\'' :: rest) (Text.readSingle rest).2 := ih.cons rfl
    exact hopens.cons rfl
  | case3 rest => exact (Passes.refl rest).cons rfl
  | case4 c rest _ hc ih =>
    refine ih.cons ?_
    rw [cutAtBar] <;> simp_all

/-- Between double quotes, both readers take a backslash and the character behind it together. -/
theorem passes_readDouble (text : List Char) :
    Passes (some .double) text (Text.readDouble text).2 := by
  fun_induction Text.readDouble text with
  | case1 => exact ⟨[], rfl, rfl⟩
  | case2 rest => exact (Passes.refl rest).cons rfl
  | case3 => exact ⟨['\\'], rfl, rfl⟩
  | case4 c rest ih =>
    obtain ⟨read, hread, hcut⟩ := ih
    refine ⟨'\\' :: c :: read, congrArg (fun text => '\\' :: c :: text) hread, ?_⟩
    rw [cutAtBar, hcut]
    rfl
  | case5 c rest hquote hlast hescape ih =>
    refine ih.cons ?_
    rw [cutAtBar] <;> simp_all

/-! ### Tokens

One lemma for each kind of token. Numbers and names are made of characters without a say; for
symbols the two that begin with a mark, `||` and a backslash, have lemmas of their own. -/

theorem isMark_of_isNameChar {c : Char} (h : Lexeme.isNameChar c = true) : isMark c = false := by
  rw [Lexeme.isNameChar, Bool.or_eq_true, beq_iff_eq] at h
  rcases h with h | rfl
  · exact isMark_of_isAlphanum h
  · decide

theorem isMark_of_isSeparator {c : Char} (h : Lexeme.isSeparator c = true) : isMark c = false := by
  rw [Lexeme.isSeparator, Bool.or_eq_true, beq_iff_eq, beq_iff_eq] at h
  rcases h with rfl | rfl <;> decide

theorem passes_readNumber (c : Char) (rest : List Char) :
    Passes none (c :: rest) (Lexeme.readNumber (c :: rest)).rest :=
  passes_dropWhile (fun _ hd => isMark_of_isAlphanum (isAlphanum_iff.mpr (.inr hd))) (c :: rest)

theorem passes_readScopedName {c : Char} (hc : isMark c = false) (rest : List Char) :
    Passes none (c :: rest) (Lexeme.readScopedName c rest).rest := by
  have name (text : List Char) : Passes none text (text.dropWhile Lexeme.isNameChar) :=
    passes_dropWhile (fun _ => isMark_of_isNameChar) text
  refine (passes_plain hc rest).trans ?_
  rw [Lexeme.readScopedName.eq_def]
  split
  · split
    · exact (passes_plain (by decide) _).trans (name _)
    · exact name _
  · exact name _

/-- An operator or a bracket is passed over, and so is any character without a meaning but the two
that matter. -/
theorem passes_readSymbol {c : Char} (hsingle : c ≠ '\'') (hdouble : c ≠ '"') (rest : List Char)
    (h : (Lexeme.readSymbol c rest).IsInner) :
    Passes none (c :: rest) (Lexeme.readSymbol c rest).rest := by
  revert h
  fun_cases Lexeme.readSymbol c rest with
  | case24 =>
    intro h
    by_cases hbackslash : c = '\\'
    · subst hbackslash
      exact passes_backslash (h.notEscape rfl)
    · have hbar : c ≠ '|' := fun heq => h.notBar (congrArg Token.unknown heq)
      exact passes_plain (by simp [isMark, hbar, hbackslash, hsingle, hdouble]) rest
  | case18 => exact fun _ => passes_bars _
  | case6 | case8 | case9 | case11 | case12 | case13 | case15 | case17 =>
    exact fun _ => (passes_plain (by decide) _).trans (passes_plain (by decide) _)
  | _ => exact fun _ => passes_plain (by decide) _

/-- A token of any kind, at its first character. -/
theorem passes_readFrom (c : Char) (rest : List Char) (h : (Lexeme.readFrom c rest).IsInner) :
    Passes none (c :: rest) (Lexeme.readFrom c rest).rest := by
  revert h
  rw [Lexeme.readFrom]
  split
  · exact fun _ => passes_readNumber c rest
  · split
    next hstart =>
      have hname : Lexeme.isNameChar c = true := by
        rw [Lexeme.isNameStart, Bool.or_eq_true] at hstart
        rw [Lexeme.isNameChar, Bool.or_eq_true]
        exact hstart.imp_left isAlphanum_of_isAlpha
      exact fun _ => passes_readScopedName (isMark_of_isNameChar hname) rest
    · split
      next hdouble =>
        subst hdouble
        exact fun _ => (passes_readDouble rest).cons rfl
      next hdouble =>
        split
        next hsingle =>
          subst hsingle
          exact fun _ => (passes_readSingle rest).cons rfl
        next hsingle => exact passes_readSymbol hsingle hdouble rest

/-- **A token that is no bar is passed over.** -/
theorem passes_of_next {text : List Char} {l : Lexeme} (hnext : Lexeme.next? text = some l)
    (h : l.IsInner) : Passes none text l.rest := by
  refine (passes_dropWhile (fun _ => isMark_of_isSeparator) text).trans ?_
  obtain ⟨c, rest, hstart, rfl⟩ := Lexeme.next?_eq_some_iff.mp hnext
  rw [hstart]
  exact passes_readFrom c rest h

theorem readSymbol_suffix (c : Char) (rest : List Char) :
    (Lexeme.readSymbol c rest).rest <:+ rest := by
  fun_cases Lexeme.readSymbol c rest with
  | case6 | case8 | case9 | case11 | case12 | case13 | case15 | case17 | case18 =>
    exact List.suffix_cons _ _
  | _ => exact List.suffix_refl _

theorem readFrom_suffix (c : Char) (rest : List Char) : (Lexeme.readFrom c rest).rest <:+ rest := by
  rw [Lexeme.readFrom]
  split
  next hdigit =>
    have digits : (Lexeme.readNumber (c :: rest)).rest = rest.dropWhile Char.isDigit :=
      List.dropWhile_cons_of_pos hdigit
    exact digits ▸ List.dropWhile_suffix _
  · split
    · rw [Lexeme.readScopedName.eq_def]
      split
      · split
        · exact (List.dropWhile_suffix _).trans (List.suffix_cons _ _)
        · exact List.dropWhile_suffix _
      · exact List.dropWhile_suffix _
    · split
      · exact (passes_readDouble rest).suffix
      · split
        · exact (passes_readSingle rest).suffix
        · exact readSymbol_suffix c rest

/-- A token begins with a character of its text, and what it leaves is a part of the text behind
that character. -/
theorem exists_suffix_of_next {text : List Char} {l : Lexeme} (h : Lexeme.next? text = some l) :
    ∃ c rest, c :: rest <:+ text ∧ l.rest <:+ rest := by
  obtain ⟨c, rest, hstart, rfl⟩ := Lexeme.next?_eq_some_iff.mp h
  exact ⟨c, rest, hstart ▸ List.dropWhile_suffix Lexeme.isSeparator, readFrom_suffix c rest⟩

theorem suffix_of_next {text : List Char} {l : Lexeme} (h : Lexeme.next? text = some l) :
    l.rest <:+ text := by
  obtain ⟨c, rest, htext, hrest⟩ := exists_suffix_of_next h
  exact (hrest.trans (List.suffix_cons c rest)).trans htext

/-- A token takes at least one character. -/
theorem length_of_next {text : List Char} {l : Lexeme} (h : Lexeme.next? text = some l) :
    l.rest.length < text.length := by
  obtain ⟨c, rest, htext, hrest⟩ := exists_suffix_of_next h
  have hlength := htext.length_le
  rw [List.length_cons] at hlength
  exact Nat.lt_of_le_of_lt hrest.length_le hlength

/-- A line of separators is not cut. -/
theorem cutAtBar_of_next_none {text : List Char} (h : Lexeme.next? text = none) :
    cutAtBar none text = (text, none) := by
  have hall := Lexeme.next?_eq_none_iff.mp h
  obtain ⟨read, hread, hcut⟩ := passes_dropWhile (fun _ => isMark_of_isSeparator) text
  rw [hall, List.append_nil] at hread
  rw [hcut, hall, cutAtBar, List.append_nil, hread]

/-! ### Bars that are tokens

A bar is a token only if it is alone: the reader of expressions takes two of them for an operator.
So the reader of lines, which comes to the same character outside of quotes, cuts there. -/

theorem readFrom_eq_bar {c : Char} {text rest : List Char}
    (h : Lexeme.readFrom c text = ⟨.unknown '|', rest⟩) : c = '|' ∧ text = rest := by
  revert h
  rw [Lexeme.readFrom]
  split
  · rintro ⟨⟩
  · split
    · rw [Lexeme.readScopedName.eq_def]
      split
      · split <;> rintro ⟨⟩
      · rintro ⟨⟩
    · split
      · rintro ⟨⟩
      · split
        · rintro ⟨⟩
        · fun_cases Lexeme.readSymbol c text with
          | case24 =>
            rintro ⟨⟩
            exact ⟨rfl, rfl⟩
          | _ => rintro ⟨⟩

/-- **A line is cut at a bar that is a token.** -/
theorem cutAtBar_of_next_bar {text : List Char}
    (h : Lexeme.next? text = some ⟨.unknown '|', rest⟩) :
    ∃ before, text = before ++ '|' :: rest ∧ cutAtBar none text = (before, some rest) := by
  obtain ⟨before, hbefore, hcut⟩ := passes_dropWhile (fun _ => isMark_of_isSeparator) text
  obtain ⟨c, others, hstart, hread⟩ := Lexeme.next?_eq_some_iff.mp h
  obtain ⟨rfl, rfl⟩ := readFrom_eq_bar hread
  have halone : cutAtBar none ('|' :: others) = ([], some others) := by
    rw [cutAtBar]
    rintro more rfl
    cases hread
  rw [hstart] at hbefore hcut
  exact ⟨before, hbefore, by rw [hcut, halone, List.append_nil]⟩

end Parts

/-! ### Lines

By induction on the tokens of the line: each is passed over, until one is a bar or none is left. -/

/-- The first bar of a text that is a token, with what stands behind it. -/
def firstBar? (text : List Char) : Option Lexeme :=
  (Lexeme.scan text).find? fun l => l.token == .unknown '|'

/-- Whether no backslash outside of the literals of a text stands directly in front of a bar. -/
def HasNoEscapedBar (text : List Char) : Prop :=
  ∀ l ∈ Lexeme.scan text, l.token = .unknown '\\' → l.rest.head? ≠ some '|'

instance : DecidablePred HasNoEscapedBar := fun text =>
  inferInstanceAs (Decidable (∀ l ∈ Lexeme.scan text, _))

/-- Where a line is cut, for as many tokens as the line has. -/
theorem cutAtBar_of_scanUpTo {n : Nat} : ∀ {text : List Char}, text.length ≤ n →
    (∀ l ∈ Lexeme.scanUpTo n text, l.token = .unknown '\\' → l.rest.head? ≠ some '|') →
    match (Lexeme.scanUpTo n text).find? fun l => l.token == .unknown '|' with
    | some l =>
      ∃ before, text = before ++ '|' :: l.rest ∧ cutAtBar none text = (before, some l.rest)
    | none => cutAtBar none text = (text, none) := by
  induction n with
  | zero =>
    intro text hn _
    obtain rfl : text = [] := List.eq_nil_of_length_eq_zero (by omega)
    rfl
  | succ n ih =>
    intro text hn hescape
    rw [Lexeme.scanUpTo] at hescape ⊢
    cases hnext : Lexeme.next? text with
    | none => exact cutAtBar_of_next_none hnext
    | some l =>
      rw [hnext] at hescape
      dsimp only at hescape ⊢
      obtain ⟨hfirst, hothers⟩ := List.forall_mem_cons.mp hescape
      by_cases hbar : l.token = .unknown '|'
      · obtain ⟨token, rest⟩ := l
        dsimp only at hbar
        subst hbar
        exact cutAtBar_of_next_bar hnext
      · rw [List.find?_cons_of_neg (by simpa using hbar)]
        have hlength := length_of_next hnext
        have hrest := ih (by omega) hothers
        obtain ⟨read, hread, hcut⟩ := passes_of_next hnext ⟨hbar, hfirst⟩
        split at hrest
        next bar hfound =>
          obtain ⟨before, hbefore, hcutRest⟩ := hrest
          refine ⟨read ++ before, ?_, by rw [hcut, hcutRest]⟩
          rw [List.append_assoc, ← hbefore]
          exact hread
        next => rw [hcut, hrest, ← hread]

/-- **A line is cut at the first bar that is a token.** If no backslash takes away the meaning of a
bar, the line is cut between a front and a rest exactly if the first bar that the reader of
expressions finds stands between them, and then front and rest are as they were; if it finds none
the line stays as it is. -/
theorem cutAtBar_iff_firstBar {text : List Char} (h : HasNoEscapedBar text) :
    (∀ before rest, cutAtBar none text = (before, some rest) ↔
      text = before ++ '|' :: rest ∧ ∃ l, firstBar? text = some l ∧ l.rest = rest) ∧
    (firstBar? text = none → cutAtBar none text = (text, none)) := by
  have hcut := cutAtBar_of_scanUpTo (Nat.le_refl text.length) h
  rw [← Lexeme.scan] at hcut
  rw [firstBar?]
  split at hcut
  next l hfound =>
    obtain ⟨before, hbefore, hcut⟩ := hcut
    rw [hfound, hcut]
    refine ⟨fun front rest => ⟨?_, ?_⟩, ?_⟩
    · rintro ⟨⟩
      exact ⟨hbefore, l, rfl, rfl⟩
    · rintro ⟨hfront, _, ⟨⟩, rfl⟩
      rw [List.append_cancel_right (hbefore.symm.trans hfront)]
    · rintro ⟨⟩
  next hnone =>
    rw [hnone, hcut]
    refine ⟨fun front rest => ⟨?_, ?_⟩, fun _ => rfl⟩
    · rintro ⟨⟩
    · rintro ⟨-, _, ⟨⟩, -⟩

/-- Of four bars the first stands in a literal, behind a backslash and a quote, and the next two are
one token. -/
theorem cutAtBar_iff_firstBar_literal :
    HasNoEscapedBar "echo \"\\\"|\" || 'it''s' | echo 2".toList ∧
      cutAtBar none "echo \"\\\"|\" || 'it''s' | echo 2".toList =
        ("echo \"\\\"|\" || 'it''s' ".toList, some " echo 2".toList) := by
  have hescape : HasNoEscapedBar "echo \"\\\"|\" || 'it''s' | echo 2".toList := by decide +kernel
  have hbar : (firstBar? "echo \"\\\"|\" || 'it''s' | echo 2".toList).map Lexeme.rest =
      some " echo 2".toList := by
    decide +kernel
  obtain ⟨l, hl, hrest⟩ := Option.map_eq_some_iff.mp hbar
  exact ⟨hescape, ((cutAtBar_iff_firstBar hescape).1 _ _).mpr ⟨rfl, l, hl, hrest⟩⟩

end Script

end ExScript
