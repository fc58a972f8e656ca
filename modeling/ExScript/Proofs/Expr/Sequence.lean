import ExScript.Proofs.Expr.Listed

/-!
# Expressions one behind the other

A text such as the argument of `:echo` holds expressions without anything between them. Each reaches
as far as it goes, and its source is cut out of the text between the end of the one before and its
own. Nothing of the text is lost on the way, and each source stands for itself: read on its own, it
is the expression that was read in its place.

For this a token has to be the same if the text ends behind it. Tokens look ahead, be it for a
digit, for the second character of an operator or for a quote, but what they look at and do not take
is not missed (`Lexeme.next?_cut`). The structure is the same because an expression ends at the end
of a text if it ended there before. What is left are the blanks around a source, which are no part
of it unless they stand in a literal that was left open. Outside of literals a quote begins one, and
so all literals of a text have their closing quotes if no quote is open behind it
(`Script.openQuote`).

## Looking ahead

There are two things that could go wrong where a text is cut, and both are about the first lexeme.
The text in front could have another lexeme than the whole, because the reader looked at what was
cut off. Or the lexeme could reach into what is cut off. The second is excluded by the hypothesis:
what is left behind the lexeme ends with what is cut off, so the lexeme ends in front of it. The
first is where the readers differ:

* numbers and names take as many characters as they can, and would have taken more;
* a symbol of one character is read after a second one was looked for, which is not missed if it was
  not there;
* a literal that ends in front of the cut has ended with its quote. If it has not, it reaches to the
  end of the text, and then there is nothing behind it to be cut off.

The last case is the one for which the closing quote has to be known: a literal without it would
take in the blanks behind it, so that its source without them would be another one.

## The same expression again

That a source read on its own gives the same expression is more than that it can be read. Which
expression it is depends on all tokens, and on where the reader stops; the tokens are the same by
the above, and the reader stops at the end of the text because the tree has all of them. The source
of what is read again is the text without the blanks around it, and so again the source.

## Main definitions

* `Lexeme.Spans` — lexemes at the front of a text, and what stands behind them
* `Expression.IsSlice` — a piece of a text that an expression was cut out of

## Main results

* `Lexeme.next?_cut` — a token in a text that is cut off behind it
* `Lexeme.Spans.cut` — the same for lexemes
* `Expression.parse_trimmed` — blanks around an expression are no part of it
* `Expression.parseSequence_slices` — a sequence of expressions is cut without a loss
-/

namespace ExScript

open ExScript.Expr (Derivation tokensOf)
open ExScript.Script (openQuote)

/-- What is dropped and what is taken from the front of a text is the same if the text is cut off
behind it. -/
theorem Text.span_cut {p : Char → Bool} {text stop rest : List Char}
    (h : (text ++ stop).dropWhile p = rest ++ stop) :
    text.dropWhile p = rest ∧ text.takeWhile p = (text ++ stop).takeWhile p := by
  induction text with
  | nil =>
    have whole : stop.takeWhile p ++ (rest ++ stop) = stop := by
      rw [← h]
      exact List.takeWhile_append_dropWhile
    rw [← List.append_assoc, List.append_left_eq_self, List.append_eq_nil_iff] at whole
    exact ⟨whole.2.symm, whole.1.symm⟩
  | cons c text ih =>
    rw [List.cons_append] at h ⊢
    cases hc : p c with
    | false =>
      have hneg : ¬p c = true := by simp [hc]
      rw [List.dropWhile_cons_of_neg hneg, ← List.cons_append] at h
      rw [List.dropWhile_cons_of_neg hneg, List.takeWhile_cons_of_neg hneg,
        List.takeWhile_cons_of_neg hneg]
      exact ⟨List.append_cancel_right h, rfl⟩
    | true =>
      rw [List.dropWhile_cons_of_pos hc] at h
      obtain ⟨hdrop, htake⟩ := ih h
      rw [List.dropWhile_cons_of_pos hc, List.takeWhile_cons_of_pos hc,
        List.takeWhile_cons_of_pos hc, htake]
      exact ⟨hdrop, rfl⟩

namespace Lexeme

/-! ### Tokens in texts that are cut off

In each lemma the whole text is `text ++ stop`, and what is left behind the token ends with `stop`.
-/

section Cut

variable {c : Char} {text stop rest : List Char} {l : Lexeme}

theorem readNumber_cut (h : readNumber (text ++ stop) = l.followedBy stop) : readNumber text = l := by
  obtain ⟨htoken, hrest⟩ := Lexeme.mk.inj h
  obtain ⟨hdrop, htake⟩ := Text.span_cut hrest
  rw [readNumber, Numeral.digits, hdrop, htake]
  exact congrArg (Lexeme.mk · l.rest) htoken

theorem readName_cut {start : List Char} (h : readName start (text ++ stop) = l.followedBy stop) :
    readName start text = l := by
  obtain ⟨htoken, hrest⟩ := Lexeme.mk.inj h
  obtain ⟨hdrop, htake⟩ := Text.span_cut hrest
  rw [readName, hdrop, htake]
  exact congrArg (Lexeme.mk · l.rest) htoken

/-- Without a colon behind a letter that names a scope, a name is a name. -/
theorem readScopedName_plain (h : ∀ more, text = ':' :: more → isScopeLetter c = false) :
    readScopedName c text = readName [c] text := by
  rw [readScopedName.eq_def]
  split
  next more => rw [if_neg (by simp [h more rfl])]
  next => rfl

/-- With one, the letter and the colon are the beginning of the name. -/
theorem readScopedName_scope (hc : isScopeLetter c = true) (more : List Char) :
    readScopedName c (':' :: more) = readName [c, ':'] more := by
  rw [readScopedName, if_pos hc]

/-- A scope is two characters in front of a name, and the colon may be the last character that is
left. -/
theorem readScopedName_cut (h : readScopedName c (text ++ stop) = l.followedBy stop) :
    readScopedName c text = l := by
  by_cases hscope : ∃ more, text ++ stop = ':' :: more ∧ isScopeLetter c = true
  · obtain ⟨more, hwhole, hc⟩ := hscope
    rw [hwhole, readScopedName_scope hc] at h
    cases text with
    | nil =>
      -- the colon would stand in what is cut off
      have hrest : more.dropWhile isNameChar = l.rest ++ stop := (Lexeme.mk.inj h).2
      have hlength := length_dropWhile_le (p := isNameChar) more
      rw [hrest, ← List.nil_append stop, hwhole] at hlength
      simp at hlength
      omega
    | cons d text =>
      obtain ⟨rfl, rfl⟩ := List.cons.inj hwhole
      rw [readScopedName_scope hc]
      exact readName_cut h
  · rw [readScopedName_plain fun more hwhole => by
      simpa using fun hc => hscope ⟨more, hwhole, hc⟩] at h
    rw [readScopedName_plain fun more htext => by
      simpa using fun hc => hscope ⟨more ++ stop, by rw [htext]; rfl, hc⟩]
    exact readName_cut h

/-- A symbol is the same if the text is cut off behind it. Where it has two characters, the second
one is in the text; where it has one, the second one that was looked for is not there. -/
theorem readSymbol_cut (h : readSymbol c (text ++ stop) = l.followedBy stop) :
    readSymbol c text = l := by
  obtain ⟨t, rest⟩ := l
  generalize hwhole : text ++ stop = whole at h
  -- of a symbol of two characters the second one is there as well
  have double {e : Char} {more : List Char} (hmore : more = rest ++ stop)
      (heq : whole = e :: more) : text = e :: rest := by
    rw [← hwhole, hmore, ← List.cons_append] at heq
    exact List.append_cancel_right heq
  -- behind a symbol of one character there is all that was behind it
  have single (hmore : whole = rest ++ stop) : text = rest :=
    List.append_cancel_right (hwhole.trans hmore)
  have second {e : Char} (hno : ∀ more, whole = e :: more → False) (more : List Char)
      (heq : text = e :: more) : False :=
    hno (more ++ stop) (by rw [← hwhole, heq]; rfl)
  have second' {p : Prop} {e : Char} (hno : ∀ more, p → whole = e :: more → False)
      (more : List Char) (hp : p) : text = e :: more → False :=
    second (fun more => hno more hp) more
  revert h
  fun_cases readSymbol c whole with
  | case6 | case8 | case9 | case11 | case12 | case13 | case15 | case17 | case18 =>
    intro h
    obtain ⟨rfl, hmore⟩ := Lexeme.mk.inj h
    rw [double hmore rfl]
    rfl
  | case7 _ hdot =>
    intro h
    obtain ⟨rfl, hmore⟩ := Lexeme.mk.inj h
    rw [readSymbol, single hmore]
    exact second hdot
  | case10 _ hequal htilde =>
    intro h
    obtain ⟨rfl, hmore⟩ := Lexeme.mk.inj h
    rw [readSymbol, single hmore]
    · exact second hequal
    · exact second htilde
  | case14 _ hequal | case16 _ hequal =>
    intro h
    obtain ⟨rfl, hmore⟩ := Lexeme.mk.inj h
    rw [readSymbol, single hmore]
    exact second hequal
  | case24 =>
    intro h
    obtain ⟨rfl, hmore⟩ := Lexeme.mk.inj h
    rw [readSymbol, single hmore]
    all_goals first | assumption | exact second' (by assumption)
  | _ =>
    intro h
    obtain ⟨rfl, hmore⟩ := Lexeme.mk.inj h
    rw [single hmore]
    rfl

/-! ### Literals that are cut off

A reader of literals takes at least one character if there is one. So a literal cannot begin in what
is cut off and leave all of that behind. -/

theorem length_readSingle_cons (c : Char) (text : List Char) :
    (Text.readSingle (c :: text)).2.length ≤ text.length := by
  have behind (more : List Char) : (Text.readSingle more).2.length ≤ more.length :=
    (Script.passes_readSingle more).suffix.length_le
  generalize hwhole : c :: text = whole
  fun_cases Text.readSingle whole with
  | case1 => cases hwhole
  | case2 more =>
    cases hwhole
    exact Nat.le_succ_of_le (behind more)
  | case3 =>
    cases hwhole
    exact Nat.le_refl _
  | case4 =>
    cases hwhole
    exact behind text

theorem length_readDouble_cons (c : Char) (text : List Char) :
    (Text.readDouble (c :: text)).2.length ≤ text.length := by
  have behind (more : List Char) : (Text.readDouble more).2.length ≤ more.length :=
    (Script.passes_readDouble more).suffix.length_le
  generalize hwhole : c :: text = whole
  fun_cases Text.readDouble whole with
  | case1 => cases hwhole
  | case2 | case3 =>
    cases hwhole
    exact Nat.le_refl _
  | case4 d more =>
    cases hwhole
    exact Nat.le_succ_of_le (behind more)
  | case5 =>
    cases hwhole
    exact behind text

/-- A literal that begins in what is cut off does not end in front of it. -/
theorem eq_nil_of_readSingle {content : List Char}
    (h : Text.readSingle stop = (content, rest ++ stop)) : stop = [] := by
  cases stop with
  | nil => rfl
  | cons d stop =>
    have hshort := length_readSingle_cons d stop
    rw [h, List.length_append, List.length_cons] at hshort
    omega

theorem eq_nil_of_readDouble {content : List Char}
    (h : Text.readDouble stop = (content, rest ++ stop)) : stop = [] := by
  cases stop with
  | nil => rfl
  | cons d stop =>
    have hshort := length_readDouble_cons d stop
    rw [h, List.length_append, List.length_cons] at hshort
    omega

/-- A literal that ends in front of what is cut off has its closing quote, if there is one at
all. -/
theorem readSingle_cut {content : List Char}
    (h : Text.readSingle (text ++ stop) = (content, rest ++ stop)) :
    Text.readSingle text = (content, rest) ∧
      (openQuote (some .single) (text ++ stop) = none →
        openQuote (some .single) text = openQuote none rest) := by
  fun_induction Text.readSingle text generalizing content with
  | case1 =>
    obtain rfl := eq_nil_of_readSingle h
    obtain ⟨rfl, hrest⟩ := Prod.mk.inj h
    rw [List.append_nil] at hrest
    exact ⟨by rw [hrest], fun hopen => by cases hopen⟩
  | case2 text ih =>
    rw [List.cons_append, List.cons_append, Text.readSingle] at h
    obtain ⟨rfl, hrest⟩ := Prod.mk.inj h
    obtain ⟨hread, hclosed⟩ := ih (Prod.ext rfl hrest)
    rw [hread]
    exact ⟨rfl, hclosed⟩
  | case3 text htext =>
    by_cases hstop : ∃ more, text ++ stop = '\'' :: more
    · -- a quote that stands behind would belong to the literal
      obtain ⟨more, hmore⟩ := hstop
      obtain rfl : text = [] := by
        cases text with
        | nil => rfl
        | cons d text => exact absurd (List.cons.inj hmore).1 fun hd => htext text (by rw [hd])
      rw [List.nil_append] at hmore
      rw [List.cons_append, List.nil_append, hmore, Text.readSingle, ← hmore] at h
      have hshort := (Script.passes_readSingle more).suffix.length_le
      rw [(Prod.mk.inj h).2, hmore, List.length_append, List.length_cons] at hshort
      omega
    · rw [List.cons_append, Text.readSingle] at h
      · obtain ⟨rfl, hrest⟩ := Prod.mk.inj h
        rw [List.append_cancel_right hrest]
        exact ⟨rfl, fun _ => rfl⟩
      · exact not_exists.mp hstop
  | case4 c text _ hc ih =>
    have hne : c ≠ '\'' := fun heq => hc heq
    have within (more : List Char) :
        openQuote (some .single) (c :: more) = openQuote (some .single) more := by
      rw [openQuote] <;> simp_all
    rw [List.cons_append, Text.readSingle_cons_of_ne hne] at h
    obtain ⟨rfl, hrest⟩ := Prod.mk.inj h
    obtain ⟨hread, hclosed⟩ := ih (Prod.ext rfl hrest)
    rw [hread, List.cons_append, within, within]
    exact ⟨rfl, hclosed⟩

/-- The same for a literal between double quotes. Its last character may be behind a backslash. -/
theorem readDouble_cut {content : List Char}
    (h : Text.readDouble (text ++ stop) = (content, rest ++ stop)) :
    Text.readDouble text = (content, rest) ∧
      (openQuote (some .double) (text ++ stop) = none →
        openQuote (some .double) text = openQuote none rest) := by
  fun_induction Text.readDouble text generalizing content with
  | case1 =>
    obtain rfl := eq_nil_of_readDouble h
    obtain ⟨rfl, hrest⟩ := Prod.mk.inj h
    rw [List.append_nil] at hrest
    exact ⟨by rw [hrest], fun hopen => by cases hopen⟩
  | case2 text =>
    obtain ⟨rfl, hrest⟩ := Prod.mk.inj h
    rw [List.append_cancel_right hrest]
    exact ⟨rfl, fun _ => rfl⟩
  | case3 =>
    cases stop with
    | nil =>
      obtain ⟨rfl, hrest⟩ := Prod.mk.inj h
      rw [List.append_nil] at hrest
      exact ⟨by rw [hrest], fun hopen => by cases hopen⟩
    | cons d stop =>
      -- what is behind the backslash would belong to the literal
      have hshort := (Script.passes_readDouble stop).suffix.length_le
      rw [show (Text.readDouble stop).2 = rest ++ d :: stop from (Prod.mk.inj h).2,
        List.length_append, List.length_cons] at hshort
      omega
  | case4 c text ih =>
    rw [List.cons_append, List.cons_append, Text.readDouble, Prod.mk.injEq] at h
    obtain ⟨rfl, hrest⟩ := h
    obtain ⟨hread, hclosed⟩ := ih (Prod.ext rfl hrest)
    rw [hread]
    exact ⟨rfl, hclosed⟩
  | case5 c text hquote hlast hescape ih =>
    have hb : c ≠ '\\' := by
      rintro rfl
      cases text with
      | nil => exact hlast rfl rfl
      | cons e text => exact hescape _ _ rfl rfl
    have hq : c ≠ '"' := fun heq => hquote heq
    have within (more : List Char) :
        openQuote (some .double) (c :: more) = openQuote (some .double) more := by
      rw [openQuote] <;> simp_all
    rw [List.cons_append, Text.readDouble_cons_of_ne hb hq] at h
    obtain ⟨rfl, hrest⟩ := Prod.mk.inj h
    obtain ⟨hread, hclosed⟩ := ih (Prod.ext rfl hrest)
    rw [hread, List.cons_append, within, within]
    exact ⟨rfl, hclosed⟩

/-! ### Tokens and lexemes that are cut off -/

/-- **A token is the same if the text ends behind it.** If it is a literal it has its closing quote
still, so that no quote is open behind the text that was not open behind the token. -/
theorem readFrom_cut (h : readFrom c (text ++ stop) = l.followedBy stop) :
    readFrom c text = l ∧ (openQuote none (c :: (text ++ stop)) = none →
      openQuote none (c :: text) = openQuote none l.rest) := by
  rw [readFrom] at h
  rw [readFrom]
  split at h
  next hdigit =>
    have hread : readNumber (c :: text) = l := readNumber_cut h
    rw [if_pos hdigit, hread]
    exact ⟨rfl, fun _ => by rw [← hread, openQuote_readNumber]⟩
  next hdigit =>
    rw [if_neg hdigit]
    split at h
    next hstart =>
      have hquote : c ≠ '\'' ∧ c ≠ '"' := by
        constructor <;> rintro rfl <;> exact absurd hstart (by decide)
      have hread := readScopedName_cut h
      rw [if_pos hstart, hread, openQuote_cons hquote.1 hquote.2, openQuote_cons hquote.1 hquote.2]
      exact ⟨rfl, fun _ => by rw [← hread, openQuote_readScopedName]⟩
    next hstart =>
      rw [if_neg hstart]
      split at h
      next hdouble =>
        subst hdouble
        obtain ⟨t, rest⟩ := l
        obtain ⟨rfl, hrest⟩ := Lexeme.mk.inj h
        obtain ⟨hread, hclosed⟩ := readDouble_cut (Prod.ext rfl hrest)
        rw [if_pos rfl, hread]
        exact ⟨rfl, hclosed⟩
      next hdouble =>
        rw [if_neg hdouble]
        split at h
        next hsingle =>
          subst hsingle
          obtain ⟨t, rest⟩ := l
          obtain ⟨rfl, hrest⟩ := Lexeme.mk.inj h
          obtain ⟨hread, hclosed⟩ := readSingle_cut (Prod.ext rfl hrest)
          rw [if_pos rfl, hread]
          exact ⟨rfl, hclosed⟩
        next hsingle =>
          have hread := readSymbol_cut h
          rw [if_neg hsingle, hread, openQuote_cons hsingle hdouble,
            openQuote_cons hsingle hdouble]
          exact ⟨rfl, fun _ => by rw [← hread, openQuote_readSymbol]⟩

/-- **The first lexeme is the same if the text ends behind it.** Separators in front of it are in
the text, as it is. -/
theorem next?_cut (h : next? (text ++ stop) = some (l.followedBy stop)) :
    next? text = some l ∧
      (openQuote none (text ++ stop) = none → openQuote none text = openQuote none l.rest) := by
  rw [← openQuote_separators (text ++ stop), ← openQuote_separators text]
  obtain ⟨c, others, hwhole, hread⟩ := next?_eq_some_iff.mp h
  rw [List.dropWhile_append] at hwhole ⊢
  cases hstart : text.dropWhile isSeparator with
  | nil =>
    -- the token would begin in what is cut off
    rw [hstart, List.isEmpty_nil, if_pos rfl] at hwhole
    have hshort := Script.length_of_next (next?_eq_some_iff.mpr ⟨c, others, hwhole, hread⟩)
    rw [followedBy, List.length_append] at hshort
    omega
  | cons d text' =>
    rw [hstart] at hwhole
    obtain ⟨rfl, rfl⟩ := List.cons.inj hwhole
    obtain ⟨hcut, hclosed⟩ := readFrom_cut hread
    exact ⟨next?_eq_some_iff.mpr ⟨d, text', hstart, hcut⟩, hclosed⟩

end Cut

/-! ### The front of a text

A lexeme knows the text behind it, so lexemes of a text and of a piece of it are not the same, and
only their tokens are compared. `Spans` keeps the texts out of the way: it goes from lexeme to
lexeme, and what stands behind the last one is an index. -/

/-- `Spans text used rest`: these are the first lexemes of the text, and `rest` stands behind
them. -/
inductive Spans : List Char → List Lexeme → List Char → Prop
  | nil (text : List Char) : Spans text [] text
  | cons {text rest : List Char} {l : Lexeme} {used : List Lexeme} (first : next? text = some l)
      (others : Spans l.rest used rest) : Spans text (l :: used) rest

namespace Spans

variable {text stop : List Char} {used rest : List Lexeme}

/-- Where the lexemes of a text are divided the text can be. -/
theorem of_scan (h : scan text = used ++ rest) : ∃ stop, Spans text used stop ∧ scan stop = rest := by
  induction used generalizing text with
  | nil => exact ⟨text, .nil text, h⟩
  | cons l used ih =>
    obtain ⟨hnext, hothers⟩ := scan_eq_cons_iff.mp h
    obtain ⟨stop, hspans, hscan⟩ := ih hothers
    exact ⟨stop, .cons hnext hspans, hscan⟩

/-- The lexemes of a text are those at its front and those of what stands behind. -/
theorem scan_eq (h : Spans text used stop) : scan text = used ++ scan stop := by
  induction h with
  | nil => rfl
  | cons first _ ih =>
    rw [scan_eq_cons first, ih]
    rfl

theorem suffix (h : Spans text used stop) : stop <:+ text := by
  induction h with
  | nil => exact List.suffix_refl _
  | cons first _ ih => exact ih.trans (Script.suffix_of_next first)

/-- What stands behind some lexemes is kept in the last of them. -/
theorem getLast? (h : Spans text used stop) : used.getLast?.elim text Lexeme.rest = stop := by
  induction h with
  | nil => rfl
  | @cons _ _ l used _ _ ih =>
    rw [List.getLast?_cons]
    cases hlast : used.getLast? <;> rw [hlast] at ih <;> exact ih

/-- This is the text that the function cuts a source at. -/
theorem textBehind (h : Spans text used stop) (rest : List Lexeme) :
    Expression.textBehind text (used ++ rest) rest = stop := by
  have hlast := h.getLast?
  rw [Expression.textBehind, List.length_append, Nat.add_sub_cancel, List.take_left]
  cases hused : used.getLast? <;> rw [hused] at hlast <;> exact hlast

/-- No quote is open between lexemes, if none is open behind the text. -/
theorem closed (h : Spans text used stop) (hclosed : openQuote none text = none) :
    openQuote none stop = none := by
  induction h with
  | nil => exact hclosed
  | cons first _ ih => exact ih (next?_append (d := ',') (.inl rfl) hclosed first []).2

/-- **Lexemes have the same tokens if the text ends behind them**, and all that is read are
these. -/
theorem cut (h : Spans (text ++ stop) used stop) :
    ∃ used', Spans text used' [] ∧ tokensOf used' = tokensOf used ∧
      (openQuote none (text ++ stop) = none → openQuote none text = none) := by
  generalize hwhole : text ++ stop = whole at h
  induction h generalizing text with
  | nil =>
    obtain rfl := List.append_left_eq_self.mp hwhole
    exact ⟨[], .nil [], rfl, fun _ => rfl⟩
  | @cons _ _ l used first others ih =>
    subst hwhole
    obtain ⟨rest, hrest⟩ := others.suffix
    obtain ⟨hnext, hfirst⟩ := next?_cut (l := ⟨l.token, rest⟩) (first.trans (by
      rw [followedBy, hrest]))
    obtain ⟨used', hspans, htokens, hbehind⟩ := ih hrest
    refine ⟨⟨l.token, rest⟩ :: used', .cons hnext hspans, by simp [htokens], fun hopen => ?_⟩
    have hclosed := (Spans.cons first (.nil l.rest)).closed hopen
    rw [hfirst hopen]
    exact hbehind hclosed

end Spans

end Lexeme

/-! ### Blanks around an expression

In front they are separators, or there would be a token without a meaning; behind, the same, or they
are in a literal. -/

namespace Expression

/-- Blanks in front of an expression are no part of it. -/
theorem parse_trimStart {text : String} {e : Expression} (h : Expression.parse text = .ok e) :
    Expression.parse (String.ofList (Text.trimStart text.toList)) = .ok e := by
  have known := unknown_not_mem h
  obtain ⟨d, htokens, rfl⟩ := exists_derivation h
  have same : trimmed (String.ofList (Text.trimStart text.toList)) = trimmed text := by
    rw [trimmed, trimmed, String.toList_ofList, Text.trim, Text.trim, Text.trimStart,
      Text.trimStart, List.dropWhile_idempotent]
  rw [← same]
  exact parse_of_derivation d (by rw [String.toList_ofList, Lexeme.scan_trimStart known, htokens])

/-- Blanks around an expression are no part of it, unless a quote was left open. -/
theorem parse_trimmed {text : String} {e : Expression} (h : Expression.parse text = .ok e)
    (hclosed : openQuote none text.toList = none) : Expression.parse (trimmed text) = .ok e := by
  have hfront : openQuote none (Text.trimStart text.toList) = none := by
    rw [Text.trimStart, Lexeme.openQuote_dropWhile (by decide), hclosed]
  have hend := parse_trimEnd (parse_trimStart h) (by rwa [String.toList_ofList])
  rwa [String.toList_ofList] at hend

/-! ### Sequences

The function reads an expression from the lexemes that are left and cuts its source out of the text
by the lengths of what is left. Here the text is cut in two instead, and both agree. -/

/-- Whether a piece of a text is an expression with nothing but blanks around it, whose source
stands for itself. -/
def IsSlice (slice : String) (e : Expression) : Prop :=
  e.source = trimmed slice ∧ Expression.parse e.source = .ok e

/-- The text up to what stands behind the lexemes of an expression is a slice. -/
theorem isSlice_of_spans {text stop : List Char} {used : List Lexeme}
    (h : Lexeme.Spans (text ++ stop) used stop) (hclosed : openQuote none (text ++ stop) = none)
    (d : Derivation (.level (.chain .or))) (htokens : d.tokens = tokensOf used) :
    IsSlice (String.ofList text) ⟨trimmed (String.ofList text), d.ast⟩ := by
  obtain ⟨used', hspans, hused, hopen⟩ := h.cut
  have hscan : Lexeme.scan text = used' := by
    rw [hspans.scan_eq]
    exact List.append_nil used'
  have hparse : Expression.parse (String.ofList text) =
      .ok ⟨trimmed (String.ofList text), d.ast⟩ :=
    parse_of_derivation d (by rw [String.toList_ofList, hscan, hused, htokens])
  exact ⟨rfl, parse_trimmed hparse (by rw [String.toList_ofList, hopen hclosed])⟩

/-- What a sequence begins with: an expression, cut out of the text up to what stands behind it, and
the sequence that follows there. -/
theorem readAll_eq_some {n : Nat} {text : List Char} {lexeme : Lexeme} {lexemes : List Lexeme}
    {es : List Expression} (h : readAll n text (lexeme :: lexemes) = some es) :
    ∃ (k : Nat) (body : Expr) (rest : List Lexeme) (stop : List Char) (others : List Expression),
      n = k + 1 ∧ Expr.read (lexeme :: lexemes) = some (body, rest) ∧
        stop = textBehind text (lexeme :: lexemes) rest ∧ readAll k stop rest = some others ∧
          es = ⟨trimmed (String.ofList (text.take (text.length - stop.length))), body⟩ :: others := by
  cases n with
  | zero => cases h
  | succ k =>
    rw [readAll] at h
    · split at h
      · cases h
      next body rest hread =>
        obtain ⟨others, hothers, rfl⟩ := Option.map_eq_some_iff.mp h
        exact ⟨k, body, rest, _, others, rfl, hread, rfl, hothers, by
          rw [trimmed, String.toList_ofList]⟩
    · rintro ⟨⟩

/-- The expressions at the front of a text are cut out of it one behind the other, until only
separators are left. -/
theorem readAll_slices {n : Nat} {text : List Char} {es : List Expression}
    (h : readAll n text (Lexeme.scan text) = some es) (hclosed : openQuote none text = none) :
    ∃ (slices : List String) (tail : List Char),
      text = slices.flatMap String.toList ++ tail ∧
        (∀ c ∈ tail, Lexeme.isSeparator c = true) ∧ List.Forall₂ IsSlice slices es := by
  induction n using Nat.strong_induction_on generalizing text es with
  | _ n ih =>
    cases hnext : Lexeme.next? text with
    | none =>
      rw [Lexeme.scan_eq_nil hnext] at h
      obtain rfl : es = [] := by cases n <;> cases h <;> rfl
      exact ⟨[], text, rfl, Lexeme.separator_of_next_none hnext, .nil⟩
    | some l =>
      rw [Lexeme.scan_eq_cons hnext] at h
      obtain ⟨k, body, rest, stop, others, rfl, hread, hstop, hothers, rfl⟩ := readAll_eq_some h
      rw [← Lexeme.scan_eq_cons hnext] at hread hstop
      -- The lexemes of the first expression, and the text that stands behind them
      obtain ⟨d, used, hused, htokens, rfl⟩ := Expr.readAt_sound _ _ _ _ hread
      obtain ⟨behind, hspans, rfl⟩ := Lexeme.Spans.of_scan hused
      rw [hused, hspans.textBehind] at hstop
      subst hstop
      obtain ⟨front, rfl⟩ := hspans.suffix
      obtain ⟨slices, tail, hbehind, htail, hslices⟩ :=
        ih k (Nat.lt_succ_self k) hothers (hspans.closed hclosed)
      have hfront : (front ++ stop).take ((front ++ stop).length - stop.length) = front := by
        rw [List.length_append, Nat.add_sub_cancel, List.take_left]
      rw [hfront]
      refine ⟨String.ofList front :: slices, tail, ?_, htail,
        .cons (isSlice_of_spans hspans hclosed d htokens) hslices⟩
      rw [List.flatMap_cons, String.toList_ofList, List.append_assoc, ← hbehind]

/-- **A sequence of expressions is cut without a loss.** Where no literal of a text is left open,
the text is one slice for each expression, one behind the other, and a tail of blanks and tabs. The
source of an expression is its slice without the blanks around it, and read on its own it is the
same expression again, with the same source. -/
theorem parseSequence_slices {source : String} {es : List Expression}
    (h : parseSequence source = .ok es) (hclosed : openQuote none source.toList = none) :
    ∃ (slices : List String) (tail : String), source = String.join slices ++ tail ∧
      (∀ c ∈ tail.toList, c = ' ' ∨ c = '\t') ∧ List.Forall₂ IsSlice slices es := by
  rw [parseSequence] at h
  split at h
  next es' hread =>
    cases h
    obtain ⟨slices, tail, hwhole, htail, hslices⟩ := readAll_slices hread hclosed
    refine ⟨slices, String.ofList tail, String.ext ?_, fun c hc => ?_, hslices⟩
    · rw [String.toList_append, String.toList_join, String.toList_ofList, hwhole]
    · rw [String.toList_ofList] at hc
      simpa [Lexeme.isSeparator] using htail c hc
  next => cases h

/-- Literals with quotes in them, a name with a scope, a list and a negation, with few blanks. -/
def crowdedSource : String :=
  "'it''s'\"é\\\"\"g:n[1, 'ü']  !0 \t"

/-- The expressions that stand there. -/
def crowded : List Expression :=
  [⟨"'it''s'", .text "it's"⟩, ⟨"\"é\\\"\"", .text "é\""⟩, ⟨"g:n", .var "g:n"⟩,
    ⟨"[1, 'ü']", .list [.number 1, .text "ü"]⟩, ⟨"!0", .unary .not (.number 0)⟩]

/-- Expressions of many kinds that touch each other, and blanks behind them. -/
theorem parseSequence_slices_crowded :
    parseSequence crowdedSource = .ok crowded ∧ openQuote none crowdedSource.toList = none ∧
      ∃ (slices : List String) (tail : String), crowdedSource = String.join slices ++ tail ∧
        (∀ c ∈ tail.toList, c = ' ' ∨ c = '\t') ∧ List.Forall₂ IsSlice slices crowded := by
  have hread : parseSequence crowdedSource = .ok crowded := by rfl
  have hclosed : openQuote none crowdedSource.toList = none := by decide
  exact ⟨hread, hclosed, parseSequence_slices hread hclosed⟩

end Expression

end ExScript
