import ExScript.Proofs.LineRange.Notation
import ExScript.Proofs.Script.Continuation

/-!
# Bars and line breaks

Statements are separated by bars or by line breaks, and it should not matter by which. What a line
break does is plain: the statements of the two texts are put one behind the other
(`Script.statements_append`). A bar joins the last line of one text and the first line of the other
into one line, and that line is cut again, so the question is whether it is cut at this bar, and
whether it is cut at the same places otherwise.

It is cut there if the line comes to the bar outside of quotes, no backslash and no bar touch it,
and no statement takes all of the line. Whether a statement does is asked of everything behind the
bar before it, as it was written, and now more is written there than before. But a bar ends whatever
could be read at the front of a statement: colons, a range, and a name. So the answer is the same.

The second text may have more lines. If they go on its first line they go on the joined line in the
same way.

None of the conditions of `parse_bar_eq_parse_lineBreak` can be left out. A first text that begins
with a backslash loses it, and may be a comment then that it was not before; in an open quote the
bar is text, and so it is behind a comment or a `:command`; a text that ends in a bar makes `||` of
the next one, and one that ends in a backslash takes its meaning from it. Of the second text, a
first line that goes on the line before is joined to the first text by a line break and not by a
bar, and a bar at its front makes `||` again. What is *not* asked for: that either text parses, or
has no error in it, or opens and closes its own blocks. The two scripts have the same statements,
and the parser sees nothing else.

The first text is one line. Lines in front of that can be cut off by `statements_append`.

## Main definitions

* `openQuote` — the quote that is open behind a text
* `EndsStatement` — a line behind which a bar ends a statement

## Main results

* `LineRange.parse_bar` — a bar ends a range
* `takesLine_bar` — what is behind a bar has no say in whether a statement takes its line
* `cutAtBar_append`, `splitBars_append` — a line is cut at the bar behind it
* `parse_bar_eq_parse_lineBreak` — a bar and a line break separate statements alike
-/

namespace ExScript

/-! ### Up to a bar

What is read at the front of a statement is read by taking characters off as long as they belong to
it, and a bar belongs to nothing there. So a bar and what is behind it end up behind whatever is
left. For ranges this is shown on the relations that say how a range is written, by induction on
their rules, and the readers follow since they read what the relations say. -/

section Ranges

variable {c : Char} {text rest : List Char}

/-- Behind a character that is not dropped nothing is. -/
theorem Text.dropWhile_break {p : Char → Bool} (hp : p c = false) (text more : List Char) :
    (text ++ c :: more).dropWhile p = text.dropWhile p ++ c :: more := by
  induction text with
  | nil => exact List.dropWhile_cons_of_neg (by simp [hp])
  | cons d text ih => cases hd : p d <;> simp [hd, ih]

theorem Text.takeWhile_break {p : Char → Bool} (hp : p c = false) (text more : List Char) :
    (text ++ c :: more).takeWhile p = text.takeWhile p := by
  induction text with
  | nil => exact List.takeWhile_cons_of_neg (by simp [hp])
  | cons d text ih => cases hd : p d <;> simp [hd, ih]

theorem Text.trimStart_bar (text more : List Char) :
    trimStart (text ++ '|' :: more) = trimStart text ++ '|' :: more :=
  dropWhile_break (by decide) text more

/-- What holds of the first character, if there is one, holds of it with more behind the text, if it
holds of the first character of that too. The rules for ranges ask for such things: that no digit
follows a number, say. -/
theorem forall_head?_append {p : Char → Prop} (hc : p c) (h : ∀ d, text.head? = some d → p d)
    (more : List Char) : ∀ d, (text ++ c :: more).head? = some d → p d := by
  cases text with
  | nil =>
    rintro _ ⟨⟩
    exact hc
  | cons => exact h

theorem CountsAt.bar {counts : List SignedCount} (h : CountsAt text counts rest)
    (more : List Char) : CountsAt (text ++ '|' :: more) counts (rest ++ '|' :: more) := by
  induction h with
  | @nil text hsigned =>
    refine .nil ?_
    cases text with
    | nil => rfl
    | cons d text =>
      rw [Address.startsSigned.eq_def] at hsigned ⊢
      split at hsigned <;> simp_all
  | @cons count text counts rest hdigit _ ih =>
    rw [List.cons_append, List.append_assoc]
    exact .cons (forall_head?_append (by decide) hdigit more) ih

theorem BaseAt.bar {base : Option WrittenBase} (h : BaseAt text base rest) (more : List Char) :
    BaseAt (text ++ '|' :: more) base (rest ++ '|' :: more) := by
  cases h with
  | current => exact .current
  | last => exact .last
  | number hdigit =>
    rw [List.append_assoc]
    exact .number (forall_head?_append (by decide) hdigit more)
  | omitted hnone => exact .omitted (forall_head?_append (by decide) hnone more)

theorem AddressAt.bar {w : WrittenAddress} (h : AddressAt text w rest) (more : List Char) :
    AddressAt (text ++ '|' :: more) w (rest ++ '|' :: more) := by
  obtain ⟨middle, hbase, hcounts⟩ := h
  exact ⟨_, hbase.bar more, hcounts.bar more⟩

theorem StartsSeparator.of_bar {more : List Char} (h : StartsSeparator (text ++ '|' :: more)) :
    StartsSeparator text := by
  obtain ⟨d, others, htext, hd⟩ := h
  cases text with
  | nil =>
    cases htext
    exact absurd hd (by decide)
  | cons e text =>
    cases htext
    exact ⟨_, _, rfl, hd⟩

theorem AddressesAt.bar {ws : List WrittenAddress} (h : AddressesAt text ws rest)
    (more : List Char) : AddressesAt (text ++ '|' :: more) ws (rest ++ '|' :: more) := by
  induction h with
  | nil hbase hcounts => exact .nil (hbase.bar more) (hcounts.bar more)
  | last hw hrest =>
    rw [← Text.trimStart_bar]
    refine .last (hw.bar more) fun hseparator => hrest ?_
    rw [Text.trimStart_bar] at hseparator
    exact hseparator.of_bar
  | next hw hmiddle hc _ ih =>
    refine .next (hw.bar more) (by rw [Text.trimStart_bar, hmiddle, List.cons_append]) hc ?_
    rwa [Text.trimStart_bar]

/-- A bar ends a range. -/
theorem LineRange.RangeAt.bar {ws : List WrittenAddress} (h : RangeAt text ws rest)
    (more : List Char) : RangeAt (text ++ '|' :: more) ws (rest ++ '|' :: more) := by
  cases h with
  | all hall => exact .all (by rw [Text.trimStart_bar, hall, List.cons_append])
  | addresses hnot haddresses =>
    refine .addresses ?_ ?_
    · rw [Text.trimStart_bar]
      cases hstart : Text.trimStart text with
      | nil => rintro _ ⟨⟩
      | cons d others =>
        rintro _ ⟨⟩
        exact hnot _ hstart
    · rw [Text.trimStart_bar]
      exact haddresses.bar more

/-- The range at the front of a text is read in the same way with a bar behind the text. -/
theorem LineRange.parse_bar (text more : List Char) :
    parse (text ++ '|' :: more) = ((parse text).1, (parse text).2 ++ '|' :: more) := by
  obtain ⟨ws, rest, h⟩ := exists_rangeAt text
  rw [parse_of_rangeAt h, parse_of_rangeAt (h.bar more)]

end Ranges

namespace Script

/-- The name at the front of a statement ends at a bar. Whether digits belong to it depends on
whether it begins with an uppercase letter, and a bar is none. -/
theorem nameOf_bar (text more : List Char) :
    Keyword.nameOf (text ++ '|' :: more) = Keyword.nameOf text := by
  have starts : Keyword.startsUppercase (text ++ '|' :: more) = Keyword.startsUppercase text := by
    cases text with
    | nil =>
      have lower : isUppercase '|' = false := by decide
      exact lower
    | cons => rfl
  have same : Keyword.isNameChar (text ++ '|' :: more) = Keyword.isNameChar text := by
    funext d
    rw [Keyword.isNameChar, Keyword.isNameChar, starts]
  have ends : Keyword.isNameChar text '|' = false := by
    have notAlpha : Char.isAlpha '|' = false := by decide
    have notDigit : Char.isDigit '|' = false := by decide
    rw [Keyword.isNameChar, notAlpha, notDigit, Bool.and_false, Bool.or_false]
  rw [Keyword.nameOf, same, Text.takeWhile_break ends]
  rfl

/-- What stands behind a bar has no say in whether a statement takes all of its line. -/
theorem takesLine_bar (text more : List Char) :
    takesLine (text ++ '|' :: more) = takesLine text := by
  have dropped : dropColons (text ++ '|' :: more) = dropColons text ++ '|' :: more :=
    Text.dropWhile_break (by decide) text more
  have keyword : keywordOf (dropColons text ++ '|' :: more) = keywordOf (dropColons text) := by
    rw [keywordOf, keywordOf, LineRange.parse_bar, nameOf_bar]
  have comment : isComment (dropColons text ++ '|' :: more) = isComment (dropColons text) := by
    cases dropColons text with
    | nil => rfl
    | cons d others =>
      rw [List.cons_append, isComment.eq_def, isComment.eq_def]
      split <;> simp_all
  rw [takesLine, takesLine, dropped, keyword, comment]

/-! ### Quotes

`cutAtBar` looks at one character in three places only to see what the next one is: at a bar, which
may be the first half of `||`, and at a backslash, in front of a bar or inside double quotes. A bar
that is put behind a text can thus be seen as a part of what is in front of it only if the text ends
in a bar or in a backslash, and those are the two hypotheses below. Otherwise what decides is
whether a quote is open there. -/

/-- The quote that is open behind a text, given the one that is open in front of it. -/
def openQuote : Option Quote → List Char → Option Quote
  | quote, [] => quote
  | none, '\'' :: rest => openQuote (some .single) rest
  | none, '"' :: rest => openQuote (some .double) rest
  | some .single, '\'' :: rest => openQuote none rest
  | some .double, '"' :: rest => openQuote none rest
  | some .double, '\\' :: _ :: rest => openQuote (some .double) rest
  | quote, _ :: rest => openQuote quote rest

theorem getLast?_ne_of_cons {c d : Char} {rest : List Char} (h : (d :: rest).getLast? ≠ some c) :
    rest.getLast? ≠ some c := by
  intro hrest
  rw [List.getLast?_cons, hrest] at h
  exact h rfl

/-- **A bar behind a text cuts there**, if no quote is open and the bar is not a part of something
else. What is cut before is cut as before. -/
theorem cutAtBar_append {quote : Option Quote} {line : List Char} {rest : List Char}
    (hclosed : openQuote quote line = none) (hbar : line.getLast? ≠ some '|')
    (hbackslash : line.getLast? ≠ some '\\') (hrest : rest.head? ≠ some '|') :
    cutAtBar quote (line ++ '|' :: rest) =
      ((cutAtBar quote line).1, some ((cutAtBar quote line).2.elim rest (· ++ '|' :: rest))) := by
  fun_induction cutAtBar quote line with
  | case1 quote =>
    obtain rfl : quote = none := hclosed
    rw [List.nil_append, cutAtBar]
    · rfl
    · rintro more rfl
      exact hrest rfl
  | case2 others ih =>
    have h := ih hclosed (getLast?_ne_of_cons (getLast?_ne_of_cons hbar))
      (getLast?_ne_of_cons (getLast?_ne_of_cons hbackslash))
    simp only [List.cons_append, cutAtBar, h]
  | case3 others ih =>
    have h := ih hclosed (getLast?_ne_of_cons (getLast?_ne_of_cons hbar))
      (getLast?_ne_of_cons (getLast?_ne_of_cons hbackslash))
    simp only [List.cons_append, cutAtBar, h]
  | case4 others hothers =>
    cases others with
    | nil => exact absurd rfl hbar
    | cons d others =>
      rw [List.cons_append, cutAtBar]
      · rfl
      · rintro more ⟨⟩
        exact hothers _ rfl
  | case5 others ih | case6 others ih | case7 others ih | case8 others ih =>
    have h := ih hclosed (getLast?_ne_of_cons hbar) (getLast?_ne_of_cons hbackslash)
    simp only [List.cons_append, cutAtBar, h]
  | case9 d others ih =>
    have h := ih hclosed (getLast?_ne_of_cons (getLast?_ne_of_cons hbar))
      (getLast?_ne_of_cons (getLast?_ne_of_cons hbackslash))
    simp only [List.cons_append, cutAtBar, h]
  | case10 quote d others hescaped hbars hcut hsingle hdouble hclose hclose' hpair ih =>
    have closed : openQuote quote others = none := by
      rw [openQuote] at hclosed
      · exact hclosed
      · exact hsingle
      · exact hdouble
      · exact hclose
      · exact hclose'
      · exact hpair
    have h := ih closed (getLast?_ne_of_cons hbar) (getLast?_ne_of_cons hbackslash)
    rw [List.cons_append, cutAtBar, h]
    · rintro more hq rfl hmore
      cases others with
      | nil => exact hbackslash rfl
      | cons e others =>
        cases hmore
        exact hescaped _ hq rfl rfl
    · rintro more hq rfl hmore
      exact hcut hq rfl
    · exact hcut
    · exact hsingle
    · exact hdouble
    · exact hclose
    · exact hclose'
    · rintro e more hq rfl hmore
      cases others with
      | nil => exact hbackslash rfl
      | cons f others => exact hpair _ _ hq rfl rfl

/-- What is left behind a cut, and the bar in front of it, outside of quotes. -/
theorem exists_of_cutAtBar {quote : Option Quote} {line rest : List Char}
    (h : (cutAtBar quote line).2 = some rest) :
    (∃ before, line = before ++ '|' :: rest) ∧ openQuote quote line = openQuote none rest := by
  fun_induction cutAtBar quote line with
  | case1 => cases h
  | case4 others =>
    cases h
    exact ⟨⟨[], rfl⟩, rfl⟩
  | case2 others ih | case3 others ih | case9 d others ih =>
    obtain ⟨⟨before, rfl⟩, hquote⟩ := ih h
    exact ⟨⟨_ :: _ :: before, rfl⟩, hquote⟩
  | case5 others ih | case6 others ih | case7 others ih | case8 others ih =>
    obtain ⟨⟨before, rfl⟩, hquote⟩ := ih h
    exact ⟨⟨_ :: before, rfl⟩, hquote⟩
  | case10 quote d others _ _ _ hsingle hdouble hclose hclose' hpair ih =>
    obtain ⟨⟨before, rfl⟩, hquote⟩ := ih h
    refine ⟨⟨_ :: before, rfl⟩, ?_⟩
    rw [openQuote, hquote]
    · exact hsingle
    · exact hdouble
    · exact hclose
    · exact hclose'
    · exact hpair

/-! ### Lines

`splitBars` counts down from the length of the line so that it is seen to end. `splitBars_eq` takes
the count away: it reads as the function would without one, and it is all that is used below. -/

/-- Any count that is greater than the length of the line gives the same statements, since each cut
leaves a shorter line. -/
theorem splitUpTo_congr {n : Nat} : ∀ {n' : Nat} {line : List Char}, line.length < n →
    line.length < n' → splitUpTo n line = splitUpTo n' line := by
  induction n with
  | zero => exact fun hn => absurd hn (Nat.not_lt_zero _)
  | succ n ih =>
    intro n' line hn hn'
    obtain ⟨k, rfl⟩ : ∃ k, n' = k + 1 := ⟨n' - 1, by omega⟩
    rw [splitUpTo, splitUpTo]
    split
    · rfl
    · rcases hcut : cutAtBar none line with ⟨statement, _ | rest⟩
      · rfl
      · have hlength := length_of_cutAtBar (congrArg Prod.snd hcut)
        exact congrArg (statement :: ·) (ih (by omega) (by omega))

/-- The statements of a line, without a bound on their number. -/
theorem splitBars_eq (line : List Char) :
    splitBars line =
      if takesLine line then [line]
      else
        match cutAtBar none line with
        | (statement, none) => [statement]
        | (statement, some rest) => statement :: splitBars rest := by
  rw [splitBars, splitUpTo]
  rcases hcut : cutAtBar none line with ⟨statement, _ | rest⟩
  · rfl
  · have hlength := length_of_cutAtBar (congrArg Prod.snd hcut)
    simp only [splitBars, splitUpTo_congr hlength (Nat.lt_succ_self _)]

/-- Whether a bar behind a line ends a statement: no quote is open, no bar and no backslash touch
it, and the last statement is no comment and no `:command`. -/
structure EndsStatement (line : List Char) : Prop where
  closed : openQuote none line = none
  notBar : line.getLast? ≠ some '|'
  notBackslash : line.getLast? ≠ some '\\'
  last : ∀ statement ∈ (splitBars line).getLast?,
    isComment (dropColons statement) = false ∧
      keywordOf (dropColons statement) ≠ some .defineCommand

namespace EndsStatement

variable {line statement rest : List Char}

/-- If the first statement took all of the line it would be the last one. -/
theorem takesLine_eq (h : EndsStatement line) : takesLine line = false := by
  cases htakes : takesLine line with
  | false => rfl
  | true =>
    have whole : splitBars line = [line] := by
      rw [splitBars_eq, if_pos htakes]
    obtain ⟨comment, keyword⟩ := h.last line (by rw [whole]; rfl)
    rw [takesLine, comment, Bool.or_false, beq_iff_eq] at htakes
    exact absurd htakes keyword

/-- What is left behind a cut ends as the line does. -/
theorem behind (h : EndsStatement line) (hcut : cutAtBar none line = (statement, some rest)) :
    EndsStatement rest := by
  have hsplit : splitBars line = statement :: splitBars rest := by
    rw [splitBars_eq, h.takesLine_eq, hcut]
    rfl
  obtain ⟨⟨before, hline⟩, hquote⟩ := exists_of_cutAtBar (congrArg Prod.snd hcut)
  have ends {c : Char} (hc : line.getLast? ≠ some c) : rest.getLast? ≠ some c := by
    rw [hline, List.getLast?_append, List.getLast?_cons, Option.some_or] at hc
    intro hrest
    rw [hrest] at hc
    exact hc rfl
  refine ⟨hquote ▸ h.closed, ends h.notBar, ends h.notBackslash, fun s hs => h.last s ?_⟩
  rw [Option.mem_def] at hs ⊢
  rw [hsplit, List.getLast?_cons, hs]
  rfl

end EndsStatement

/-- **A line is cut at the bar behind it**, and its own statements are the same as before. -/
theorem splitBars_append {line rest : List Char} (h : EndsStatement line)
    (hrest : rest.head? ≠ some '|') :
    splitBars (line ++ '|' :: rest) = splitBars line ++ splitBars rest := by
  induction hlength : line.length using Nat.strong_induction_on generalizing line with
  | _ n ih =>
    rw [splitBars_eq (line ++ '|' :: rest), takesLine_bar, splitBars_eq line, h.takesLine_eq,
      cutAtBar_append h.closed h.notBar h.notBackslash hrest]
    -- what is left behind a cut is shorter and ends as the line does
    rcases hcut : cutAtBar none line with ⟨statement, _ | others⟩
    · rfl
    · have hshort := length_of_cutAtBar (congrArg Prod.snd hcut)
      exact congrArg (statement :: ·) (ih _ (hlength ▸ hshort) (h.behind hcut) rfl)

/-! ### Logical lines

Lines are joined before they are cut at bars, so the bar has to be followed through that first. A
line that goes on the line before is put behind it and does not look at it, so what the lines behind
the first one make of it is the same whatever its front is, and the bar with the first text may be
that front. If the second text has no line at all the bar ends the line. -/

/-- A line that goes on the line before leaves the front of that line alone. -/
theorem joinLine_singleton (line : List Char) :
    (∃ more, ∀ first, joinLine [first] line = [first ++ more]) ∨
      ∀ first, joinLine [first] line = [line, first] := by
  cases hcontinues : continuesLine line with
  | false => exact .inr fun first => joinLine_of_not_continues hcontinues [first]
  | true =>
    left
    rw [continuesLine] at hcontinues
    split at hcontinues
    next more hstart =>
      refine ⟨more, fun first => ?_⟩
      simp only [joinLine, hstart]
    next hstart =>
      refine ⟨[], fun first => ?_⟩
      simp only [joinLine, hstart, List.append_nil]
    next => cases hcontinues

/-- The lines behind a line make the same of it whatever its front is. -/
theorem foldl_joinLine_singleton (lines : List (List Char)) :
    ∃ behind more, ∀ first, lines.foldl joinLine [first] = behind ++ [first ++ more] := by
  -- `more` is what has gone on the first line so far, until a line stands alone in `behind`
  suffices h : ∀ behind more, ∃ behind' more', ∀ first,
      lines.foldl joinLine (behind ++ [first ++ more]) = behind' ++ [first ++ more'] by
    simpa using h [] []
  induction lines with
  | nil => exact fun behind more => ⟨behind, more, fun first => rfl⟩
  | cons line lines ih =>
    intro behind more
    cases behind with
    | cons last before =>
      obtain ⟨behind', more', h⟩ := ih (joinLine (last :: before) line) more
      refine ⟨behind', more', fun first => ?_⟩
      rw [List.foldl_cons, joinLine_append (List.cons_ne_nil last before), h]
    | nil =>
      rcases joinLine_singleton line with ⟨others, hjoin⟩ | hjoin
      · obtain ⟨behind', more', h⟩ := ih [] (more ++ others)
        refine ⟨behind', more', fun first => ?_⟩
        rw [List.nil_append, List.foldl_cons, hjoin, List.append_assoc]
        exact h first
      · obtain ⟨behind', more', h⟩ := ih [line] more
        refine ⟨behind', more', fun first => ?_⟩
        rw [List.nil_append, List.foldl_cons, hjoin]
        exact h first

/-- The lines of a text with a bar and another text behind it. -/
theorem lines_bar {a : List Char} (hsingle : '\n' ∉ a) (b : List Char) :
    Text.lines b = [] ∧ Text.lines (a ++ '|' :: b) = [a ++ ['|']] ∨
      ∃ first others, Text.lines b = first :: others ∧
        Text.lines (a ++ '|' :: b) = (a ++ '|' :: first) :: others := by
  have pieces : (a ++ '|' :: b).splitOnP (· == '\n') =
      (b.splitOnP (· == '\n')).modifyHead ((a ++ ['|']) ++ ·) := by
    have none : '\n' ∉ a ++ ['|'] := List.not_mem_append hsingle (by decide)
    rw [List.append_cons]
    generalize a ++ ['|'] = front at none
    induction front with
    | nil =>
      rw [List.nil_append]
      cases b.splitOnP (· == '\n') <;> rfl
    | cons c front ih =>
      rw [List.mem_cons, not_or] at none
      have hc : (c == '\n') = false := by simpa using Ne.symm none.1
      rw [List.cons_append, List.splitOnP_cons_eq_if_modifyHead, hc, ih none.2]
      cases b.splitOnP (· == '\n') <;> rfl
  obtain ⟨piece, rest, hrest⟩ := List.exists_cons_of_ne_nil (List.splitOnP_ne_nil (· == '\n') b)
  rw [Text.lines, Text.lines, pieces, hrest, List.modifyHead_cons, List.append_assoc]
  cases rest with
  | nil =>
    cases piece with
    | nil => exact .inl ⟨rfl, by simp [Text.linesOfPieces]⟩
    | cons c piece => exact .inr ⟨c :: piece, [], by simp [Text.linesOfPieces]⟩
  | cons next rest =>
    have ends : Text.dropReturn (['|'] ++ piece) = ['|'] ++ Text.dropReturn piece := by
      cases piece with
      | nil => decide
      | cons c piece => exact Text.dropReturn_append ['|'] (List.cons_ne_nil c piece)
    have joined : Text.dropReturn (a ++ (['|'] ++ piece)) = a ++ '|' :: Text.dropReturn piece := by
      rw [Text.dropReturn_append a (by simp), ends]
      rfl
    exact .inr ⟨Text.dropReturn piece, _, rfl, by rw [Text.linesOfPieces, joined]⟩

/-- A line with none before it stands alone, unless it begins with a backslash. -/
theorem joinLine_nil {line : List Char} (h : (Text.trimStart line).head? ≠ some '\\') :
    joinLine [] line = [line] := by
  rw [joinLine.eq_def]
  split <;> simp_all

/-- The logical lines of a text with a bar and another text behind it. -/
theorem logicalLines_bar {a b : List Char} (hsingle : '\n' ∉ a)
    (hstart : (Text.trimStart a).head? ≠ some '\\')
    (hseam : ∀ line ∈ (Text.lines b).head?, continuesLine line = false) :
    logicalLines b = [] ∧ logicalLines (a ++ '|' :: b) = [a ++ ['|']] ∨
      ∃ first others, logicalLines b = first :: others ∧
        logicalLines (a ++ '|' :: b) = (a ++ '|' :: first) :: others := by
  have alone (rest : List Char) : joinLine [] (a ++ '|' :: rest) = [a ++ '|' :: rest] := by
    refine joinLine_nil ?_
    rw [Text.trimStart_bar]
    cases hblank : Text.trimStart a with
    | nil => simp
    | cons c others => rwa [hblank] at hstart
  rcases lines_bar hsingle b with ⟨hb, hab⟩ | ⟨first, others, hb, hab⟩
  · left
    rw [logicalLines, logicalLines, hb, hab, List.foldl_cons, alone]
    exact ⟨rfl, rfl⟩
  · right
    obtain ⟨behind, more, hjoin⟩ := foldl_joinLine_singleton others
    refine ⟨first ++ more, behind.reverse, ?_, ?_⟩
    · have begins := hseam first (by rw [hb]; rfl)
      rw [logicalLines, hb, List.foldl_cons, joinLine_of_not_continues begins, hjoin,
        List.reverse_append]
      rfl
    · rw [logicalLines, hab, List.foldl_cons, alone, hjoin, List.reverse_append, List.append_assoc]
      rfl

/-! ### Statements

The two halves of the result: the bar is dealt with by `statements_bar`, and the line break by
`statements_append`, where a line may also end in a carriage return. -/

theorem statementsOfLines_bar {line rest : List Char} (h : EndsStatement line)
    (hrest : rest.head? ≠ some '|') :
    statementsOfLines [line ++ '|' :: rest] =
      statementsOfLines [line] ++ statementsOfLines [rest] := by
  simp [statementsOfLines, splitBars_append h hrest]

theorem statements_of_single {line : List Char} (hsingle : '\n' ∉ line)
    (hstart : (Text.trimStart line).head? ≠ some '\\') :
    statements line = statementsOfLines [line] := by
  cases line with
  | nil => decide
  | cons c rest =>
    rw [statements_eq, logicalLines, Text.lines_of_single (List.cons_ne_nil c rest) hsingle,
      List.foldl_cons, joinLine_nil hstart]
    rfl

/-- **The statements of a line and of a text behind a bar.** -/
theorem statements_bar {a b : List Char} (hsingle : '\n' ∉ a)
    (hstart : (Text.trimStart a).head? ≠ some '\\') (ha : EndsStatement a)
    (hseam : ∀ line ∈ (Text.lines b).head?, continuesLine line = false)
    (hbar : ∀ line ∈ (logicalLines b).head?, line.head? ≠ some '|') :
    statements (a ++ '|' :: b) = statements a ++ statements b := by
  rw [statements_eq (a ++ '|' :: b), statements_of_single hsingle hstart, statements_eq b]
  rcases logicalLines_bar hsingle hstart hseam with ⟨hb, hab⟩ | ⟨first, others, hb, hab⟩
  · rw [hb, hab, statementsOfLines_bar ha (by simp)]
    rfl
  · have hfirst := hbar first (by rw [hb]; rfl)
    have hsplit := statementsOfLines_append [a ++ '|' :: first] others
    have hsplit' := statementsOfLines_append [first] others
    rw [List.singleton_append] at hsplit hsplit'
    rw [hb, hab, hsplit, hsplit', statementsOfLines_bar ha hfirst, List.append_assoc]

/-- **A bar and a line break separate statements alike.** Behind a line that does not begin with a
backslash, that leaves no quote open and ends neither in a bar nor in a backslash, and whose last
statement is no comment and no `:command`, either can stand, if the text behind it does not go on
the line and does not begin with a bar. The tree is the same, and so is an error if there is one. -/
theorem parse_bar_eq_parse_lineBreak {a b : String} (hsingle : '\n' ∉ a.toList)
    (hstart : (Text.trimStart a.toList).head? ≠ some '\\') (ha : EndsStatement a.toList)
    (hseam : ∀ line ∈ (Text.lines b.toList).head?, continuesLine line = false)
    (hbar : ∀ line ∈ (logicalLines b.toList).head?, line.head? ≠ some '|') :
    parse (a ++ "|" ++ b) = parse (a ++ "\n" ++ b) := by
  have barred : (a ++ "|" ++ b).toList = a.toList ++ '|' :: b.toList := by simp
  have broken : (a ++ "\n" ++ b).toList = a.toList ++ '\n' :: b.toList := by simp
  rw [parse, parse, barred, broken, statements_bar hsingle hstart ha hseam hbar,
    statements_append a.toList hseam]

/-- A range and an `:if` whose condition has a bar in it, and behind the bar more of the line, with
a bar that a backslash takes the meaning of, and a line that goes on it. -/
theorem parse_bar_eq_parse_lineBreak_inText :
    '\n' ∉ "1,$d | if n || 'a|b'\r".toList ∧
      (Text.trimStart "1,$d | if n || 'a|b'\r".toList).head? ≠ some '\\' ∧
      EndsStatement "1,$d | if n || 'a|b'\r".toList ∧
      (∀ line ∈ (Text.lines ": Note a\\|b\n \\| endif".toList).head?,
        continuesLine line = false) ∧
      (∀ line ∈ (logicalLines ": Note a\\|b\n \\| endif".toList).head?, line.head? ≠ some '|') ∧
      parse "1,$d | if n || 'a|b'\r|: Note a\\|b\n \\| endif" =
        parse "1,$d | if n || 'a|b'\r\n: Note a\\|b\n \\| endif" := by
  have hsingle : '\n' ∉ "1,$d | if n || 'a|b'\r".toList := by decide
  have hstart : (Text.trimStart "1,$d | if n || 'a|b'\r".toList).head? ≠ some '\\' := by decide
  have ha : EndsStatement "1,$d | if n || 'a|b'\r".toList :=
    ⟨by decide, by decide, by decide, by decide +kernel⟩
  have hseam : ∀ line ∈ (Text.lines ": Note a\\|b\n \\| endif".toList).head?,
      continuesLine line = false := by
    decide
  have hbar : ∀ line ∈ (logicalLines ": Note a\\|b\n \\| endif".toList).head?,
      line.head? ≠ some '|' := by
    decide
  have same := parse_bar_eq_parse_lineBreak hsingle hstart ha hseam hbar
  have barred : "1,$d | if n || 'a|b'\r" ++ "|" ++ ": Note a\\|b\n \\| endif" =
      "1,$d | if n || 'a|b'\r|: Note a\\|b\n \\| endif" := by
    decide
  have broken : "1,$d | if n || 'a|b'\r" ++ "\n" ++ ": Note a\\|b\n \\| endif" =
      "1,$d | if n || 'a|b'\r\n: Note a\\|b\n \\| endif" := by
    decide
  rw [barred, broken] at same
  exact ⟨hsingle, hstart, ha, hseam, hbar, same⟩

end Script

end ExScript
