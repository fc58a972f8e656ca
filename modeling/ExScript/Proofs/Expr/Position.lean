import Mathlib.Data.String.Basic
import ExScript.Proofs.Expr.Sequence

/-!
# Positions of tokens

Behind each token of a source there is a position, counted in bytes from the beginning, and behind
the last token there is the end. Expressions are cut out of a source at such positions
(`Lexeme.ofList_textBehind`). So none of them may be within a character, and from any of them on the
source has to be read as it was read before.

Reading depends on the text that is left of a source and on nothing else. What is left could as well
be a source of its own: its tokens are the same, and its positions are those in the whole source
less the position at which it begins (`Lexeme.map_shift_endings`). That positions increase is the
other side of the termination of reading: a token takes a character at least, and a character has a
byte at least.

## Main definitions

* `Lexeme.position` — where a text begins that is left of a source
* `Lexeme.Ending` — a token, or the end of the source, and the position behind it
* `Lexeme.endings` — all of them in a source, one after the other

## Main results

* `Lexeme.stops_increase` — positions increase from lexeme to lexeme
* `Lexeme.ofList_textBehind` — a sequence of expressions is cut at positions of its lexemes
* `Lexeme.endingsFrom_eq` — there is one ending for each lexeme, and one for the end
* `Lexeme.map_shift_endings` — what is left of a source, as a source of its own
* `Lexeme.endings_memoryless` — positions are sound, and reading can be taken up at any of them
-/

namespace ExScript

namespace Lexeme

/-! ### Positions -/

/-- The position in a source at which a text begins that is left of it. -/
def position (source : String) (text : List Char) : String.Pos.Raw :=
  ⟨source.utf8ByteSize - (String.ofList text).utf8ByteSize⟩

/-- What stands behind a position of a source. -/
def behind (source : String) (p : String.Pos.Raw) : String :=
  p.extract source source.rawEndPos

section Positions

variable {source : String} {whole text rest : List Char}

theorem behind_append (front rest : String) : behind (front ++ rest) front.rawEndPos = rest := by
  have hcut := String.extract_of_valid front.toList rest.toList []
  simpa [behind, String.rawEndPos] using hcut

theorem position_append (front : String) (text : List Char) :
    position (front ++ String.ofList text) text = front.rawEndPos := by
  rw [position, String.utf8ByteSize_append, Nat.add_sub_cancel]
  rfl

theorem position_nil (source : String) : position source [] = source.rawEndPos := by
  rw [position, String.ofList_nil]
  rfl

/-- In front of a text that is left of a source there is another text, which ends at its
position. -/
theorem exists_front (h : text <:+ source.toList) :
    ∃ front : String, source = front ++ String.ofList text ∧
      position source text = front.rawEndPos := by
  obtain ⟨front, hfront⟩ := h
  have hsource : source = String.ofList front ++ String.ofList text := by
    rw [← String.ofList_append, hfront, String.ofList_toList]
  exact ⟨String.ofList front, hsource, by rw [hsource, position_append]⟩

/-- The position of a text that is left is within no character. -/
theorem isValid_position (h : text <:+ source.toList) : (position source text).IsValid source := by
  obtain ⟨front, hsource, hposition⟩ := exists_front h
  exact String.Pos.Raw.isValid_iff_exists_append.mpr ⟨front, _, hsource, hposition⟩

theorem behind_position (h : text <:+ source.toList) :
    behind source (position source text) = String.ofList text := by
  obtain ⟨front, hsource, hposition⟩ := exists_front h
  rw [hposition, hsource, behind_append]

/-- A position in what is left of a source is that much further in the source. -/
theorem position_offsetBy (hwhole : whole <:+ source.toList) (htext : text <:+ whole) :
    (position (String.ofList whole) text).offsetBy (position source whole) =
      position source text := by
  obtain ⟨front, rfl, hfront⟩ := exists_front hwhole
  obtain ⟨middle, rfl⟩ := htext
  rw [hfront, String.ofList_append, position_append, ← String.append_assoc, position_append,
    String.rawEndPos, String.rawEndPos, String.rawEndPos, String.utf8ByteSize_append]
  rfl

/-- The less is left, the further is the position. -/
theorem position_lt (htext : text <:+ source.toList) (hrest : rest <:+ text)
    (hshort : rest.length < text.length) : position source text < position source rest := by
  obtain ⟨front, rfl, hfront⟩ := exists_front htext
  obtain ⟨middle, rfl⟩ := hrest
  have hmiddle : (String.ofList middle).utf8ByteSize ≠ 0 := by
    rw [Ne, String.utf8ByteSize_eq_zero_iff, String.ofList_eq_empty_iff]
    rintro rfl
    exact Nat.lt_irrefl _ hshort
  rw [hfront, String.ofList_append, ← String.append_assoc, position_append, String.Pos.Raw.lt_iff,
    String.byteIdx_rawEndPos, String.byteIdx_rawEndPos, String.utf8ByteSize_append]
  omega

end Positions

/-! ### What is left behind a lexeme -/

/-- Behind a lexeme less is left than of the text that it was read in. -/
theorem shrinks_of_mem {text : List Char} {l : Lexeme} (h : l ∈ scan text) :
    l.rest <:+ text ∧ l.rest.length < text.length := by
  obtain ⟨used, others, hscan⟩ := List.append_of_mem h
  obtain ⟨start, hspans, hstart⟩ := Spans.of_scan hscan
  obtain ⟨hnext, -⟩ := scan_eq_cons_iff.mp hstart
  have hshort := Script.length_of_next hnext
  have hlength := hspans.suffix.length_le
  exact ⟨(Script.suffix_of_next hnext).trans hspans.suffix, by omega⟩

/-- Behind a lexeme less is left than behind those in front of it. -/
theorem scan_shrinks (text : List Char) :
    (scan text).Pairwise fun l m => m.rest <:+ l.rest ∧ m.rest.length < l.rest.length := by
  generalize hscan : scan text = lexemes
  induction lexemes generalizing text with
  | nil => exact .nil
  | cons l others ih =>
    obtain ⟨-, hothers⟩ := scan_eq_cons_iff.mp hscan
    refine .cons (fun m hm => ?_) (ih l.rest hothers)
    rw [← hothers] at hm
    exact shrinks_of_mem hm

/-- The position behind a lexeme of a source. -/
def stop (source : String) (l : Lexeme) : String.Pos.Raw :=
  position source l.rest

theorem isValid_stop {source : String} {l : Lexeme} (h : l ∈ scan source.toList) :
    (l.stop source).IsValid source :=
  isValid_position (shrinks_of_mem h).1

theorem stops_increase (source : String) :
    ((scan source.toList).map (stop source)).Pairwise (· < ·) := by
  refine List.pairwise_map.mpr ((scan_shrinks source.toList).imp_of_mem fun hl _ hshort => ?_)
  exact position_lt (shrinks_of_mem hl).1 hshort.1 hshort.2

/-- A sequence of expressions is cut at positions of its lexemes: the text behind some of them is
what stands behind the position of the last one. -/
theorem ofList_textBehind {source : String} {text : List Char} {used rest : List Lexeme}
    (h : text <:+ source.toList) (hscan : scan text = used ++ rest) :
    String.ofList (Expression.textBehind text (scan text) rest) =
      behind source (used.getLast?.elim (position source text) (stop source)) := by
  obtain ⟨start, hspans, -⟩ := Spans.of_scan hscan
  rw [hscan, hspans.textBehind, ← behind_position (hspans.suffix.trans h), ← hspans.getLast?]
  cases used.getLast? <;> rfl

/-! ### Endings -/

/-- What ends at a position of a source: a token, or the source itself if there is none. -/
structure Ending where
  token? : Option Token
  stop : String.Pos.Raw
  deriving DecidableEq

/-- The same ending in a source with that much more in front. -/
def Ending.shift (p : String.Pos.Raw) (e : Ending) : Ending :=
  ⟨e.token?, e.stop.offsetBy p⟩

/-- The end of a lexeme of a source. -/
def ending (source : String) (l : Lexeme) : Ending :=
  ⟨some l.token, l.stop source⟩

/-- What ends in a text that is left of a source, one after the other. Where no token follows, the
separators that are left are passed over, and the source ends there. -/
def endingsFrom (source : String) (text : List Char) : List Ending :=
  match _hnext : next? text with
  | some l => l.ending source :: endingsFrom source l.rest
  | none => [⟨none, position source (text.dropWhile isSeparator)⟩]
termination_by text.length
decreasing_by exact Script.length_of_next _hnext

/-- What ends in a source, one after the other. -/
def endings (source : String) : List Ending :=
  endingsFrom source source.toList

section Endings

variable {source : String} {text : List Char}

/-- **The lexemes end one after the other, and then the source ends.** -/
theorem endingsFrom_eq (source : String) (text : List Char) :
    endingsFrom source text = (scan text).map (ending source) ++ [⟨none, source.rawEndPos⟩] := by
  fun_induction endingsFrom source text with
  | case1 text l hnext ih => rw [scan_eq_cons hnext, ih, List.map_cons, List.cons_append]
  | case2 text hnext =>
    rw [scan_eq_nil hnext, List.dropWhile_eq_nil_iff.mpr (separator_of_next_none hnext),
      position_nil, List.map_nil, List.nil_append]

/-- Behind the end of a token there is what ends in the text that is left there. -/
theorem endingsFrom_eq_append {before after : List Ending} {t : Token} {p : String.Pos.Raw}
    (h : endingsFrom source text = before ++ ⟨some t, p⟩ :: after) :
    ∃ rest, rest <:+ text ∧ p = position source rest ∧ after = endingsFrom source rest := by
  fun_induction endingsFrom source text generalizing before with
  | case1 text l hnext ih =>
    have hsuffix := Script.suffix_of_next hnext
    cases before with
    | nil =>
      obtain ⟨hfirst, hafter⟩ := List.cons.inj h
      exact ⟨l.rest, hsuffix, (Ending.mk.inj hfirst).2.symm, hafter.symm⟩
    | cons e before =>
      obtain ⟨rest, hrest, hp, hafter⟩ := ih (List.cons.inj h).2
      exact ⟨rest, hrest.trans hsuffix, hp, hafter⟩
  | case2 text hnext =>
    -- only the source ends here
    cases before with
    | nil => cases h
    | cons e before => cases before <;> cases h

/-- **What is left of a source is read like a source of its own**, but for where it begins. -/
theorem map_shift_endings (h : text <:+ source.toList) :
    (endings (String.ofList text)).map (.shift (position source text)) =
      endingsFrom source text := by
  rw [endings, String.toList_ofList, endingsFrom_eq, endingsFrom_eq, List.map_append, List.map_map]
  congr 1
  · refine List.map_congr_left fun l hl => ?_
    exact congrArg (Ending.mk (some l.token)) (position_offsetBy h (shrinks_of_mem hl).1)
  · have hend := position_offsetBy h List.nil_suffix
    rw [position_nil, position_nil] at hend
    exact congrArg (fun p => [Ending.mk none p]) hend

end Endings

/-- **Positions are sound, and reading has no memory.** A source ends once, at its end, and in front
of that its lexemes end. The positions behind them increase, and they are in the bounds of the
source and within no character. The text behind a token, read as a source of its own, gives what
followed the token, with all positions less by that of the token. Behind the end there is only an
end. -/
theorem endings_memoryless (source : String) :
    endings source = (scan source.toList).map (ending source) ++ [⟨none, source.rawEndPos⟩] ∧
      ((scan source.toList).map (stop source)).Pairwise (· < ·) ∧
      (∀ l ∈ scan source.toList,
        (l.stop source).IsValid source ∧ l.stop source ≤ source.rawEndPos) ∧
      (∀ before t p after, endings source = before ++ ⟨some t, p⟩ :: after →
        (endings (behind source p)).map (Ending.shift p) = after) ∧
      (endings (behind source source.rawEndPos)).map (Ending.shift source.rawEndPos) =
        [⟨none, source.rawEndPos⟩] := by
  refine ⟨endingsFrom_eq source source.toList, stops_increase source,
    fun l hl => ⟨isValid_stop hl, (isValid_stop hl).le_rawEndPos⟩, fun before t p after h => ?_, ?_⟩
  · obtain ⟨rest, hrest, rfl, rfl⟩ := endingsFrom_eq_append h
    rw [behind_position hrest, map_shift_endings hrest]
  · rw [← position_nil, behind_position List.nil_suffix, map_shift_endings List.nil_suffix,
      endingsFrom_eq, position_nil]
    rfl

/-- What ends in `Expression.crowdedSource` behind its second literal. -/
def crowdedBehind : List Ending :=
  [⟨some (.name "g:n"), ⟨16⟩⟩, ⟨some .leftBracket, ⟨17⟩⟩, ⟨some (.number 1), ⟨18⟩⟩,
    ⟨some .comma, ⟨19⟩⟩, ⟨some (.text "ü"), ⟨24⟩⟩, ⟨some .rightBracket, ⟨25⟩⟩,
    ⟨some .bang, ⟨28⟩⟩, ⟨some (.number 0), ⟨29⟩⟩, ⟨none, ⟨31⟩⟩]

/-- A name follows directly on a literal in which there are a letter of two bytes and a quote. -/
theorem endings_memoryless_crowded :
    endings Expression.crowdedSource =
        [⟨some (.text "it's"), ⟨7⟩⟩] ++ ⟨some (.text "é\""), ⟨13⟩⟩ :: crowdedBehind ∧
      (endings (behind Expression.crowdedSource ⟨13⟩)).map (.shift ⟨13⟩) = crowdedBehind := by
  have hwhole : endings Expression.crowdedSource =
      [⟨some (.text "it's"), ⟨7⟩⟩] ++ ⟨some (.text "é\""), ⟨13⟩⟩ :: crowdedBehind := by
    rw [endings, endingsFrom_eq]
    decide
  obtain ⟨-, -, -, resumed, -⟩ := endings_memoryless Expression.crowdedSource
  exact ⟨hwhole, resumed _ _ _ _ hwhole⟩

end Lexeme

end ExScript
