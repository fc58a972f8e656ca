import ExScript.Proofs.Script.Plain
import ExScript.Proofs.Script.Seam

/-!
# Lines cut into pieces

A line that is too long can be cut: what is behind the cut is written on a line of its own, behind
blanks and a backslash, and comments may stand between the pieces. The lines are put together again
before anything else is looked at, so it makes no difference where the cuts are. They may be in the
middle of a name, between the two characters of an operator or in a text; a piece may be empty, and
it may begin with a backslash or a quote of its own.

Two conditions remain. The whole line must not be one that goes on another line itself, or is such a
comment; then neither is its first piece, however short that is (`continuesLine_append`). And it
holds no carriage return, since one at the end of a piece would be taken for a part of the line
break.

## Main definitions

* `Cut` — the pieces of a line, with what is written around them
* `Cut.line`, `Cut.lines` — the line, and the lines that are written in its place

## Main results

* `Cut.foldl_joinLine` — the pieces are put together again
* `parse_cut` — a script with a line that is cut is read as the script with the whole line
-/

namespace ExScript

/-! ### Lines and their ends -/

namespace Text

theorem dropReturn_append (before : List Char) {rest : List Char} (h : rest ≠ []) :
    dropReturn (before ++ rest) = before ++ dropReturn rest := by
  have hlast : (before ++ rest).getLast? = rest.getLast? := List.getLast?_append_of_ne_nil _ h
  rw [dropReturn, dropReturn, hlast]
  split
  · exact List.dropLast_append_of_ne_nil h
  · rfl

theorem dropReturn_of_not_mem {line : List Char} (h : '\r' ∉ line) : dropReturn line = line :=
  dropReturn_eq_self_iff.mpr fun hlast => h (List.mem_of_getLast? hlast)

/-- What is left of a text that is not all blank begins in the text. -/
theorem trimStart_append {text : List Char} (h : trimStart text ≠ []) (rest : List Char) :
    trimStart (text ++ rest) = trimStart text ++ rest := by
  have hempty : (text.dropWhile isBlank).isEmpty = false := List.isEmpty_eq_false_iff.mpr h
  rw [trimStart, List.dropWhile_append, hempty]
  rfl

/-- Texts with line feeds between them are split at these line feeds, and each on its own. -/
theorem splitOnP_intercalate {texts : List (List Char)} (h : texts ≠ []) :
    (['\n'].intercalate texts).splitOnP (· == '\n') =
      texts.flatMap fun text => text.splitOnP (· == '\n') := by
  induction texts with
  | nil => exact absurd rfl h
  | cons text texts ih =>
    cases texts with
    | nil => simp
    | cons next texts =>
      have split : (text ++ '\n' :: ['\n'].intercalate (next :: texts)).splitOnP (· == '\n') =
          text.splitOnP (· == '\n') ++
            (['\n'].intercalate (next :: texts)).splitOnP (· == '\n') :=
        List.splitOnP_append_cons _ _ (by decide)
      rw [List.intercalate_cons_cons, List.append_assoc, List.singleton_append, split,
        ih (List.cons_ne_nil next texts)]
      rfl

end Text

namespace Script

/-- The text of some lines. A line feed stands between two of them. -/
def ofLines (lines : List (List Char)) : String :=
  String.ofList (['\n'].intercalate lines)

theorem statements_ofLines {lines : List (List Char)} (h : lines ≠ []) :
    statements (ofLines lines).toList =
      statementsOfLines ((lines.flatMap fun line =>
        (line.splitOnP (· == '\n')).map Text.dropReturn).foldl joinLine []).reverse := by
  rw [ofLines, String.toList_ofList, ← statementsOfLines_pieces, Text.splitOnP_intercalate h,
    List.map_flatMap]

/-! ### Pieces -/

/-- The blanks in front of a line. -/
structure Indentation where
  chars : List Char
  all_blank : chars.all isBlank = true
  single : '\n' ∉ chars

theorem Indentation.trimStart_append (indentation : Indentation) (text : List Char) :
    Text.trimStart (indentation.chars ++ text) = Text.trimStart text :=
  Text.trimStart_blanks (List.all_eq_true.mp indentation.all_blank) text

/-- A comment that stands between the pieces of a line. -/
structure PieceComment where
  indentation : Indentation
  text : List Char
  single : '\n' ∉ text

def PieceComment.line (c : PieceComment) : List Char :=
  c.indentation.chars ++ '"' :: '\\' :: ' ' :: c.text

/-- A piece behind a cut, with the comments that stand in front of it. -/
structure Continuation where
  comments : List PieceComment
  indentation : Indentation
  piece : List Char

namespace Continuation

/-- The line on which the piece is written. -/
def line (c : Continuation) : List Char :=
  c.indentation.chars ++ '\\' :: c.piece

/-- The lines that are written for a piece. -/
def lines (c : Continuation) : List (List Char) :=
  c.comments.map PieceComment.line ++ [c.line]

end Continuation

/-- A line that is cut into pieces: the piece that its own line begins with, and those behind the
cuts. -/
structure Cut where
  first : List Char
  more : List Continuation

namespace Cut

/-- The line. -/
def line (cut : Cut) : List Char :=
  cut.first ++ cut.more.flatMap Continuation.piece

/-- The lines that are written in its place. -/
def lines (cut : Cut) : List (List Char) :=
  cut.first :: cut.more.flatMap Continuation.lines

end Cut

/-! ### Joining -/

/-- If a piece at the front of a line makes it go on the line before, the whole line does. -/
theorem continuesLine_append {line : List Char} (h : continuesLine line = true)
    (rest : List Char) : continuesLine (line ++ rest) = true := by
  have hne : Text.trimStart line ≠ [] := by
    intro hnil
    rw [continuesLine, hnil] at h
    cases h
  rw [continuesLine] at h ⊢
  rw [Text.trimStart_append hne]
  split at h
  next more hstart => simp only [hstart, List.cons_append]
  next more hstart => simp only [hstart, List.cons_append]
  next => cases h

/-- A comment between two pieces leaves no trace. -/
theorem joinLine_comment (c : PieceComment) (last : List Char) (before : List (List Char)) :
    joinLine (last :: before) (Text.dropReturn c.line) = last :: before := by
  obtain ⟨text, htext⟩ : ∃ text, Text.dropReturn c.line =
      c.indentation.chars ++ '"' :: '\\' :: ' ' :: text := by
    rw [PieceComment.line, Text.dropReturn_append _ (List.cons_ne_nil _ _)]
    cases c.text with
    | nil => exact ⟨[], rfl⟩
    | cons d text =>
      have ends : Text.dropReturn (['"', '\\', ' '] ++ d :: text) =
          ['"', '\\', ' '] ++ Text.dropReturn (d :: text) :=
        Text.dropReturn_append _ (List.cons_ne_nil d text)
      exact ⟨_, congrArg _ ends⟩
  have start : Text.trimStart ('"' :: '\\' :: ' ' :: text) = '"' :: '\\' :: ' ' :: text :=
    Text.trimStart_cons (by decide) _
  simp only [joinLine, htext, c.indentation.trimStart_append, start]

/-- A piece is put behind the line so far. -/
theorem joinLine_piece {c : Continuation} (h : '\r' ∉ c.piece) (last : List Char)
    (before : List (List Char)) :
    joinLine (last :: before) (Text.dropReturn c.line) = (last ++ c.piece) :: before := by
  have hline : Text.dropReturn c.line = c.indentation.chars ++ '\\' :: c.piece := by
    have hreturn : '\r' ∉ '\\' :: c.piece := by simp [h]
    rw [Continuation.line, Text.dropReturn_append _ (List.cons_ne_nil _ _),
      Text.dropReturn_of_not_mem hreturn]
  have start : Text.trimStart ('\\' :: c.piece) = '\\' :: c.piece :=
    Text.trimStart_cons (by decide) _
  simp only [joinLine, hline, c.indentation.trimStart_append, start]

theorem foldl_joinLine_comments (comments : List PieceComment) (last : List Char)
    (before : List (List Char)) :
    ((comments.map PieceComment.line).map Text.dropReturn).foldl joinLine (last :: before) =
      last :: before := by
  induction comments with
  | nil => rfl
  | cons c comments ih =>
    rw [List.map_cons, List.map_cons, List.foldl_cons, joinLine_comment, ih]

/-- The pieces behind the cuts are put behind the line so far, one after the other. -/
theorem foldl_joinLine_continuations {more : List Continuation}
    (h : '\r' ∉ more.flatMap Continuation.piece) (last : List Char) (before : List (List Char)) :
    ((more.flatMap Continuation.lines).map Text.dropReturn).foldl joinLine (last :: before) =
      (last ++ more.flatMap Continuation.piece) :: before := by
  induction more generalizing last with
  | nil => simp
  | cons c more ih =>
    rw [List.flatMap_cons, List.mem_append, not_or] at h
    rw [List.flatMap_cons, Continuation.lines, List.map_append, List.map_append, List.foldl_append,
      List.foldl_append, foldl_joinLine_comments, List.map_singleton, List.foldl_cons,
      List.foldl_nil, joinLine_piece h.1, ih h.2, List.flatMap_cons, List.append_assoc]

namespace Cut

variable {cut : Cut}

/-- **The pieces of a line are put together again.** -/
theorem foldl_joinLine (hcontinues : continuesLine cut.line = false) (hreturn : '\r' ∉ cut.line)
    (done : List (List Char)) :
    (cut.lines.map Text.dropReturn).foldl joinLine done = cut.line :: done := by
  rw [line, List.mem_append, not_or] at hreturn
  have begins : continuesLine cut.first = false := by
    rw [← Bool.not_eq_true]
    intro hfirst
    have hline := continuesLine_append hfirst (cut.more.flatMap Continuation.piece)
    rw [← line, hcontinues] at hline
    cases hline
  rw [lines, List.map_cons, List.foldl_cons, Text.dropReturn_of_not_mem hreturn.1,
    joinLine_of_not_continues begins, foldl_joinLine_continuations hreturn.2]
  rfl

/-- None of the lines that are written for a line holds a line feed. -/
theorem single_lines (h : '\n' ∉ cut.line) : ∀ line ∈ cut.lines, '\n' ∉ line := by
  rw [line, List.mem_append, not_or, List.mem_flatMap] at h
  intro line hline
  rw [lines, List.mem_cons, List.mem_flatMap] at hline
  rcases hline with rfl | ⟨c, hc, hline⟩
  · exact h.1
  rw [Continuation.lines, List.mem_append, List.mem_map, List.mem_singleton] at hline
  rcases hline with ⟨comment, -, rfl⟩ | rfl
  · simp [PieceComment.line, comment.indentation.single, comment.single]
  · have hpiece : '\n' ∉ c.piece := fun hmem => h.2 ⟨c, hc, hmem⟩
    simp [Continuation.line, c.indentation.single, hpiece]

/-- The statements of a script in which a line is cut. -/
theorem statements_eq (hsingle : '\n' ∉ cut.line) (hreturn : '\r' ∉ cut.line)
    (hcontinues : continuesLine cut.line = false) (before after : List (List Char)) :
    statements (ofLines (before ++ cut.lines ++ after)).toList =
      statements (ofLines (before ++ [cut.line] ++ after)).toList := by
  have pieces : (cut.lines.flatMap fun line =>
      (line.splitOnP (· == '\n')).map Text.dropReturn) = cut.lines.map Text.dropReturn := by
    rw [← List.flatMap_pure_eq_map]
    refine List.flatMap_congr fun line hline => ?_
    rw [Text.splitOnP_of_single (single_lines hsingle line hline)]
    rfl
  have whole : ([cut.line].flatMap fun line =>
      (line.splitOnP (· == '\n')).map Text.dropReturn) = [cut.line] := by
    rw [List.flatMap_singleton, Text.splitOnP_of_single hsingle, List.map_singleton,
      Text.dropReturn_of_not_mem hreturn]
  rw [statements_ofLines (by simp [lines]), statements_ofLines (by simp)]
  simp only [List.flatMap_append, List.foldl_append, pieces, whole,
    foldl_joinLine hcontinues hreturn, List.foldl_cons, List.foldl_nil,
    joinLine_of_not_continues hcontinues]

end Cut

/-- **A script with a line that is cut is read as the script with the whole line.** Wherever the
cuts are and whatever comments stand between the pieces, the tree is the same, and so is the error
if there is one. -/
theorem parse_cut {cut : Cut} (hsingle : '\n' ∉ cut.line) (hreturn : '\r' ∉ cut.line)
    (hcontinues : continuesLine cut.line = false) (before after : List (List Char)) :
    parse (ofLines (before ++ cut.lines ++ after)) =
      parse (ofLines (before ++ [cut.line] ++ after)) := by
  rw [parse, parse, Cut.statements_eq hsingle hreturn hcontinues]

/-- An `:echo` that is cut behind nothing, in the middle of a text in front of a backslash, and
twice behind an operator. A comment stands in front of one of the pieces. -/
def cutInText : Cut where
  first := []
  more := [
    ⟨[], ⟨[' ', ' '], by decide, by decide⟩, "echo 'a".toList⟩,
    ⟨[⟨⟨[' '], by decide, by decide⟩, "more".toList, by decide⟩], ⟨[], by decide, by decide⟩,
      "\\b|' .".toList⟩,
    ⟨[], ⟨['\t'], by decide, by decide⟩, []⟩,
    ⟨[], ⟨[], by decide, by decide⟩, " n".toList⟩]

/-- A script of two lines, the second of which is cut. -/
theorem parse_cut_inText :
    parse "let n = 1\n\n  \\echo 'a\n \"\\ more\n\\\\b|' .\n\t\\\n\\ n" =
      parse "let n = 1\necho 'a\\b|' . n" := by
  have same := @parse_cut cutInText (by decide) (by decide) (by decide) ["let n = 1".toList] []
  have written : ofLines (["let n = 1".toList] ++ cutInText.lines ++ []) =
      "let n = 1\n\n  \\echo 'a\n \"\\ more\n\\\\b|' .\n\t\\\n\\ n" := by
    decide
  have whole : ofLines (["let n = 1".toList] ++ [cutInText.line] ++ []) =
      "let n = 1\necho 'a\\b|' . n" := by
    decide
  rwa [written, whole] at same

end Script

end ExScript
