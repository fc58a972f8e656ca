import ExScript.Proofs.Script.Blocks
import ExScript.Proofs.Script.LineEnd

/-!
# Scripts one behind the other

Two scripts with a line break between them are read as the statements of the first and then those of
the second, if either can be read on its own. One thing is in the way of this: the first line of the
second script could go on the last line of the first, or be a comment that belongs to it. Everything
else looks at one line only, or at whole statements.

For the statements it need not even be possible to read the scripts. For the trees it has to be: a
block that is opened in one script could be closed in the other, and then the whole has a tree and
neither part of it has.

The line break itself is not quite a seam. It turns the text behind the last line feed of the first
script into a line, even if it is empty, and takes a carriage return from its end; neither makes a
difference to the statements.

## Main results

* `statements_append` — the statements of two scripts one behind the other
* `parse_append` — their trees
-/

namespace ExScript

/-! ### Lines

The last piece of a text is a line only if it is not empty, and keeps its carriage return. With a
line feed behind it, it is a line in any case and loses it. This is what the line break in the
middle changes, and the lines of the second text are untouched. -/

namespace Text

theorem dropReturn_cases (line : List Char) :
    dropReturn line = line ∨ line = dropReturn line ++ ['\r'] := by
  rw [dropReturn]
  split
  next hlast => exact .inr (List.dropLast_append_getLast? _ hlast).symm
  next => exact .inl rfl

theorem dropReturn_eq_self_iff {line : List Char} :
    dropReturn line = line ↔ line.getLast? ≠ some '\r' := by
  rw [dropReturn]
  split
  next hlast =>
    have hne : line ≠ [] := by
      rintro rfl
      cases hlast
    have shorter : line.dropLast ≠ line := by
      intro hsame
      have hlen := congrArg List.length hsame
      have hpos := List.length_pos_of_ne_nil hne
      rw [List.length_dropLast] at hlen
      omega
    exact ⟨fun hsame => absurd hsame shorter, fun hends => absurd hlast hends⟩
  next hends => exact ⟨fun _ => hends, fun _ => rfl⟩

/-- Pieces that others follow are not the last, so each of them is a line. -/
theorem linesOfPieces_append (pieces : List (List Char)) {others : List (List Char)}
    (hothers : others ≠ []) :
    linesOfPieces (pieces ++ others) = pieces.map dropReturn ++ linesOfPieces others := by
  induction pieces with
  | nil => rfl
  | cons piece pieces ih =>
    obtain ⟨next, rest, hrest⟩ := List.exists_cons_of_ne_nil
      (List.append_ne_nil_of_right_ne_nil pieces hothers)
    rw [hrest] at ih
    rw [List.cons_append, hrest, linesOfPieces, ih]
    rfl

/-- A line feed ends a line, whatever is behind it. -/
theorem lines_append (a b : List Char) :
    lines (a ++ '\n' :: b) = (a.splitOnP (· == '\n')).map dropReturn ++ lines b := by
  have pieces : (a ++ '\n' :: b).splitOnP (· == '\n') =
      a.splitOnP (· == '\n') ++ b.splitOnP (· == '\n') :=
    List.splitOnP_append_cons a b (by decide)
  rw [lines, pieces, linesOfPieces_append _ (List.splitOnP_ne_nil _ b)]
  rfl

end Text

namespace Script

/-! ### Logical lines

Lines are joined from first to last, and the logical lines so far are kept with the latest in front.
Each line changes the front of these or is put before it. So all that a second script can do to the
logical lines of the first is to go on the last of them, and its first line decides that. -/

/-- Whether a line goes on the line before, or is a comment that may stand between. -/
def continuesLine (line : List Char) : Bool :=
  match Text.trimStart line with
  | '\\' :: _ => true
  | '"' :: '\\' :: ' ' :: _ => true
  | _ => false

theorem joinLine_of_not_continues {line : List Char} (h : continuesLine line = false)
    (done : List (List Char)) : joinLine done line = line :: done := by
  rw [continuesLine] at h
  rw [joinLine.eq_def]
  split at h <;> simp_all

theorem joinLine_ne_nil (done : List (List Char)) (line : List Char) : joinLine done line ≠ [] := by
  rw [joinLine.eq_def]
  split <;> simp

/-- Only the line before is looked at. -/
theorem joinLine_append {done : List (List Char)} (h : done ≠ []) (before : List (List Char))
    (line : List Char) : joinLine (done ++ before) line = joinLine done line ++ before := by
  obtain ⟨last, others, rfl⟩ := List.exists_cons_of_ne_nil h
  rw [List.cons_append, joinLine.eq_def, joinLine.eq_def]
  split <;> simp_all

/-- What stands before the latest line stays there through any number of lines. -/
theorem foldl_joinLine_append (lines : List (List Char)) {done : List (List Char)} (h : done ≠ [])
    (before : List (List Char)) :
    lines.foldl joinLine (done ++ before) = lines.foldl joinLine done ++ before := by
  induction lines generalizing done with
  | nil => rfl
  | cons line lines ih =>
    rw [List.foldl_cons, List.foldl_cons, joinLine_append h, ih (joinLine_ne_nil done line)]

/-- Behind a line that does not go on it, what stands before is left alone. -/
theorem foldl_joinLine_of_not_continues {lines : List (List Char)}
    (h : ∀ line ∈ lines.head?, continuesLine line = false) (before : List (List Char)) :
    lines.foldl joinLine before = lines.foldl joinLine [] ++ before := by
  cases lines with
  | nil => rfl
  | cons line lines =>
    have first := h line rfl
    rw [List.foldl_cons, List.foldl_cons, joinLine_of_not_continues first,
      joinLine_of_not_continues first]
    exact foldl_joinLine_append lines (List.cons_ne_nil line []) before

/-- The carriage return of a line has no say in whether it goes on the line before. -/
theorem continuesLine_return (line : List Char) :
    continuesLine (line ++ ['\r']) = continuesLine line := by
  rcases Text.trimStart_return line with ⟨hstart, hstart'⟩ | ⟨hne, hstart'⟩
  · rw [continuesLine, continuesLine, hstart, hstart']
  · rw [continuesLine, continuesLine, hstart']
    generalize Text.trimStart line = start at hne
    rcases start with _ | ⟨c, _ | ⟨d, _ | ⟨e, rest⟩⟩⟩
    · exact absurd rfl hne
    · rw [List.singleton_append]
      split <;> simp_all
    · rw [List.cons_append, List.singleton_append]
      split <;> simp_all
    · simp only [List.cons_append]
      split <;> split <;> simp_all

/-- A carriage return behind a line ends up behind the logical line that it becomes part of, or is
lost with a comment. -/
theorem joinLine_return (done : List (List Char)) (line : List Char) :
    ∃ last before, joinLine done line = last :: before ∧
      (joinLine done (line ++ ['\r']) = last :: before ∨
        joinLine done (line ++ ['\r']) = (last ++ ['\r']) :: before) := by
  cases hcontinues : continuesLine line with
  | false =>
    have hcontinues' := (continuesLine_return line).trans hcontinues
    rw [joinLine_of_not_continues hcontinues, joinLine_of_not_continues hcontinues']
    exact ⟨line, done, rfl, .inr rfl⟩
  | true =>
    rw [continuesLine] at hcontinues
    rcases Text.trimStart_return line with ⟨hstart, -⟩ | ⟨-, hstart'⟩
    · rw [hstart] at hcontinues
      cases hcontinues
    · split at hcontinues
      next more hstart =>
        rw [hstart, List.cons_append] at hstart'
        simp only [joinLine, hstart, hstart']
        cases done with
        | nil => exact ⟨_, _, rfl, .inr rfl⟩
        | cons last before =>
          refine ⟨_, _, rfl, .inr ?_⟩
          rw [List.append_assoc]
          rfl
      next more hstart =>
        rw [hstart] at hstart'
        simp only [List.cons_append] at hstart'
        simp only [joinLine, hstart, hstart']
        cases done with
        | nil => exact ⟨_, _, rfl, .inr rfl⟩
        | cons last before => exact ⟨_, _, rfl, .inl rfl⟩
      next => cases hcontinues

/-! ### Statements

Logical lines are cut into statements one by one, so the statements of two rows of lines are put one
behind the other. What is left is the last line of the first text, which may be empty or end in a
carriage return: an empty line is no statement, and the carriage return is a blank at the end of
one, or at the end of a comment. -/

/-- The statements of some logical lines. -/
def statementsOfLines (lines : List (List Char)) : List (List Char) :=
  ((lines.flatMap splitBars).map stripColons).filter isEffective

theorem statements_eq (text : List Char) :
    statements text = statementsOfLines (logicalLines text) := rfl

theorem statementsOfLines_append (lines others : List (List Char)) :
    statementsOfLines (lines ++ others) = statementsOfLines lines ++ statementsOfLines others := by
  simp [statementsOfLines]

/-- Behind a line a carriage return is nothing: it is stripped from the last statement. -/
theorem statementsOfLines_return (line : List Char) :
    statementsOfLines [line ++ ['\r']] = statementsOfLines [line] := by
  simp only [statementsOfLines, List.flatMap_singleton, splitBars_return]

/-- The pieces between the line feeds of a text are as good as its lines. -/
theorem statementsOfLines_pieces (text : List Char) :
    statementsOfLines
        (((text.splitOnP (· == '\n')).map Text.dropReturn).foldl joinLine []).reverse =
      statements text := by
  obtain ⟨before, last, hpieces⟩ := (List.eq_nil_or_concat' (text.splitOnP (· == '\n'))).resolve_left
    (List.splitOnP_ne_nil _ text)
  have hlines : Text.lines text = before.map Text.dropReturn ++ Text.linesOfPieces [last] := by
    rw [Text.lines, hpieces]
    exact Text.linesOfPieces_append before (List.cons_ne_nil last [])
  rw [statements_eq, logicalLines, hlines, hpieces, List.map_append, List.foldl_append,
    List.foldl_append]
  generalize (before.map Text.dropReturn).foldl joinLine [] = done
  have nothing : statementsOfLines [[]] = [] := by decide
  rcases Text.dropReturn_cases last with hlast | hlast
  · by_cases hempty : last = []
    · subst hempty
      have push : joinLine done [] = [] :: done := joinLine_of_not_continues (by decide) done
      simp [hlast, push, Text.linesOfPieces, statementsOfLines_append, nothing]
    · simp [hlast, Text.linesOfPieces, hempty]
  · have hne : last ≠ [] := by
      rw [hlast]
      exact List.append_ne_nil_of_right_ne_nil _ (List.cons_ne_nil _ _)
    obtain ⟨line, others, hjoin, hjoin'⟩ := joinLine_return done (Text.dropReturn last)
    rw [← hlast] at hjoin'
    have alone : Text.linesOfPieces [last] = [last] := by
      simp [Text.linesOfPieces, hne]
    rw [alone, List.map_singleton, List.foldl_cons, List.foldl_nil, List.foldl_cons, List.foldl_nil,
      hjoin]
    rcases hjoin' with hjoin' | hjoin'
    · rw [hjoin']
    · rw [hjoin', List.reverse_cons, List.reverse_cons, statementsOfLines_append,
        statementsOfLines_append, statementsOfLines_return]

/-- **The statements of two scripts one behind the other.** -/
theorem statements_append (a : List Char) {b : List Char}
    (h : ∀ line ∈ (Text.lines b).head?, continuesLine line = false) :
    statements (a ++ '\n' :: b) = statements a ++ statements b := by
  rw [statements_eq (a ++ '\n' :: b), logicalLines, Text.lines_append, List.foldl_append,
    foldl_joinLine_of_not_continues h, List.reverse_append, statementsOfLines_append,
    statementsOfLines_pieces]
  rfl

/-! ### Trees

The rules say of a block only that its statements can be derived in turn, so two blocks make one.
The parser, which goes from left to right with a stack, is not looked at again. -/

theorem Derives.append {xs ys : List Stmt} {rows others : List (List Char)}
    (h : Derives (.block xs) rows) (h' : Derives (.block ys) others) :
    Derives (.block (xs ++ ys)) (rows ++ others) := by
  induction xs generalizing rows with
  | nil =>
    cases h
    exact h'
  | cons x xs ih =>
    cases h with
    | cons hx hxs =>
      rw [List.append_assoc]
      exact .cons hx (ih hxs)

/-- **The trees of two scripts one behind the other.** -/
theorem parse_append {a b : String} {xs ys : List Stmt} (ha : parse a = .ok xs)
    (hb : parse b = .ok ys)
    (h : ∀ line ∈ (Text.lines b.toList).head?, continuesLine line = false) :
    parse (a ++ "\n" ++ b) = .ok (xs ++ ys) := by
  have derived := (derives_of_ofStatements ha).append (derives_of_ofStatements hb)
  rw [← statements_append a.toList h] at derived
  have text : (a ++ "\n" ++ b).toList = a.toList ++ '\n' :: b.toList := by
    simp
  rw [parse, text]
  exact ofStatements_of_derives derived

end Script

end ExScript
