import ExScript.Statement.Parser
import Mathlib.Data.List.Basic
import Mathlib.Data.List.DropRight
import Mathlib.Data.List.TakeWhile

/-!
# Plain texts

Four characters make it hard to say where a statement ends: a bar ends one, unless quotes or a
backslash in front of it are against that, and a backslash at the beginning of a line takes back the
end of the line before. In a text without any of them each line is a statement, and the order in
which the three steps of the reader look at it does not matter.

Two such texts are of interest. One is the name of a user command, which is read as the use of it;
the other is a text of blanks, in which there are no statements.

To be plain is more than is needed, since a quote that is closed again harms nobody. Which bars cut
a line whatever else is in it is said in `Proofs/Script/Bars.lean`. But that a text is plain can be
seen from its characters one by one, and so it goes through to each part of the text. A plain text
holds no comment; it may hold a `:command`, which takes all of its line, and that is no different
from other statements if there is no bar in the line.

## Main results

* `Text.not_lineFeed_of_mem_lines` — no line of a text holds a line feed
* `statements_of_plain` — the statements of a plain text are its lines
* `readLine_name_append` — a name that no letter or digit follows is read as a command of that name
* `parse_name` — a name is read as a command with that name and without an argument
* `statements_of_blank` — blanks hold no statements
-/

namespace ExScript

/-! ### Lines

A text is split at its line feeds, and only then a carriage return is taken from the end of a piece.
So a line consists of characters of the text and of no line feed. A text without a line feed is one
line, and its carriage return stays; but the empty text has no line. -/

namespace Text

/-- The pieces between the characters at which a text is split hold none of these. -/
theorem mem_and_not_of_mem_splitOnP {p : Char → Bool} {c : Char} : ∀ {text piece : List Char},
    piece ∈ text.splitOnP p → c ∈ piece → c ∈ text ∧ p c = false := by
  intro text
  induction text with
  | nil =>
    intro piece hpiece hc
    simp only [List.splitOnP_nil, List.mem_singleton] at hpiece
    subst hpiece
    cases hc
  | cons d text ih =>
    intro piece hpiece hc
    rw [List.splitOnP_cons_eq_if_modifyHead] at hpiece
    split at hpiece
    · rcases List.mem_cons.mp hpiece with rfl | hpiece
      · cases hc
      · exact (ih hpiece hc).imp_left (List.mem_cons_of_mem _)
    next hd =>
      cases hsplit : text.splitOnP p with
      | nil => exact absurd hsplit (List.splitOnP_ne_nil p text)
      | cons first others =>
        rw [hsplit, List.modifyHead_cons] at hpiece
        rcases List.mem_cons.mp hpiece with rfl | hpiece
        · rcases List.mem_cons.mp hc with rfl | hc
          · exact ⟨List.mem_cons_self, by simpa using hd⟩
          · exact (ih (hsplit ▸ List.mem_cons_self) hc).imp_left (List.mem_cons_of_mem _)
        · exact (ih (hsplit ▸ List.mem_cons_of_mem _ hpiece) hc).imp_left (List.mem_cons_of_mem _)

/-- A line has lost at most a carriage return. -/
theorem mem_of_mem_dropReturn {c : Char} {line : List Char} (h : c ∈ dropReturn line) :
    c ∈ line := by
  rw [dropReturn] at h
  split at h
  · exact List.dropLast_subset line h
  · exact h

theorem mem_of_mem_linesOfPieces {c : Char} {line : List Char} : ∀ {pieces : List (List Char)},
    line ∈ linesOfPieces pieces → c ∈ line → ∃ piece ∈ pieces, c ∈ piece
  | [], hline, _ => by cases hline
  | [last], hline, hc => by
    rw [linesOfPieces] at hline
    split at hline
    · cases hline
    · exact ⟨line, hline, hc⟩
  | piece :: next :: rest, hline, hc => by
    rw [linesOfPieces] at hline
    rcases List.mem_cons.mp hline with rfl | hline
    · exact ⟨piece, List.mem_cons_self, mem_of_mem_dropReturn hc⟩
    · obtain ⟨found, hfound, hc⟩ := mem_of_mem_linesOfPieces hline hc
      exact ⟨found, List.mem_cons_of_mem _ hfound, hc⟩

/-- A line is made of characters of the text. -/
theorem mem_of_mem_lines {c : Char} {text line : List Char} (hline : line ∈ lines text)
    (hc : c ∈ line) : c ∈ text := by
  obtain ⟨piece, hpiece, hc⟩ := mem_of_mem_linesOfPieces hline hc
  exact (mem_and_not_of_mem_splitOnP hpiece hc).1

/-- A line holds no line feed. -/
theorem not_lineFeed_of_mem_lines {text line : List Char} (hline : line ∈ lines text) :
    '\n' ∉ line := by
  intro hc
  obtain ⟨piece, hpiece, hc⟩ := mem_of_mem_linesOfPieces hline hc
  exact absurd (mem_and_not_of_mem_splitOnP hpiece hc).2 (by decide)

theorem splitOnP_of_single {text : List Char} (h : '\n' ∉ text) :
    text.splitOnP (· == '\n') = [text] := by
  refine List.splitOnP_eq_singleton fun c hc => ?_
  simpa using ne_of_mem_of_not_mem hc h

theorem lines_of_single {text : List Char} (hne : text ≠ []) (h : '\n' ∉ text) :
    lines text = [text] := by
  rw [lines, splitOnP_of_single h, linesOfPieces]
  simp [hne]

/-! ### Trimming

Blanks are dropped from the front, and from the end by turning the text around. What is used of it:
a character that is no blank stops it. -/

theorem trimEnd_isPrefix (text : List Char) : trimEnd text <+: text :=
  List.rdropWhile_prefix isBlank text

theorem trim_subset (text : List Char) : trim text ⊆ text :=
  List.Subset.trans (trimEnd_isPrefix _).subset (List.dropWhile_suffix _).subset

theorem trimStart_cons {c : Char} (hc : isBlank c = false) (text : List Char) :
    trimStart (c :: text) = c :: text :=
  List.dropWhile_cons_of_neg (by simp [hc])

/-- Blanks in front of a text are passed over. -/
theorem trimStart_blanks {blanks : List Char} (h : ∀ c ∈ blanks, isBlank c = true)
    (text : List Char) : trimStart (blanks ++ text) = trimStart text :=
  List.dropWhile_append_of_pos h

theorem trimEnd_cons {c : Char} (hc : isBlank c = false) (text : List Char) :
    trimEnd (c :: text) = c :: trimEnd text := by
  have alone : [c].dropWhile isBlank = [c] := List.dropWhile_cons_of_neg (by simp [hc])
  rw [trimEnd, List.reverse_cons, List.dropWhile_append, alone]
  split
  next hblank => simp [trimEnd, List.isEmpty_iff.mp hblank]
  next => simp [trimEnd]

theorem trimEnd_of_not_blank {text : List Char} (h : ∀ c ∈ text, isBlank c = false) :
    trimEnd text = text := by
  have kept : text.reverse.dropWhile isBlank = text.reverse := by
    cases hreverse : text.reverse with
    | nil => rfl
    | cons c rest =>
      have hc : c ∈ text := by
        rw [← List.mem_reverse, hreverse]
        exact List.mem_cons_self
      exact List.dropWhile_cons_of_neg (by simp [h c hc])
  rw [trimEnd, kept, List.reverse_reverse]

/-- A text of which trimming leaves nothing is made of blanks. -/
theorem isBlank_of_trim_eq_nil {text : List Char} (h : trim text = []) : ∀ c ∈ text, isBlank c := by
  have behind : ∀ c ∈ text.dropWhile isBlank, isBlank c := by
    rw [trim, trimEnd, List.reverse_eq_nil_iff, List.dropWhile_eq_nil_iff] at h
    exact fun c hc => h c (List.mem_reverse.mpr hc)
  intro c hc
  rw [← List.takeWhile_append_dropWhile (p := isBlank) (l := text), List.mem_append] at hc
  exact hc.elim List.mem_takeWhile_imp (behind c)

end Text

namespace Script

/-! ### Plain texts -/

/-- Whether a character has a say in where statements end. -/
def isMark (c : Char) : Bool :=
  c == '|' || c == '\\' || c == '\'' || c == '"'

/-- Whether no character of a text has a say in where statements end. -/
def IsPlain (text : List Char) : Prop :=
  ∀ c ∈ text, isMark c = false

theorem IsPlain.of_mem {text line : List Char} (h : IsPlain text)
    (hline : ∀ c ∈ line, c ∈ text) : IsPlain line :=
  fun c hc => h c (hline c hc)

/-- Nothing cuts a plain line: each of its characters is passed over by the last rule. -/
theorem cutAtBar_of_plain {line : List Char} (h : IsPlain line) : cutAtBar none line = (line, none) := by
  induction line with
  | nil => rfl
  | cons c line ih =>
    have hc : isMark c = false := h c List.mem_cons_self
    simp only [isMark, Bool.or_eq_false_iff, beq_eq_false_iff_ne] at hc
    obtain ⟨⟨⟨hbar, hbackslash⟩, hsingle⟩, hdouble⟩ := hc
    have hline := ih (h.of_mem fun _ => List.mem_cons_of_mem c)
    rw [cutAtBar, hline]
    all_goals simp_all

theorem splitBars_of_plain {line : List Char} (h : IsPlain line) : splitBars line = [line] := by
  rw [splitBars, splitUpTo, cutAtBar_of_plain h]
  simp

/-- A plain line goes on no other one and is no comment to one. -/
theorem joinLine_of_plain {line : List Char} (h : IsPlain line) (done : List (List Char)) :
    joinLine done line = line :: done := by
  have trimmed : IsPlain (Text.trimStart line) :=
    h.of_mem fun c hc => (List.dropWhile_sublist _).mem hc
  rw [joinLine.eq_def]
  split
  next hline => exact absurd (trimmed '\\' (by simp [hline])) (by decide)
  next hline => exact absurd (trimmed '\\' (by simp [hline])) (by decide)
  next hline => exact absurd (trimmed '"' (by simp [hline])) (by decide)
  next => rfl

theorem foldl_joinLine_of_plain (lines : List (List Char)) (h : ∀ line ∈ lines, IsPlain line)
    (done : List (List Char)) : lines.foldl joinLine done = lines.reverse ++ done := by
  induction lines generalizing done with
  | nil => rfl
  | cons line lines ih =>
    rw [List.foldl_cons, joinLine_of_plain (h line List.mem_cons_self),
      ih fun line hline => h line (List.mem_cons_of_mem _ hline)]
    simp

/-- **The statements of a plain text are its lines.** -/
theorem statements_of_plain {text : List Char} (h : IsPlain text) :
    statements text = ((Text.lines text).map stripColons).filter isEffective := by
  have plain : ∀ line ∈ Text.lines text, IsPlain line := by
    intro line hline
    exact h.of_mem fun c hc => Text.mem_of_mem_lines hline hc
  have split : (Text.lines text).flatMap splitBars = Text.lines text := by
    have single : ∀ line ∈ Text.lines text, splitBars line = [line] := by
      intro line hline
      exact splitBars_of_plain (plain line hline)
    rw [List.flatMap_congr single, List.flatMap_singleton']
  rw [statements, logicalLines, foldl_joinLine_of_plain _ plain, List.append_nil,
    List.reverse_reverse, split]

/-- **Blanks hold no statements.** -/
theorem statements_of_blank {text : List Char} (h : ∀ c ∈ text, isBlank c) :
    statements text = [] := by
  have plain : IsPlain text := by
    intro c hc
    have hblank := h c hc
    cases hmark : isMark c with
    | false => rfl
    | true =>
      simp only [isMark, Bool.or_eq_true, beq_iff_eq] at hmark
      rcases hmark with ((rfl | rfl) | rfl) | rfl <;> exact absurd hblank (by decide)
  have stripped : ∀ line ∈ Text.lines text, stripColons line = [] := by
    intro line hline
    have dropped : dropColons line = [] := by
      refine List.dropWhile_eq_nil_iff.mpr fun c hc => ?_
      simp [h c (Text.mem_of_mem_lines hline hc)]
    rw [stripColons, dropped, Text.trimEnd_nil]
  rw [statements_of_plain plain, List.map_congr_left stripped]
  simp [isEffective]

/-- Blanks are read, but as no command. -/
theorem parseCommand?_of_blank {text : String} (h : ∀ c ∈ text.toList, isBlank c) :
    parseCommand? text = none := by
  rw [parseCommand?, parse, statements_of_blank h]
  rfl

/-! ### Letters

The classes of characters of ASCII as ranges of code points. A blank is given by code points too, so
that a letter is none is a matter of comparing numbers. -/

theorem isUpper_iff {c : Char} : c.isUpper = true ↔ 0x41 ≤ c.toNat ∧ c.toNat ≤ 0x5A :=
  decide_eq_true_iff

theorem isLower_iff {c : Char} : c.isLower = true ↔ 0x61 ≤ c.toNat ∧ c.toNat ≤ 0x7A := by
  have range := Bool.and_eq_true_iff (x := decide (c.val ≥ 'a'.val)) (y := decide (c.val ≤ 'z'.val))
  rwa [decide_eq_true_iff, decide_eq_true_iff] at range

theorem isDigit_iff {c : Char} : c.isDigit = true ↔ 0x30 ≤ c.toNat ∧ c.toNat ≤ 0x39 := by
  have range := Bool.and_eq_true_iff (x := decide (c.val ≥ '0'.val)) (y := decide (c.val ≤ '9'.val))
  rwa [decide_eq_true_iff, decide_eq_true_iff] at range

theorem isAlphanum_iff {c : Char} :
    c.isAlphanum = true ↔ (c.isUpper = true ∨ c.isLower = true) ∨ c.isDigit = true := by
  rw [← Bool.or_eq_true, ← Bool.or_eq_true]
  rfl

theorem toNat_of_isAlphanum {c : Char} (h : c.isAlphanum) :
    0x30 ≤ c.toNat ∧ c.toNat ≤ 0x39 ∨ 0x41 ≤ c.toNat ∧ c.toNat ≤ 0x5A ∨
      0x61 ≤ c.toNat ∧ c.toNat ≤ 0x7A := by
  rw [isAlphanum_iff, isUpper_iff, isLower_iff, isDigit_iff] at h
  omega

theorem isAlpha_of_isUpper {c : Char} (h : c.isUpper) : c.isAlpha :=
  Bool.or_eq_true_iff.mpr (.inl h)

theorem isAlphanum_of_isAlpha {c : Char} (h : c.isAlpha) : c.isAlphanum :=
  Bool.or_eq_true_iff.mpr (.inl h)

theorem isDigit_of_isAlpha {c : Char} (h : c.isAlpha) : c.isDigit = false := by
  have letter : c.isUpper = true ∨ c.isLower = true := Bool.or_eq_true_iff.mp h
  rw [isUpper_iff, isLower_iff] at letter
  rw [← Bool.not_eq_true, isDigit_iff]
  omega

theorem isBlank_of_isAlphanum {c : Char} (h : c.isAlphanum) : isBlank c = false := by
  have range := toNat_of_isAlphanum h
  simp [isBlank]
  omega

/-- What a class of characters tells apart is not the same. -/
theorem ne_of_class {p : Char → Bool} {c d : Char} (hc : p c = true) (hd : p d = false) : c ≠ d := by
  rintro rfl
  exact Bool.false_ne_true (hd.symm.trans hc)

theorem isMark_of_isAlphanum {c : Char} (h : c.isAlphanum) : isMark c = false := by
  cases hmark : isMark c with
  | false => rfl
  | true =>
    simp only [isMark, Bool.or_eq_true, beq_iff_eq] at hmark
    rcases hmark with ((rfl | rfl) | rfl) | rfl <;> exact absurd h (by decide)

theorem ne_of_isAlpha {c : Char} (h : c.isAlpha) {d : Char} (hd : d.isAlpha = false) : c ≠ d :=
  ne_of_class h hd

/-! ### Lines that start with a letter

Neither a range nor a colon nor a blank begins with a letter. So nothing is taken from the front of
such a line, and it is not empty when the blanks are taken from its end. -/

/-- A text that starts with a letter does not start with a range. -/
theorem range_letter {c : Char} (hc : c.isAlpha) (rest : List Char) :
    LineRange.parse (c :: rest) = ({}, c :: rest) := by
  have digits : Numeral.digits (c :: rest) = ([], c :: rest) := by
    simp [Numeral.digits, isDigit_of_isAlpha hc]
  have base : Address.readBase (c :: rest) = (none, c :: rest) := by
    rw [Address.readBase, digits]
    · rfl
    · rintro _ ⟨⟩
      exact ne_of_isAlpha hc (d := '.') (by decide) rfl
    · rintro _ ⟨⟩
      exact ne_of_isAlpha hc (d := '$') (by decide) rfl
  have signed : Address.startsSigned (c :: rest) = false := by
    rw [Address.startsSigned]
    · rintro _ ⟨⟩
      exact ne_of_isAlpha hc (d := '+') (by decide) rfl
    · rintro _ ⟨⟩
      exact ne_of_isAlpha hc (d := '-') (by decide) rfl
  have noAddress : Address.read? (c :: rest) = none := by
    simp [Address.read?, base, signed]
  rw [LineRange.parse, Text.trimStart_cons (isBlank_of_isAlphanum (isAlphanum_of_isAlpha hc))]
  split
  next hall =>
    cases hall
    exact absurd rfl (ne_of_isAlpha hc (d := '%') (by decide))
  next =>
    rw [List.length_cons, LineRange.readAddresses, noAddress]

/-- Nothing in front of a letter is stripped. -/
theorem stripColons_letter {c : Char} (hc : c.isAlpha) (rest : List Char) :
    stripColons (c :: rest) = Text.trimEnd (c :: rest) := by
  have hblank := isBlank_of_isAlphanum (isAlphanum_of_isAlpha hc)
  have dropped : dropColons (c :: rest) = c :: rest :=
    List.dropWhile_cons_of_neg (by simp [hblank, ne_of_isAlpha hc (d := ':') (by decide)])
  rw [stripColons, dropped]

theorem isEffective_letter {c : Char} (hc : c.isAlpha) (rest : List Char) :
    isEffective (Text.trimEnd (c :: rest)) = true := by
  rw [Text.trimEnd_cons (isBlank_of_isAlphanum (isAlphanum_of_isAlpha hc))]
  have hcomment : isComment (c :: Text.trimEnd rest) = false := by
    rw [isComment]
    rintro _ ⟨⟩
    exact ne_of_isAlpha hc (d := '"') (by decide) rfl
  rw [isEffective, hcomment]
  rfl

/-- A plain line that starts with a letter is one statement. -/
theorem statements_letter {c : Char} {rest : List Char} (hc : c.isAlpha)
    (hplain : IsPlain (c :: rest)) (hsingle : '\n' ∉ c :: rest) :
    statements (c :: rest) = [Text.trimEnd (c :: rest)] := by
  rw [statements_of_plain hplain, Text.lines_of_single (List.cons_ne_nil c rest) hsingle]
  simp [stripColons_letter hc, isEffective_letter hc]

/-! ### Names

A name of a user command starts with a capital letter and the keywords do not, abbreviated or not.
So a name is not mistaken for a keyword, whatever the names are. The capital letter is also what
makes digits a part of the name: `Foo2` is one name, but `d2` is `:delete` with the argument `2`. -/

/-- Whether a text can be written as the name of a user command: it is made of letters of ASCII and
of digits, and starts with a capital letter. -/
def IsName (name : List Char) : Prop :=
  ∃ c rest, name = c :: rest ∧ c.isUpper ∧ ∀ d ∈ rest, d.isAlphanum

namespace IsName

variable {name : List Char}

theorem isAlphanum (h : IsName name) : ∀ c ∈ name, c.isAlphanum := by
  obtain ⟨c, rest, rfl, hc, hrest⟩ := h
  intro d hd
  rcases List.mem_cons.mp hd with rfl | hd
  · exact isAlphanum_iff.mpr (.inl (.inl hc))
  · exact hrest d hd

theorem startsUppercase (h : IsName name) : Keyword.startsUppercase name := by
  obtain ⟨c, rest, rfl, hc, -⟩ := h
  have range : c.toNat < 0x80 := by
    have letter := isUpper_iff.mp hc
    omega
  simp [Keyword.startsUppercase, isUppercase, range, hc]

theorem ne_nil (h : IsName name) : name ≠ [] := by
  obtain ⟨c, rest, rfl, -⟩ := h
  exact List.cons_ne_nil c rest

/-- A name does not look like a range. -/
theorem range_append (h : IsName name) (rest : List Char) :
    LineRange.parse (name ++ rest) = ({}, name ++ rest) := by
  obtain ⟨c, others, rfl, hc, -⟩ := h
  exact range_letter (isAlpha_of_isUpper hc) (others ++ rest)

/-- A name ends where no letter or digit follows. -/
theorem splitName_append (h : IsName name) {rest : List Char}
    (hrest : ∀ c ∈ rest.head?, c.isAlphanum = false) :
    Keyword.splitName (name ++ rest) = (name, Text.trim rest) := by
  have isNameChar : Keyword.isNameChar (name ++ rest) = Char.isAlphanum := by
    have uppercase : Keyword.startsUppercase (name ++ rest) = true := by
      obtain ⟨c, others, rfl, -⟩ := id h
      exact h.startsUppercase
    funext c
    rw [Keyword.isNameChar, uppercase, Bool.true_and, Char.isAlphanum]
  have all := h.isAlphanum
  have ends : rest.takeWhile Char.isAlphanum = [] ∧ rest.dropWhile Char.isAlphanum = rest := by
    cases rest with
    | nil => exact ⟨rfl, rfl⟩
    | cons c rest =>
      have hc : c.isAlphanum = false := hrest c rfl
      exact ⟨List.takeWhile_cons_of_neg (by simp [hc]), List.dropWhile_cons_of_neg (by simp [hc])⟩
  rw [Keyword.splitName, Keyword.nameOf, isNameChar, List.takeWhile_append_of_pos all,
    List.dropWhile_append_of_pos all, ends.1, ends.2, List.append_nil]

theorem statements_eq (h : IsName name) : statements name = [name] := by
  have plain : IsPlain name := fun c hc => isMark_of_isAlphanum (h.isAlphanum c hc)
  have single : '\n' ∉ name := fun hc => absurd (h.isAlphanum '\n' hc) (by decide)
  have trimmed : Text.trimEnd name = name :=
    Text.trimEnd_of_not_blank fun c hc => isBlank_of_isAlphanum (h.isAlphanum c hc)
  obtain ⟨c, rest, rfl, hc, -⟩ := id h
  rw [statements_letter (isAlpha_of_isUpper hc) plain single, trimmed]

end IsName

/-- A name is read as a command with what stands behind it for its argument. -/
theorem readLine_name_append {name : String} (h : IsName name.toList) {rest : List Char}
    (hrest : ∀ c ∈ rest.head?, c.isAlphanum = false) :
    readLine (name.toList ++ rest) =
      .ok (.plain (.unknown {} name (String.ofList (Text.trim rest)))) := by
  have notKeyword : Keyword.named? name.toList = none := by
    simp [Keyword.named?, h.startsUppercase]
  rw [readLine, h.range_append]
  dsimp only
  rw [h.splitName_append hrest]
  dsimp only
  rw [notKeyword]
  simp [h.ne_nil]

/-- With nothing behind the name the argument is empty. -/
theorem readLine_name {name : String} (h : IsName name.toList) :
    readLine name.toList = .ok (.plain (.unknown {} name "")) := by
  have ends : ∀ c ∈ ([] : List Char).head?, c.isAlphanum = false := by
    rintro _ ⟨⟩
  have alone := readLine_name_append h ends
  rwa [List.append_nil] at alone

/-- **A name is read as the use of it**, without an argument. -/
theorem parse_name {name : String} (h : IsName name.toList) :
    parse name = .ok [.unknown {} name ""] := by
  rw [parse, h.statements_eq, ofStatements, Draft.steps, Draft.step, readLine_name h]
  rfl

end Script

end ExScript
