import ExScript.Proofs.Script.Grammar
import ExScript.Proofs.Script.LineEnd
import ExScript.Proofs.Script.Plain

/-!
# Statements stand on single lines

A statement can be written over several lines of a script, but none of the line feeds comes into the
statement: lines are taken apart at them before anything else is done, and what is done then only
joins lines and cuts them. What a statement is read into, in turn, is cut out of it, so the argument
of a command holds no line feed either.

A user command is kept as a text, which it is listed with and which can be written into another
script. If it had a line feed in it, one command would be shown as two lines, and the line that
defines it would be two. A text in double quotes can stand for a line feed, but what is written
there is a backslash and a letter, and it is that which is kept.

Each reader is described by where the characters of its result come from; for those that read from
the front of a text that is a suffix of the text.

## Main results

* `not_lineFeed_of_mem_statements` — the statements of a script hold no line feeds
* `LineRange.parse_suffix` — what stands behind a range is a suffix of the statement
* `Reads.argument_subset` — the argument of a `:command` is a part of its statement
-/

namespace ExScript

namespace Script

/-! ### Logical lines

No line has a line feed in it, and to join lines is to put them one behind the other. -/

theorem not_lineFeed_joinLine {done : List (List Char)} {line : List Char}
    (hdone : ∀ l ∈ done, '\n' ∉ l) (hline : '\n' ∉ line) : ∀ l ∈ joinLine done line, '\n' ∉ l := by
  have hmore {c : Char} {more : List Char} (h : Text.trimStart line = c :: more) : '\n' ∉ more :=
    fun hc => hline ((List.dropWhile_sublist _).mem (h ▸ List.mem_cons_of_mem c hc))
  rw [joinLine.eq_def]
  split
  next h => simpa using hmore h
  next h =>
    have hlast := List.forall_mem_cons.mp hdone
    exact List.forall_mem_cons.mpr ⟨by simp [hlast.1, hmore h], hlast.2⟩
  next => exact hdone
  next => exact List.forall_mem_cons.mpr ⟨hline, hdone⟩

theorem not_lineFeed_logicalLines (text : List Char) : ∀ l ∈ logicalLines text, '\n' ∉ l := by
  have hfold : ∀ (lines done : List (List Char)), (∀ l ∈ lines, '\n' ∉ l) →
      (∀ l ∈ done, '\n' ∉ l) → ∀ l ∈ lines.foldl joinLine done, '\n' ∉ l := by
    intro lines
    induction lines with
    | nil => exact fun done _ hdone => hdone
    | cons line lines ih =>
      intro done hlines hdone
      obtain ⟨hline, hlines⟩ := List.forall_mem_cons.mp hlines
      exact ih _ hlines (not_lineFeed_joinLine hdone hline)
  intro l hl
  rw [logicalLines, List.mem_reverse] at hl
  exact hfold _ [] (fun l hl => Text.not_lineFeed_of_mem_lines hl) (by simp) l hl

/-! ### Bars

The parts of a line that is cut need not be pieces of it, since a backslash in front of a bar is
left out. But each of their characters is one of the line, and that is enough here. -/

/-- Whether both parts of a line that was cut at a bar are made of characters of the line. -/
def IsCutFrom (line : List Char) (cut : List Char × Option (List Char)) : Prop :=
  cut.1 ⊆ line ∧ ∀ rest ∈ cut.2, rest ⊆ line

namespace IsCutFrom

variable {line : List Char} {cut : List Char × Option (List Char)}

theorem behind (h : IsCutFrom line cut) (c : Char) : IsCutFrom (c :: line) cut :=
  ⟨List.subset_cons_of_subset c h.1, fun rest hrest => List.subset_cons_of_subset c (h.2 rest hrest)⟩

theorem cons (h : IsCutFrom line cut) (c : Char) : IsCutFrom (c :: line) (c :: cut.1, cut.2) :=
  ⟨List.cons_subset_cons c h.1, (h.behind c).2⟩

end IsCutFrom

/-- A line that is cut gives nothing that is not in it. The cases are those of `cutAtBar`. -/
theorem isCutFrom_cutAtBar (quote : Option Quote) (line : List Char) :
    IsCutFrom line (cutAtBar quote line) := by
  fun_induction cutAtBar quote line with
  | case1 => exact ⟨List.Subset.refl [], by rintro _ ⟨⟩⟩
  | case2 _ ih => exact (ih.cons '|').behind '\\'
  | case3 _ ih => exact (ih.cons '|').cons '|'
  | case4 rest =>
    refine ⟨List.nil_subset _, ?_⟩
    rintro _ ⟨⟩
    exact List.subset_cons_self '|' rest
  | case9 c _ ih => exact (ih.cons c).cons '\\'
  | case5 _ ih | case6 _ ih | case7 _ ih | case8 _ ih => exact ih.cons _
  | case10 _ c _ _ _ _ _ _ _ _ _ ih => exact ih.cons c

/-- Each statement of a line is made of its characters: the first one is, and the others are
statements of what was left. -/
theorem splitUpTo_subset {n : Nat} {line statement : List Char}
    (h : statement ∈ splitUpTo n line) : statement ⊆ line := by
  induction n generalizing line with
  | zero =>
    rw [splitUpTo, List.mem_singleton] at h
    exact h ▸ List.Subset.refl line
  | succ n ih =>
    have hcut := isCutFrom_cutAtBar none line
    rw [splitUpTo] at h
    split at h
    · exact List.mem_singleton.mp h ▸ List.Subset.refl line
    · split at h
      next hsplit =>
        rw [hsplit] at hcut
        exact List.mem_singleton.mp h ▸ hcut.1
      next hsplit =>
        rw [hsplit] at hcut
        rcases List.mem_cons.mp h with rfl | h
        · exact hcut.1
        · exact List.Subset.trans (ih h) (hcut.2 _ rfl)

theorem stripColons_subset (text : List Char) : stripColons text ⊆ text :=
  List.Subset.trans (Text.trimEnd_isPrefix _).subset (List.dropWhile_suffix _).subset

/-- **The statements of a script hold no line feeds.** -/
theorem not_lineFeed_of_mem_statements {text statement : List Char}
    (h : statement ∈ statements text) : '\n' ∉ statement := by
  obtain ⟨stripped, hstripped, rfl⟩ := List.mem_map.mp (List.mem_of_mem_filter h)
  obtain ⟨line, hline, hsplit⟩ := List.mem_flatMap.mp hstripped
  intro hc
  exact not_lineFeed_logicalLines text line hline
    (splitUpTo_subset hsplit (stripColons_subset _ hc))

end Script

/-! ### Ranges

A range is read from the front, and what was not read is handed on as it stands. For each reader
that is a suffix of what it was given, and suffixes of suffixes are suffixes. -/

theorem Address.readBase_suffix (text : List Char) : (Address.readBase text).2 <:+ text := by
  fun_cases Address.readBase text with
  | case1 rest => exact List.suffix_cons '.' rest
  | case2 rest => exact List.suffix_cons '$' rest
  | case3 => exact List.suffix_refl text
  | case4 text _ _ digits rest hdigits =>
    have hrest : (Numeral.digits text).2 <:+ text := List.dropWhile_suffix _
    rwa [hdigits] at hrest

theorem Address.readOffsets_suffix (n : Nat) (offset : Int) (text : List Char) :
    (Address.readOffsets n offset text).2 <:+ text := by
  fun_induction Address.readOffsets n offset text with
  | case1 n offset rest ih =>
    exact (ih.trans (List.dropWhile_suffix _)).trans (List.suffix_cons '+' rest)
  | case2 n offset rest ih =>
    exact (ih.trans (List.dropWhile_suffix _)).trans (List.suffix_cons '-' rest)
  | case3 => exact List.suffix_refl _

theorem Address.read?_suffix {text rest : List Char} {a : Address}
    (h : Address.read? text = some (a, rest)) : rest <:+ text := by
  rw [Address.read?] at h
  dsimp only at h
  split at h
  · cases h
  · cases h
    exact (Address.readOffsets_suffix _ _ _).trans (Address.readBase_suffix text)

namespace LineRange

theorem readAddresses_suffix (n : Nat) (text : List Char) : (readAddresses n text).2 <:+ text := by
  induction n generalizing text with
  | zero => exact List.suffix_refl text
  | succ n ih =>
    rw [readAddresses]
    split
    · exact List.suffix_refl text
    next address rest hread =>
      have hrest : Text.trimStart rest <:+ text :=
        (List.dropWhile_suffix _).trans (Address.read?_suffix hread)
      have hmore {c : Char} {more : List Char} (h : Text.trimStart rest = c :: more) :
          (readAddresses n (Text.trimStart more)).2 <:+ text :=
        ((ih _).trans (List.dropWhile_suffix _)).trans
          ((List.suffix_cons c more).trans (h ▸ hrest))
      split
      next h => exact hmore h
      next h => exact hmore h
      next => exact hrest

/-- What stands behind a range is a suffix of the statement. -/
theorem parse_suffix (text : List Char) : (parse text).2 <:+ text := by
  have hstart : Text.trimStart text <:+ text := List.dropWhile_suffix _
  rw [parse]
  split
  next rest h => exact (List.suffix_cons '%' rest).trans (h ▸ hstart)
  next => exact (readAddresses_suffix _ _).trans hstart

end LineRange

/-! ### Arguments

The argument of a command is what stands behind the range and the name, without the blanks around
it. Only `:command` is looked at: its argument is what a user command gets its text from, and that
is there after the script has ended. -/

namespace Script

theorem HasParts.argument_subset {statement name argument : List Char} {range : LineRange}
    (h : HasParts statement range name argument) : argument ⊆ statement := by
  rw [← h.argument, Keyword.splitName]
  exact List.Subset.trans (Text.trim_subset _)
    ((List.dropWhile_suffix _).trans (LineRange.parse_suffix statement)).subset

/-- The argument of a definition that is read from a statement is a part of the statement. -/
theorem Reads.argument_subset {statement : List Char} {argument : String}
    (h : Reads statement (.plain (.simple (.defineCommand argument)))) :
    argument.toList ⊆ statement := by
  cases h with
  | @simple _ _ _ keyword _ parts _ command =>
    cases keyword with
    | defineCommand =>
      cases command
      rw [String.toList_ofList]
      exact parts.argument_subset
    | _ => cases command

end Script

end ExScript
