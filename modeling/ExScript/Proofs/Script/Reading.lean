import ExScript.Proofs.Result
import ExScript.Proofs.Script.Grammar
import Mathlib.Data.List.TakeWhile

/-!
# Reading single statements

The parser reads a statement by its keyword, and an `:elseif` in two steps: its condition is read
only once its place is known to be one, so that a stray `:elseif` with a malformed condition is
still reported as stray. The marks of the grammar know neither order. Here the two are shown to be
the same: a statement is read as a line that stands for its mark, and has no mark if it cannot be
read.

## What the grammar leaves to the parser

The rules for marks (`Reads`) say what a statement is and not which error it is otherwise. So an
order in which things are checked can be seen in them only where it decides whether there is a mark
at all, and it never does: a command is accepted if its range *and* its argument are, in whichever
order they are asked for; a block is opened without a range, be that found out before its condition
is read or after it. This is why `Policy.Accepts` is a conjunction where the check has two steps.

A line (`Line`) is between the two: what the parser knows of a statement before it looks at the open
blocks. It stands for one mark, except for an `:elseif` with a condition that cannot be read, which
is a line and has no mark. This is the only place where being read and having a mark differ, and it
is the reason that `Line.Stands` is a relation.

## Main results

* `Policy.check_iff` — a policy accepts what passes its check
* `reads_iff` — the mark of a statement is what its line stands for
-/

namespace ExScript

/-! ### Policies -/

/-- A check of a policy says whether it accepts what it is given. -/
theorem Policy.check_iff (policy : Policy) (range : LineRange) (argument : List Char) :
    policy.check range argument = .ok () ↔ policy.Accepts range argument := by
  have hrange : checkRange policy.range range = .ok () ↔
      policy.range.Allows (range.addresses ≠ []) := by
    cases policy.range <;> cases h : range.addresses <;>
      simp [checkRange, Demand.Allows, LineRange.isEmpty, h]
  have hargument : checkArgument policy.argument argument = .ok () ↔
      policy.argument.Allows (argument ≠ []) := by
    cases policy.argument <;> cases argument <;> simp [checkArgument, Demand.Allows]
  constructor
  · intro h
    rw [check] at h
    cases hr : checkRange policy.range range with
    | error e => simp [hr] at h
    | ok u => exact ⟨hrange.mp hr, hargument.mp (by simpa [hr] using h)⟩
  · rintro ⟨hr, ha⟩
    rw [check, hrange.mpr hr]
    exact hargument.mpr ha

namespace Script

/-! ### The argument of a `:for`

The grammar says what it looks like: a word, blanks, `in`, and something behind a blank. The parser
goes from left to right. That it finds the same word is because there is only one place where a word
without blanks can end. -/

/-- A word ends where a blank begins. -/
theorem word_append_of_blank {name rest : List Char} (hname : ∀ c ∈ name, isBlank c = false)
    (hrest : Text.startsBlank rest) : Text.word (name ++ rest) = (name, rest) := by
  have hpos : ∀ c ∈ name, (!isBlank c) = true := by
    intro c hc
    simp [hname c hc]
  cases rest with
  | nil => simp [Text.startsBlank] at hrest
  | cons c rest =>
    have hc : isBlank c = true := hrest
    rw [Text.word, List.takeWhile_append_of_pos hpos, List.dropWhile_append_of_pos hpos]
    simp [List.takeWhile, List.dropWhile, hc]

/-- What stands behind a word begins with a blank, if there is anything. -/
theorem word_rest (text : List Char) :
    (Text.word text).2 = [] ∨ Text.startsBlank (Text.word text).2 := by
  show text.dropWhile (fun c => !isBlank c) = [] ∨
    Text.startsBlank (text.dropWhile fun c => !isBlank c)
  induction text with
  | nil => exact .inl rfl
  | cons c text ih =>
    cases hc : isBlank c with
    | true => exact .inr (by simp [hc, Text.startsBlank])
    | false => simpa [hc] using ih

/-- What has the form is read, and its items are those behind `in`. -/
theorem readFor_of_isForArgument {argument name source : List Char}
    (h : IsForArgument argument name source) :
    readFor argument = (Expression.parse (String.ofList source)).map fun e =>
      (String.ofList name, e) := by
  obtain ⟨hne, hname, hsource, gap, hgap, hblank, rfl⟩ := h
  have hstart : Text.startsBlank (gap ++ 'i' :: 'n' :: source) := by
    cases gap with
    | nil => exact absurd rfl hgap
    | cons c gap => exact hblank c List.mem_cons_self
  have htrim : Text.trimStart (gap ++ 'i' :: 'n' :: source) = 'i' :: 'n' :: source := by
    rw [Text.trimStart, List.dropWhile_append_of_pos hblank,
      List.dropWhile_cons_of_neg (by decide)]
  rw [readFor, word_append_of_blank hname hstart]
  cases name with
  | nil => exact absurd rfl hne
  | cons c name => simp only [htrim, hsource, if_true]

/-- What is read has the form. There are blanks in front of `in`, or it would be a part of the
word. -/
theorem isForArgument_of_readFor {argument : List Char} {loop : String × Expression}
    (h : readFor argument = .ok loop) :
    ∃ name source, IsForArgument argument name source ∧ String.ofList name = loop.1 ∧
      Expression.parse (String.ofList source) = .ok loop.2 := by
  have hsplit := Text.word_append argument
  have hrest := word_rest argument
  have hname : ∀ c ∈ (Text.word argument).1, isBlank c = false := by
    intro c hc
    simpa using List.mem_takeWhile_imp hc
  rw [readFor] at h
  generalize Text.word argument = cut at h hsplit hrest hname
  obtain ⟨name, rest⟩ := cut
  have hgap : rest.takeWhile isBlank ++ Text.trimStart rest = rest :=
    List.takeWhile_append_dropWhile
  have hblank : ∀ c ∈ rest.takeWhile isBlank, isBlank c := by
    intro c hc
    exact List.mem_takeWhile_imp hc
  cases name with
  | nil => cases h
  | cons c name =>
    dsimp only at h hsplit hrest
    split at h
    next c' name' source hcons htrim =>
      split at h
      next hsource =>
        rw [htrim] at hgap
        refine ⟨c :: name, source, ⟨by simp, hname, hsource, _, ?_, hblank, ?_⟩, ?_⟩
        · intro hnil
          rw [hnil, List.nil_append] at hgap
          rcases hrest with hrest | hrest
          · rw [hrest] at hgap
            cases hgap
          · rw [← hgap] at hrest
            exact absurd hrest (show ¬isBlank 'i' = true by decide)
        · rw [hgap, hsplit]
        · obtain ⟨items, hitems, rfl⟩ := exists_of_map_eq_ok h
          exact ⟨rfl, hitems⟩
      next => cases h
    next => cases h

/-! ### Single statements

A statement has its parts in one way, so a rule that asks for them can be used with any. First what
the parser does for each kind of name. -/

/-- What a line that was read stands for. The condition of an `:elseif` is read when its place is
known to be one. -/
inductive Line.Stands : Line → Mark → Prop where
  | plain {s} : Stands (.plain s) (.plain s)
  | openWhile {e} : Stands (.openWhile e) (.openWhile (.expression e))
  | openFor {name items} : Stands (.openFor name items) (.openFor name items)
  | openIf {e} : Stands (.openIf e) (.openIf (.expression e))
  | elseIf {argument e} :
    Expression.parse (String.ofList argument) = .ok e →
      Stands (.divider (.elseIfBranch argument)) (.elseIf (.expression e))
  | elseMark : Stands (.divider .elseBranch) .elseMark
  | endIf : Stands (.divider .endIf) .endIf
  | endLoop {kind} : Stands (.divider (.endLoop kind)) (.endLoop kind)

/-- Every statement has a range, a name and an argument, each of which may be empty. -/
theorem exists_hasParts (statement : List Char) :
    ∃ range name argument, HasParts statement range name argument :=
  ⟨_, _, _, rfl, rfl, rfl⟩

theorem HasParts.readLine_eq {statement name argument : List Char} {range : LineRange}
    (h : HasParts statement range name argument) :
    readLine statement =
      if name.isEmpty then .error (.notACommand (String.ofList statement))
      else
        match Keyword.named? name with
        | some keyword => readKeyword keyword range argument
        | none =>
          .ok (.plain (.unknown range (String.ofList name) (String.ofList argument))) := by
  obtain ⟨rfl, rfl, rfl⟩ := h
  rfl

/-- A name that stands for a keyword is not empty, so it is no error to begin with. -/
theorem HasParts.readLine_keyword {statement name argument : List Char} {range : LineRange}
    {keyword : Keyword} (h : HasParts statement range name argument)
    (hkeyword : Keyword.named? name = some keyword) :
    readLine statement = readKeyword keyword range argument := by
  cases name with
  | nil => simp [Keyword.named?] at hkeyword
  | cons c name => simp [h.readLine_eq, hkeyword]

/-- Any other name is taken as it is; whether it can be called is found out when it is run. -/
theorem HasParts.readLine_unknown {statement name argument : List Char} {range : LineRange}
    (h : HasParts statement range name argument) (hname : name ≠ [])
    (hkeyword : Keyword.named? name = none) :
    readLine statement =
      .ok (.plain (.unknown range (String.ofList name) (String.ofList argument))) := by
  rw [h.readLine_eq, hkeyword]
  simp [hname]

/-- The keyword of a simple command opens and closes nothing. -/
theorem readKeyword_simple {keyword : Keyword} {range : LineRange} {argument : List Char}
    {command : Command} (h : Command.ofKeyword? keyword range (String.ofList argument) = some command) :
    readKeyword keyword range argument =
      (command.policy.check range argument).map fun _ => .plain (.simple command) := by
  simp [readKeyword, readSimple, h]

/-- Without a range a command with blocks is read as if it had been written without one. -/
theorem HasKeyword.readLine_eq {statement argument : List Char} {keyword : Keyword}
    (h : HasKeyword statement keyword argument) :
    readLine statement = readKeyword keyword {} argument := by
  obtain ⟨range, name, parts, hrange, hkeyword⟩ := h
  cases range
  cases hrange
  exact parts.readLine_keyword hkeyword

/-- What a statement stands for is what its line stands for: each rule of the grammar says what the
parser has to find, in the order in which it looks. -/
theorem exists_line_of_reads {statement : List Char} {mark : Mark} (h : Reads statement mark) :
    ∃ line, readLine statement = .ok line ∧ line.Stands mark := by
  cases h with
  | simple parts keyword command accepts =>
    refine ⟨_, ?_, .plain⟩
    rw [parts.readLine_keyword keyword, readKeyword_simple command,
      (Policy.check_iff ..).mpr accepts]
    rfl
  | unknown parts nonempty keyword => exact ⟨_, parts.readLine_unknown nonempty keyword, .plain⟩
  | openWhile keyword condition =>
    refine ⟨_, ?_, .openWhile⟩
    rw [keyword.readLine_eq]
    show (Expression.parse _).map Line.openWhile = _
    rw [condition]
    rfl
  | openFor keyword argument items =>
    refine ⟨_, ?_, .openFor⟩
    rw [keyword.readLine_eq]
    show (readFor _).map _ = _
    rw [readFor_of_isForArgument argument, items]
    rfl
  | openIf keyword condition =>
    refine ⟨_, ?_, .openIf⟩
    rw [keyword.readLine_eq]
    show (Expression.parse _).map Line.openIf = _
    rw [condition]
    rfl
  | elseIf keyword condition => exact ⟨_, keyword.readLine_eq, .elseIf condition⟩
  | elseMark keyword => exact ⟨_, keyword.readLine_eq, .elseMark⟩
  | endIf keyword => exact ⟨_, keyword.readLine_eq, .endIf⟩
  | endWhile keyword => exact ⟨_, keyword.readLine_eq, .endLoop⟩
  | endFor keyword => exact ⟨_, keyword.readLine_eq, .endLoop⟩

/-- A command with blocks is read only without a range. -/
theorem addresses_of_readKeyword {keyword : Keyword} {range : LineRange} {argument : List Char}
    {line : Line} (hnone : Command.ofKeyword? keyword range (String.ofList argument) = none)
    (h : readKeyword keyword range argument = .ok line) : range.addresses = [] := by
  cases haddresses : range.addresses with
  | nil => rfl
  | cons address addresses =>
    have hsome : range.isEmpty = false := by simp [LineRange.isEmpty, haddresses]
    unfold readKeyword readSimple at h
    rw [hnone] at h
    cases hdivider : divider? keyword argument with
    | none =>
      rw [hdivider, hsome] at h
      cases h
    | some d =>
      rw [hdivider, hsome] at h
      cases h

/-- What a line stands for, its statement stands for. The cases are the kinds of names: none, an
unknown one, the keyword of a simple command, and the keywords of commands with blocks one by
one. -/
theorem reads_of_readLine {statement : List Char} {line : Line} {mark : Mark}
    (hline : readLine statement = .ok line) (hmark : line.Stands mark) : Reads statement mark := by
  obtain ⟨range, name, argument, parts⟩ := exists_hasParts statement
  by_cases hname : name = []
  · subst hname
    rw [parts.readLine_eq] at hline
    simp at hline
  cases hkeyword : Keyword.named? name with
  | none =>
    rw [parts.readLine_unknown hname hkeyword] at hline
    cases hline
    cases hmark
    exact .unknown parts hname hkeyword ⟨trivial, trivial⟩
  | some keyword =>
    rw [parts.readLine_keyword hkeyword] at hline
    cases hcommand : Command.ofKeyword? keyword range (String.ofList argument) with
    | some command =>
      rw [readKeyword_simple hcommand] at hline
      obtain ⟨u, hcheck, rfl⟩ := exists_of_map_eq_ok hline
      cases hmark
      exact .simple parts hkeyword hcommand ((Policy.check_iff ..).mp hcheck)
    | none =>
      have hrange := addresses_of_readKeyword hcommand hline
      have block : HasKeyword statement keyword argument := ⟨range, name, parts, hrange, hkeyword⟩
      rw [← parts.readLine_keyword hkeyword, block.readLine_eq] at hline
      cases keyword with
      | whileLoop =>
        obtain ⟨e, he, rfl⟩ := exists_of_map_eq_ok (x := Expression.parse _) hline
        cases hmark
        exact .openWhile block he
      | forLoop =>
        obtain ⟨⟨_, items⟩, hloop, rfl⟩ := exists_of_map_eq_ok (x := readFor _) hline
        obtain ⟨name, source, hform, rfl, hitems⟩ := isForArgument_of_readFor hloop
        cases hmark
        exact .openFor block hform hitems
      | ifBranch =>
        obtain ⟨e, he, rfl⟩ := exists_of_map_eq_ok (x := Expression.parse _) hline
        cases hmark
        exact .openIf block he
      | elseIfBranch =>
        cases hline
        cases hmark with
        | elseIf he => exact .elseIf block he
      | elseBranch =>
        cases hline
        cases hmark
        exact .elseMark block
      | endIf =>
        cases hline
        cases hmark
        exact .endIf block
      | endWhile =>
        cases hline
        cases hmark
        exact .endWhile block
      | endFor =>
        cases hline
        cases hmark
        exact .endFor block
      | _ => cases hcommand

/-- **A statement has the marks that its line stands for.** The rest of the theory speaks of marks
only. -/
theorem reads_iff {statement : List Char} {mark : Mark} :
    Reads statement mark ↔ ∃ line, readLine statement = .ok line ∧ line.Stands mark :=
  ⟨exists_line_of_reads, fun ⟨_, hline, hmark⟩ => reads_of_readLine hline hmark⟩

end Script

end ExScript
