import ExScript.Proofs.Script.Plain
import ExScript.Run.Command

/-!
# Names of variables

A variable is kept under its bare name, without the mark of the global scope. Which bare names are
legal is said here without the mark, and what is legal with it is what is legal when the mark is
taken off.

Three readers meet such names: the one of expressions, which takes letters, digits and underscores
for a name as long as they go on, the one of `:let`, and the one of `:unlet`, which takes words.
They agree on the names that are legal: each of them is read as a variable where an expression can
stand, and taken away by an `:unlet`.

They need not agree on others. A `:for` takes any word for the name of its variable, and what it
binds under such a name no expression may be able to read. So to be legal is a condition that has to
be proved of a name and not one that every name in a session meets; `isLegalName_of_readAssignment`
gives it for the names behind `:let`, and `Proofs/Run/Binding.lean` says where the others come from.

Nor is each name of an expression legal. An expression can mention other scopes, as in `b:x`, and is
read with that as the name of a variable, but no `:let` and no `:unlet` accepts it.

## Main definitions

* `Variables.IsBareName` — the legal names without a mark of scope

## Main results

* `Variables.isLegalName_iff` — which names are legal
* `Expression.parse_legalName` — a legal name is an expression
* `Command.run_unassign_legalName` — an `:unlet` of a legal name takes the variable away
-/

namespace ExScript

/-! ### Legal names

The program checks a name as it is written, with `g:` in front of it or not. Of the two forms the
check is made of the same text, the bare name, so that is the one to speak about. -/

namespace Variables

/-- Whether a text is a legal name of a variable without a mark of scope: a letter of ASCII or an
underscore, and behind it letters of ASCII, digits and underscores. -/
def IsBareName : List Char → Prop
  | [] => False
  | c :: rest => (c.isAlpha ∨ c = '_') ∧ ∀ d ∈ rest, d.isAlphanum ∨ d = '_'

/-- The check that the program makes of what stands behind a mark of scope. -/
theorem isBareName_iff {c : Char} {rest : List Char} :
    IsBareName (c :: rest) ↔
      ((c.isAlpha || c == '_') && rest.all fun d => d.isAlphanum || d == '_') = true := by
  simp [IsBareName]

instance : DecidablePred IsBareName
  | [] => isFalse id
  | _ :: _ => decidable_of_iff _ isBareName_iff.symm

/-- A name is legal if it is so without the mark of the global scope. -/
theorem isLegalName_iff {name : String} :
    isLegalName name.toList ↔ IsBareName (bareName name).toList := by
  have check (bare : List Char) : (match bare with
      | [] => false
      | c :: rest => (c.isAlpha || c == '_') && rest.all fun c => c.isAlphanum || c == '_') = true ↔
      IsBareName bare := by
    cases bare with
    | nil => exact ⟨Bool.noConfusion, False.elim⟩
    | cons c rest => exact isBareName_iff.symm
  unfold isLegalName bareName
  split
  next rest _ =>
    rw [String.toList_ofList]
    exact check rest
  next => exact check name.toList

namespace IsBareName

variable {name : String}

theorem isNameChar {text : List Char} (h : IsBareName text) : ∀ c ∈ text, Lexeme.isNameChar c := by
  cases text with
  | nil => cases h
  | cons c rest =>
    obtain ⟨hc, hrest⟩ := h
    intro d hd
    have hd : d.isAlphanum ∨ d = '_' := by
      rcases List.mem_cons.mp hd with rfl | hd
      · exact hc.imp_left Script.isAlphanum_of_isAlpha
      · exact hrest d hd
    simpa [Lexeme.isNameChar] using hd

/-- There is no mark of scope in front of a bare name. -/
theorem bareName_eq (h : IsBareName name.toList) : bareName name = name := by
  rw [bareName]
  split
  next hmark =>
    have hcolon := h.isNameChar ':' (by simp [hmark])
    exact absurd hcolon (by decide)
  next => rfl

theorem isLegalName (h : IsBareName name.toList) : isLegalName name.toList := by
  rw [isLegalName_iff, h.bareName_eq]
  exact h

end IsBareName

section Legal

variable {name : String}

/-- A legal name is a bare name, or one behind the mark of the global scope. -/
theorem bare_or_marked (h : isLegalName name.toList) :
    IsBareName name.toList ∨ ∃ bare, IsBareName bare ∧ name.toList = 'g' :: ':' :: bare := by
  have hbare := isLegalName_iff.mp h
  rw [bareName] at hbare
  split at hbare
  next rest hmark =>
    rw [String.toList_ofList] at hbare
    exact .inr ⟨rest, hbare, hmark⟩
  next => exact .inl hbare

/-- No legal name is empty, with a mark or without. -/
theorem ne_nil_of_isLegalName (h : isLegalName name.toList) : name.toList ≠ [] := by
  intro hnil
  rw [hnil] at h
  cases h

/-- A legal name is made of characters that `:let` takes for a part of a name. -/
theorem isTargetChar_of_isLegalName (h : isLegalName name.toList) :
    ∀ c ∈ name.toList, Command.isTargetChar c = true := by
  have bare {text : List Char} (h : IsBareName text) :
      ∀ c ∈ text, Command.isTargetChar c = true := by
    intro c hc
    have hname := h.isNameChar c hc
    rw [Lexeme.isNameChar] at hname
    rw [Command.isTargetChar, hname, Bool.true_or]
  rcases bare_or_marked h with hbare | ⟨rest, hrest, hname⟩
  · exact bare hbare
  · rw [hname]
    simpa using ⟨by decide, by decide, bare hrest⟩

/-- So it is one word. -/
theorem not_blank_of_isLegalName (h : isLegalName name.toList) :
    ∀ c ∈ name.toList, isBlank c = false := by
  intro c hc
  have htarget := isTargetChar_of_isLegalName h c hc
  simp only [Command.isTargetChar, Bool.or_eq_true, beq_iff_eq] at htarget
  rcases htarget with (halphanum | rfl) | rfl
  · exact Script.isBlank_of_isAlphanum halphanum
  · decide
  · decide

/-- There is no blank at the front of a legal name. -/
theorem begins_of_isLegalName (h : isLegalName name.toList) (behind : List Char) :
    ∃ c rest, name.toList ++ behind = c :: rest ∧ isBlank c = false := by
  obtain ⟨c, rest, hname⟩ := List.exists_cons_of_ne_nil (ne_nil_of_isLegalName h)
  refine ⟨c, rest ++ behind, by rw [hname, List.cons_append], ?_⟩
  exact not_blank_of_isLegalName h c (hname ▸ List.mem_cons_self)

/-- The name that a `:let` gives a value is legal. -/
theorem isLegalName_of_readAssignment {argument source : String} {op : Command.AssignOp}
    (h : Command.readAssignment argument = .ok (name, op, source)) :
    isLegalName name.toList := by
  rw [Command.readAssignment] at h
  split at h
  next hlegal =>
    split at h
    · cases h
      rwa [String.toList_ofList]
    · cases h
  next => cases h

end Legal

end Variables

/-- There is nothing to trim where nothing is blank. -/
theorem Text.trim_of_not_blank {text : List Char} (h : ∀ c ∈ text, isBlank c = false) :
    Text.trim text = text := by
  cases text with
  | nil => rfl
  | cons c rest =>
    rw [Text.trim, Text.trimStart_cons (h c List.mem_cons_self), Text.trimEnd_of_not_blank h]

open Variables

/-! ### Expressions

The scanner has two ways to come to a name: at its first letter, or at `g` with a colon behind it.
In both it goes on as far as there are characters of names, so the whole text is one token, and a
parse of one name is that variable. -/

namespace Lexeme

theorem isSeparator_of_isNameChar {c : Char} (h : isNameChar c) : isSeparator c = false := by
  cases hc : isSeparator c with
  | false => rfl
  | true =>
    simp only [isSeparator, Bool.or_eq_true, beq_iff_eq] at hc
    rcases hc with rfl | rfl <;> exact absurd h (by decide)

theorem scanUpTo_nil (n : Nat) : scanUpTo n [] = [] := by
  cases n <;> rfl

/-- Characters of names behind the first ones of a name are a part of it. -/
theorem readName_whole (start : List Char) {rest : List Char} (h : ∀ c ∈ rest, isNameChar c) :
    readName start rest = ⟨.name (String.ofList (start ++ rest)), []⟩ := by
  rw [readName, List.takeWhile_eq_self_iff.mpr h, List.dropWhile_eq_nil_iff.mpr h]

/-- A text of one token. -/
theorem scan_of_next {text : List Char} {t : Token} (h : next? text = some ⟨t, []⟩) :
    scan text = [⟨t, []⟩] := by
  cases text with
  | nil => cases h
  | cons c rest =>
    rw [scan, List.length_cons, scanUpTo, h]
    simp only [scanUpTo_nil]

/-- A bare name is one token. -/
theorem scan_bareName {name : List Char} (h : IsBareName name) :
    scan name = [⟨.name (String.ofList name), []⟩] := by
  cases name with
  | nil => cases h
  | cons c rest =>
    obtain ⟨hc, hrest⟩ := List.forall_mem_cons.mp h.isNameChar
    have hstart : isNameStart c := by simpa [isNameStart] using h.1
    have hdigit : c.isDigit = false := by
      rcases h.1 with hc | rfl
      · exact Script.isDigit_of_isAlpha hc
      · decide
    have hscope : readScopedName c rest = readName [c] rest := by
      rw [readScopedName.eq_def]
      split
      next => exact absurd (hrest ':' List.mem_cons_self) (by decide)
      next => rfl
    refine scan_of_next ?_
    rw [next?_of_not_separator (isSeparator_of_isNameChar hc)]
    simp only [readFrom, hdigit, hstart, hscope, readName_whole [c] hrest, if_true,
      Bool.false_eq_true, if_false, List.singleton_append]

/-- A legal name is one token. -/
theorem scan_legalName {name : String} (h : isLegalName name.toList) :
    scan name.toList = [⟨.name name, []⟩] := by
  rcases bare_or_marked h with hbare | ⟨bare, hbare, hname⟩
  · rw [scan_bareName hbare, String.ofList_toList]
  · have hnext : next? ('g' :: ':' :: bare) = some (readName ['g', ':'] bare) := rfl
    rw [readName_whole _ hbare.isNameChar] at hnext
    have hscan := scan_of_next hnext
    rwa [List.cons_append, List.singleton_append, ← hname, String.ofList_toList] at hscan

end Lexeme

/-- **A legal name is read as a variable.** -/
theorem Expression.parse_legalName {name : String} (h : Variables.isLegalName name.toList) :
    Expression.parse name = .ok ⟨name, .var name⟩ := by
  have hread : Expr.read [⟨.name name, []⟩] = some (.var name, []) := rfl
  rw [Expression.parse, Lexeme.scan_legalName h, hread, trimmed,
    Text.trim_of_not_blank (not_blank_of_isLegalName h), String.ofList_toList]

/-- In particular, one without a mark. -/
theorem Expression.parse_bareName {name : String} (h : IsBareName name.toList) :
    Expression.parse name = .ok ⟨name, .var name⟩ :=
  parse_legalName h.isLegalName

/-! ### Commands

The argument of `:unlet` is cut into words behind an optional `!`. A legal name is one word and does
not begin with `!`. The variable is erased under its bare name. -/

namespace Command

theorem splitBang_legalName {name : String} (h : Variables.isLegalName name.toList) :
    splitBang name = (false, name.toList) := by
  have htrim := Text.trim_of_not_blank (not_blank_of_isLegalName h)
  have hstart : Text.trimStart name.toList = name.toList := by
    obtain ⟨c, rest, hname, hc⟩ := begins_of_isLegalName h []
    rw [List.append_nil] at hname
    rw [hname, Text.trimStart_cons hc]
  rw [splitBang, hstart]
  split
  next hbang =>
    rw [hbang] at h
    cases h
  next => rw [htrim]

theorem words_legalName {name : String} (h : Variables.isLegalName name.toList) :
    Text.words name.toList = [name.toList] := by
  rw [Text.words, List.splitOnP_eq_singleton (not_blank_of_isLegalName h)]
  simp [ne_nil_of_isLegalName h]

/-- **A legal name is taken away by `:unlet`**, if the variable is there. -/
theorem run_unassign_legalName {name : String} {s : Session} {v : Value}
    (h : Variables.isLegalName name.toList) (hname : s.vars.get? name = some v) (scope : Scope) :
    (Command.unassign name).run scope s = (.finished, { s with vars := s.vars.erase name }) := by
  have hthere : s.vars.contains name = true := by simp [Variables.contains, hname]
  have hunassign : unassignIn false s.vars [name.toList] = (none, s.vars.erase name) := by
    simp [unassignIn, h, hthere]
  rw [run, runUnassign, splitBang_legalName h]
  split
  next hnil => exact absurd (Prod.mk.inj hnil).2 (ne_nil_of_isLegalName h)
  next hsplit =>
    cases hsplit
    rw [words_legalName h, hunassign]

theorem run_unassign_bareName {name : String} {s : Session} {v : Value}
    (h : IsBareName name.toList) (hname : s.vars.get? name = some v) (scope : Scope) :
    (Command.unassign name).run scope s = (.finished, { s with vars := s.vars.erase name }) :=
  run_unassign_legalName h.isLegalName hname scope

end Command

end ExScript
