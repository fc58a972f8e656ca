import ExScript.Proofs.Run.Assignment

/-!
# Spellings of a name

A variable has two names, the bare one and the one with the mark of the global scope. A `:let` can
use either, and so can all that is done with the variable later: a name that an expression reads,
the text that `exists()` is asked with, and the argument of an `:unlet`. Each of these has a reader
of its own, so a name could be one for the first and something else for the next. For legal names
that does not happen: what an expression and `exists()` answer is what is kept under the bare name.

## Main definitions

* `Variables.spellings` — the names of a variable
* `Variables.Answers` — what is learnt of a variable under one of its names

## Main results

* `Variables.answers` — under a legal name the variable itself answers
* `Command.assigned_under_spellings` — a variable from its `:let` to its `:unlet`
-/

namespace ExScript

open ExScript.Expr (Derivation tokensOf)

/-- Without quotes in it, a text needs no more of them. -/
theorem Text.doubleSingles_of_forall_ne {text : List Char} (h : ∀ c ∈ text, c ≠ '\'') :
    doubleSingles text = text := by
  induction text with
  | nil => rfl
  | cons c text ih =>
    obtain ⟨hc, htext⟩ := List.forall_mem_cons.mp h
    rw [doubleSingles_cons, if_neg hc, ih htext, List.singleton_append]

namespace Variables

/-! ### The names of a variable -/

/-- The names of a variable: the bare one, and the one with the mark of the global scope. -/
def spellings (bare : String) : List String :=
  [bare, "g:" ++ bare]

theorem bareName_marked (bare : String) : bareName ("g:" ++ bare) = bare := by
  have marked : ("g:" ++ bare).toList = 'g' :: ':' :: bare.toList := by simp
  simp only [bareName, marked, String.ofList_toList]

/-- A spelling of a bare name is legal and stands for it. -/
theorem IsBareName.of_mem_spellings {bare name : String} (h : IsBareName bare.toList)
    (hname : name ∈ spellings bare) : Variables.isLegalName name.toList ∧ bareName name = bare := by
  rcases List.mem_pair.mp hname with rfl | rfl
  · exact ⟨h.isLegalName, h.bareName_eq⟩
  · rw [isLegalName_iff, bareName_marked]
    exact ⟨h, rfl⟩

/-! ### Answers -/

/-- The text of an expression that asks whether there is a variable of a name. -/
def question (name : String) : String :=
  "exists('" ++ name ++ "')"

/-- Whether variables answer under a name with a value, or with none: the name as an expression, and
`exists()` with the name in quotes. -/
structure Answers (vars : Variables) (name : String) (v? : Option Value) : Prop where
  read : ∃ e, Expression.parse name = .ok e ∧ e.body = .var name ∧
    e.eval vars = v?.elim (.error (.undefinedVariable name)) .ok
  asked : ∃ e, Expression.parse (question name) = .ok e ∧ e.body = .call "exists" [.text name] ∧
    e.eval vars = .ok (.number (if v?.isSome then 1 else 0))

/-- The tree of a question. -/
def questionTree (name : String) : Derivation (.level (.chain .or)) :=
  .ofUnary (.bare (.call "exists" (.someItems (.ofUnary (.bare (.text name))) .last)))

/-- There are no quotes in a legal name, so it is written as it is between them. -/
theorem doubleSingles_legalName {name : String} (h : isLegalName name.toList = true) :
    Text.doubleSingles name.toList = name.toList := by
  have noQuote : ∀ c ∈ name.toList, c ≠ '\'' := by
    rintro c hc rfl
    exact absurd (Script.isPlain_of_isLegalName h _ hc) (by decide)
  exact Text.doubleSingles_of_forall_ne noQuote

theorem parse_question {name : String} (h : isLegalName name.toList = true) :
    Expression.parse (question name) =
      .ok ⟨trimmed (question name), .call "exists" [.text name]⟩ := by
  have text : (question name).toList =
      "exists".toList ++ '(' :: (Text.writeSingle name.toList ++ [')']) := by
    simp [question, Text.writeSingle, doubleSingles_legalName h]
  have called : Lexeme.ScansTo (question name).toList [.name "exists"]
      ('(' :: (Text.writeSingle name.toList ++ [')'])) := by
    rw [text]
    exact .next rfl (by simp)
  have opened {text : List Char} : Lexeme.ScansTo ('(' :: text) [.leftParen] text :=
    Lexeme.scansTo_symbol rfl rfl
  have detached : Lexeme.Detached [')'] := Lexeme.detached_cons (by decide) []
  have quoted := Lexeme.scansTo_writeSingle name.toList detached
  have closed : Lexeme.ScansTo [')'] [.rightParen] [] := Lexeme.scansTo_symbol rfl rfl
  have scanned := called.trans (opened.trans (quoted.trans closed))
  rw [String.ofList_toList] at scanned
  exact Expression.parse_of_derivation (questionTree name) scanned.tokensOf_scan.symm

/-- **Under a legal name the variable itself answers.** -/
theorem answers {name : String} (h : isLegalName name.toList = true) (vars : Variables) :
    vars.Answers name (vars.get? name) := by
  refine ⟨⟨_, Expression.parse_legalName h, rfl, ?_⟩, ⟨_, parse_question h, rfl, ?_⟩⟩
  · rw [Expression.eval, Expr.eval]
    cases vars.get? name <;> rfl
  · rfl

/-- Under a spelling of a bare name the variable answers that it is kept for. -/
theorem IsBareName.answers {bare name : String} (h : IsBareName bare.toList)
    (hname : name ∈ spellings bare) (vars : Variables) :
    vars.Answers name (vars.table.get? bare) := by
  obtain ⟨hlegal, hbare⟩ := h.of_mem_spellings hname
  have answers := Variables.answers hlegal vars
  rwa [Variables.get?, hbare] at answers

end Variables

open Variables

/-- **A variable from its `:let` to its `:unlet`.** Take an argument that a `:let` assigns with a
plain `=`, with success. The variable has got the value of the expression, and nothing else has
changed; both names of it, as expressions and in `exists()`, answer with this value. And an `:unlet`
of either name succeeds and takes the variable away: then both names answer that there is none, and
again nothing else has changed. -/
theorem Command.assigned_under_spellings {argument name source : String} {scope : Scope}
    {s s' : Session} (hread : Command.readAssignment argument = .ok (name, .set, source))
    (hrun : (Command.assign argument).run scope s = (.finished, s')) :
    ∃ e v, Expression.parse source = .ok e ∧ e.eval s.vars = .ok v ∧
      (∀ spelling ∈ spellings (bareName name), s'.vars.Answers spelling (some v)) ∧
      s' = { s with vars := s'.vars } ∧
      (∀ other, bareName other ≠ bareName name → s'.vars.get? other = s.vars.get? other) ∧
      ∀ spelling ∈ spellings (bareName name), ∀ scope', ∃ s'',
        (Command.unassign spelling).run scope' s' = (.finished, s'') ∧
        (∀ again ∈ spellings (bareName name), s''.vars.Answers again none) ∧
        s'' = { s with vars := s''.vars } ∧
        ∀ other, bareName other ≠ bareName name → s''.vars.get? other = s.vars.get? other := by
  have hbare : IsBareName (bareName name).toList :=
    isLegalName_iff.mp (isLegalName_of_readAssignment hread)
  obtain ⟨e, written⟩ := exists_assigns hread hrun
  obtain ⟨v, heval, rfl⟩ := (run_assign_eq_finished_iff written).mp hrun
  obtain ⟨source', hread', hparse⟩ := written
  cases hread.symm.trans hread'
  have kept : ∀ other, bareName other ≠ bareName name →
      (s.vars.set name v).get? other = s.vars.get? other := by
    intro other hother
    rw [get?_set, if_neg hother]
  -- both names stand for one key, and what was kept under it is what each of them answers
  refine ⟨e, v, hparse, heval, fun spelling hspelling => ?_, rfl, kept, ?_⟩
  · have answers := hbare.answers hspelling (s.vars.set name v)
    rwa [Variables.set, Table.get?_insert_self] at answers
  · intro spelling hspelling scope'
    obtain ⟨hlegal, hspells⟩ := hbare.of_mem_spellings hspelling
    have there : (s.vars.set name v).get? spelling = some v := by
      rw [get?_set, if_pos hspells]
    refine ⟨_, run_unassign_legalName hlegal there scope', fun again hagain => ?_, rfl, ?_⟩
    · have answers := hbare.answers hagain ((s.vars.set name v).erase spelling)
      rwa [Variables.erase, Table.get?_erase, if_pos hspells.symm] at answers
    · intro other hother
      rw [get?_erase, hspells, if_neg hother, kept other hother]

/-- A variable whose bare name is a letter for a scope. -/
theorem Command.assigned_under_spellings_scopeLetter :
    ∃ s' s'' : Session, (Command.assign "g:g = [2] ").run .root {} = (.finished, s') ∧
      s'.vars.Answers "g" (some (.list [.number 2])) ∧
      s'.vars.Answers "g:g" (some (.list [.number 2])) ∧
      (Command.unassign "g").run .root s' = (.finished, s'') ∧ s''.vars.Answers "g:g" none := by
  let s' : Session := { vars := Variables.empty.set "g:g" (.list [.number 2]) }
  have hread : Command.readAssignment "g:g = [2] " = .ok ("g:g", .set, " [2]") := rfl
  have hparse : Expression.parse " [2]" = .ok ⟨"[2]", .list [.number 2]⟩ := rfl
  have hrun : (Command.assign "g:g = [2] ").run .root {} = (.finished, s') := rfl
  obtain ⟨e, v, he, hv, bound, -, -, unbound⟩ := Command.assigned_under_spellings hread hrun
  cases hparse.symm.trans he
  obtain rfl : .list [.number 2] = v := Except.ok.inj hv
  obtain ⟨s'', hunassign, gone, -⟩ := unbound "g" (by decide) .root
  exact ⟨s', s'', hrun, bound "g" (by decide), bound "g:g" (by decide), hunassign,
    gone "g:g" (by decide)⟩

end ExScript
