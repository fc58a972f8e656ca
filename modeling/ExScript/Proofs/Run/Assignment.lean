import ExScript.Proofs.Expr.Occurrence
import ExScript.Proofs.Result
import ExScript.Proofs.Script.LoopLines

/-!
# Assignments

A `:let` with a plain `=` evaluates its expression and gives the variable this value; nothing else
of the session is changed. So two of them can change places if neither looks at what the other one
changes: the variables are different, and neither occurs in the expression of the other.

The function `exists()` has to be kept out of it. It is given the name of a variable as a text, and
that can be put together while the expression is evaluated, so the names in an expression do not say
on which variables it depends. All other functions get values.

Both assignments are asked to succeed, in one of the orders. Where the second one fails, the first
has been done; with the order changed it would be the other way around, and the sessions differ.

## Main definitions

* `Command.Assigns` — an argument of `:let`, by what it does to which variable

## Main results

* `Command.assigns_written` — an argument that is put together from a name, a sign and an expression
* `Command.run_assign_eq_finished_iff` — what an assignment does
* `Command.run_assign_comm` — assignments that have nothing to do with each other change places
* `Expr.depends_on_named` — an expression depends only on the variables it names
-/

namespace ExScript

/-- Different variables can be set in either order. -/
theorem Variables.set_comm {x y : String} (h : bareName x ≠ bareName y) (vars : Variables)
    (v w : Value) : (vars.set x v).set y w = (vars.set y w).set x v :=
  congrArg Variables.mk (vars.table.insert_comm h v w)

namespace Command

/-! ### Arguments of `:let`

What an argument says is found by reading it: a name up to the sign, and an expression behind it. An
argument that is put together from these is read as them, if the name is legal. -/

/-- Whether an argument of `:let` changes a variable in some way by the value of an expression. -/
def Assigns (argument x : String) (op : AssignOp) (e : Expression) : Prop :=
  ∃ source, readAssignment argument = .ok (x, op, source) ∧ Expression.parse source = .ok e

/-- Blanks behind an argument of `:let` are no part of it. -/
theorem readAssignment_kept (argument : String) :
    readAssignment (Script.kept argument) = readAssignment argument := by
  rw [readAssignment, Script.toList_kept, Text.trim_trimEnd]
  rfl

section Written

variable {argument x source : String} {op : AssignOp} {e : Expression}

/-- A legal name, a sign and a text are read as what they are, without the blanks behind the
text. -/
theorem readAssignment_written (sign : List Char) (hx : Variables.isLegalName x.toList = true)
    (hsign : ∀ text, readAssignOp (Text.trimStart (sign ++ text)) = some (op, text))
    (hsource : Text.trimEnd source.toList ≠ [])
    (hargument : argument.toList = x.toList ++ ' ' :: (sign ++ source.toList)) :
    readAssignment argument = .ok (x, op, Script.kept source) := by
  have hchars := Variables.isTargetChar_of_isLegalName hx
  have text : Text.trim argument.toList =
      x.toList ++ ' ' :: (sign ++ (Script.kept source).toList) := by
    have whole := Text.trim_append (Variables.begins_of_isLegalName hx (' ' :: sign)) hsource
    rwa [List.append_assoc, List.append_assoc, List.cons_append, List.cons_append, ← hargument,
      ← Script.toList_kept] at whole
  have space : isTargetChar ' ' = false := by decide
  have skip (text : List Char) : Text.trimStart (' ' :: text) = Text.trimStart text := rfl
  rw [readAssignment, text, Text.takeWhile_break space, Text.dropWhile_break space,
    List.takeWhile_eq_self_iff.mpr hchars, List.dropWhile_eq_nil_iff.mpr hchars, List.nil_append,
    skip, hsign]
  simp only [hx, if_true, String.ofList_toList]

/-- A legal name, a sign and the source of an expression, with spaces between them. -/
theorem assigns_written (sign : List Char) (hx : Variables.isLegalName x.toList = true)
    (hsign : ∀ text, readAssignOp (Text.trimStart (sign ++ text)) = some (op, text))
    (hparse : Expression.parse (Script.kept source) = .ok e)
    (hargument : argument.toList = x.toList ++ ' ' :: (sign ++ ' ' :: source.toList)) :
    Assigns argument x op e := by
  have text : (" " ++ source).toList = ' ' :: source.toList := by simp
  have spaced : Text.trimEnd (" " ++ source).toList = ' ' :: (Script.kept source).toList := by
    rw [text, Script.toList_kept]
    exact Text.trimEnd_append_of_ne_nil (Script.kept_ne_nil hparse) [' ']
  have behind : Script.kept (" " ++ source) = " " ++ Script.kept source := by
    rw [← String.toList_inj, Script.toList_kept, spaced]
    simp
  rw [← text] at hargument
  refine ⟨_, readAssignment_written sign hx hsign ?_ hargument, ?_⟩
  · rw [spaced]
    exact List.cons_ne_nil _ _
  · rw [behind, Expression.parse_space, hparse]

end Written

/-! ### Runs of assignments

An equivalence says what an assignment does, so that its success can be taken apart in the one order
and put together again in the other. -/

section Run

variable {argument argument' x y : String} {op : AssignOp} {e e' : Expression}
  {scope scope' : Scope} {s s' s₁ s₂ : Session}

/-- The expression is evaluated first, and the sign says what becomes of its value. -/
theorem Assigns.assignIn_eq (h : Assigns argument x op e) (vars : Variables) :
    assignIn vars argument =
      match e.eval vars with
      | .error err => .error err
      | .ok v => (op.newValue vars x v).map fun new => vars.set x new := by
  obtain ⟨source, hread, hparse⟩ := h
  cases heval : e.eval vars <;> simp only [assignIn, hread, hparse, heval]

/-- At the end of a line an argument loses its blanks, which makes no difference. -/
theorem run_assign_kept (argument : String) (scope : Scope) (s : Session) :
    (assign (Script.kept argument)).run scope s = (assign argument).run scope s := by
  simp only [run, assignIn, readAssignment_kept]

/-- **What an assignment does**, if it succeeds: the variable gets the value of the expression. -/
theorem run_assign_eq_finished_iff (h : Assigns argument x .set e) :
    (assign argument).run scope s = (.finished, s') ↔
      ∃ v, e.eval s.vars = .ok v ∧ s' = { s with vars := s.vars.set x v } := by
  rw [run, h.assignIn_eq]
  cases heval : e.eval s.vars with
  | error err => simp [Except.map, attempt]
  | ok v => simp [AssignOp.newValue, Except.map, attempt, eq_comm]

/-- Behind the sign of an assignment that succeeds there is an expression. -/
theorem exists_assigns {source : String} (hread : readAssignment argument = .ok (x, op, source))
    (hrun : (assign argument).run scope s = (.finished, s')) : ∃ e, Assigns argument x op e := by
  cases hparse : Expression.parse source with
  | error err =>
    rw [run, assignIn] at hrun
    simp only [hread, hparse] at hrun
    cases hrun
  | ok e => exact ⟨e, source, hread, hparse⟩

/-- **Assignments that have nothing to do with each other change places.** -/
theorem run_assign_comm (h : Assigns argument x .set e) (h' : Assigns argument' y .set e')
    (hxy : Variables.bareName x ≠ Variables.bareName y) (hx : e'.body.Avoids x)
    (hy : e.body.Avoids y) (hrun : (assign argument).run scope s = (.finished, s₁))
    (hrun' : (assign argument').run scope' s₁ = (.finished, s₂)) :
    ∃ s₁', (assign argument').run scope' s = (.finished, s₁') ∧
      (assign argument).run scope s₁' = (.finished, s₂) := by
  obtain ⟨v, hv, rfl⟩ := (run_assign_eq_finished_iff h).mp hrun
  obtain ⟨w, hw, rfl⟩ := (run_assign_eq_finished_iff h').mp hrun'
  have first : e'.eval s.vars = .ok w := by
    rwa [Expression.eval, Expr.eval_set hx] at hw
  have second : e.eval (s.vars.set y w) = .ok v := by
    rwa [Expression.eval, Expr.eval_set hy]
  refine ⟨_, (run_assign_eq_finished_iff h').mpr ⟨w, first, rfl⟩, ?_⟩
  exact (run_assign_eq_finished_iff h).mpr ⟨v, second, by rw [Variables.set_comm hxy]⟩

end Run

end Command

/-- **An expression depends only on the variables it names.** Where `exists()` is not called in it,
its value, or the error there is instead, is the same in all variables that answer alike for the
names in it, with or without the mark of the global scope. So two assignments change places: if the
variables are different, neither occurs in the expression of the other and `exists()` is called in
none of them, then both succeed in the one order if they do in the other, and the session is the
same behind both. -/
theorem Expr.depends_on_named :
    (∀ (e : Expr) (vars vars' : Variables), Function.defined.name ∉ e.functionNames →
      (∀ name ∈ e.variableNames, vars.get? name = vars'.get? name) → e.eval vars = e.eval vars') ∧
    ∀ (argument argument' x y : String) (e e' : Expression),
      Command.Assigns argument x .set e → Command.Assigns argument' y .set e' →
      Variables.bareName x ≠ Variables.bareName y →
      (∀ name ∈ e'.body.variableNames, Variables.bareName name ≠ Variables.bareName x) →
      (∀ name ∈ e.body.variableNames, Variables.bareName name ≠ Variables.bareName y) →
      Function.defined.name ∉ e.body.functionNames → Function.defined.name ∉ e'.body.functionNames →
      ∀ (scope scope' : Scope) (s s₁ s₂ : Session),
        (Command.assign argument).run scope s = (.finished, s₁) →
        (Command.assign argument').run scope' s₁ = (.finished, s₂) →
        ∃ s₁', (Command.assign argument').run scope' s = (.finished, s₁') ∧
          (Command.assign argument).run scope s₁' = (.finished, s₂) := by
  constructor
  · intro e vars vars' hcalls hagree
    exact eval_congr e hcalls hagree
  · intro argument argument' x y e e' h h' hxy hx hy hcalls hcalls' scope scope' s s₁ s₂
    exact Command.run_assign_comm h h' hxy ⟨hcalls', hx⟩ ⟨hcalls, hy⟩

/-- An expression depends on the variable it names, and two assignments that look at it change
places. -/
theorem Expr.depends_on_named_sharedVariable :
    (∃ v, (Expr.call "len" [.var "g:a"]).eval (Variables.empty.set "a" (.number 10)) = .ok v ∧
      (Expr.call "len" [.var "g:a"]).eval
        ((Variables.empty.set "b" (.number 1)).set "a" (.number 10)) = .ok v) ∧
    ∃ s₁ s₂ s₁' : Session,
      let s : Session := { vars := Variables.empty.set "a" (.number 10) }
      (Command.assign "g:x = a . 'q'").run .root s = (.finished, s₁) ∧
      (Command.assign "y = len(g:a)").run .root s₁ = (.finished, s₂) ∧
      (Command.assign "y = len(g:a)").run .root s = (.finished, s₁') ∧
      (Command.assign "g:x = a . 'q'").run .root s₁' = (.finished, s₂) := by
  let s : Session := { vars := Variables.empty.set "a" (.number 10) }
  have h : Command.Assigns "g:x = a . 'q'" "g:x" .set
      ⟨"a . 'q'", .binary .concat (.var "a") (.text "q")⟩ :=
    ⟨" a . 'q'", rfl, rfl⟩
  have h' : Command.Assigns "y = len(g:a)" "y" .set ⟨"len(g:a)", .call "len" [.var "g:a"]⟩ :=
    ⟨" len(g:a)", rfl, rfl⟩
  obtain ⟨values, orders⟩ := Expr.depends_on_named
  constructor
  · have hagree : ∀ name ∈ (Expr.call "len" [.var "g:a"]).variableNames,
        (Variables.empty.set "a" (.number 10)).get? name =
          ((Variables.empty.set "b" (.number 1)).set "a" (.number 10)).get? name := by
      decide
    exact ⟨.number 2, rfl, (values _ _ _ (by decide) hagree).symm⟩
  · have hrun : (Command.assign "g:x = a . 'q'").run .root s =
        (.finished, { s with vars := s.vars.set "g:x" (.text "10q") }) :=
      rfl
    have hrun' : (Command.assign "y = len(g:a)").run .root
          { s with vars := s.vars.set "g:x" (.text "10q") } =
        (.finished, { s with vars := (s.vars.set "g:x" (.text "10q")).set "y" (.number 2) }) :=
      rfl
    obtain ⟨s₁', first, second⟩ := orders _ _ _ _ _ _ h h' (by decide) (by decide) (by decide)
      (by decide) (by decide) _ _ _ _ _ hrun hrun'
    exact ⟨_, _, s₁', hrun, hrun', first, second⟩

end ExScript
