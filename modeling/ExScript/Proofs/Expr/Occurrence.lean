import ExScript.Expr.Eval

/-!
# What occurs in an expression

The value of an expression depends on the variables that are named in it and on no others. Names are
looked up by their bare form, so a name with the mark of the global scope and the same name without
it stand for one variable here as everywhere.

One function has to be left out. What `exists()` is asked for is the name that its argument
displays, and that can be put together from anything; with it an expression reaches variables that
are not named in it.

## Main definitions

* `Expr.variableNames`, `Expr.functionNames` — the names that occur in an expression
* `Variables.AgreeOn` — variables that answer alike for some names
* `Expr.Avoids` — an expression that has nothing to do with a variable

## Main results

* `Expr.eval_congr` — the value of an expression depends on the variables in it
* `Expr.eval_set` — another variable can be set without a change of the value
-/

namespace ExScript

/-- Whether variables give the same answer, a value or none, for each of some names. -/
def Variables.AgreeOn (names : List String) (vars vars' : Variables) : Prop :=
  ∀ name ∈ names, vars.get? name = vars'.get? name

theorem Variables.agreeOn_append {names names' : List String} {vars vars' : Variables} :
    AgreeOn (names ++ names') vars vars' ↔ AgreeOn names vars vars' ∧ AgreeOn names' vars vars' :=
  List.forall_mem_append

/-- Variables agree on all names but those of a variable that is set. -/
theorem Variables.agreeOn_set {names : List String} {x : String}
    (h : ∀ name ∈ names, bareName name ≠ bareName x) (vars : Variables) (v : Value) :
    AgreeOn names (vars.set x v) vars := by
  intro name hname
  rw [get?_set, if_neg (h name hname)]

/-- The other functions do not look at variables. -/
theorem Function.apply_congr {f : Function} (h : f ≠ defined) (vars vars' : Variables)
    (arguments : List Value) : f.apply vars arguments = f.apply vars' arguments := by
  fun_cases apply vars f arguments with
  | case6 => exact absurd rfl h
  | _ => simp_all [apply]

theorem Function.named?_eq_defined {name : String} (h : named? name = some defined) :
    name = defined.name := by
  rw [named?.eq_def] at h
  split at h <;> first | rfl | cases h

theorem Function.call_congr {name : String} (h : name ≠ defined.name) (vars vars' : Variables)
    (arguments : List Value) : call vars name arguments = call vars' name arguments := by
  rw [call, call]
  cases hf : named? name with
  | none => rfl
  | some f =>
    have other : f ≠ defined := by
      rintro rfl
      exact h (named?_eq_defined hf)
    exact apply_congr other vars vars' arguments

namespace Expr

mutual

/-- The names of variables in an expression, as they are written. -/
def variableNames : Expr → List String
  | number _ => []
  | text _ => []
  | var name => [name]
  | list items => variableNamesOfItems items
  | unary _ operand => operand.variableNames
  | binary _ left right => left.variableNames ++ right.variableNames
  | call _ arguments => variableNamesOfItems arguments

/-- The names of variables in several expressions. -/
def variableNamesOfItems : List Expr → List String
  | [] => []
  | e :: rest => e.variableNames ++ variableNamesOfItems rest

end

mutual

/-- The names of the functions that are called in an expression. -/
def functionNames : Expr → List String
  | number _ => []
  | text _ => []
  | var _ => []
  | list items => functionNamesOfItems items
  | unary _ operand => operand.functionNames
  | binary _ left right => left.functionNames ++ right.functionNames
  | call name arguments => name :: functionNamesOfItems arguments

/-- The names of the functions that are called in several expressions. -/
def functionNamesOfItems : List Expr → List String
  | [] => []
  | e :: rest => e.functionNames ++ functionNamesOfItems rest

end

/-- Whether an expression has nothing to do with a variable: it does not name it, and `exists()`,
which can ask for any, is not called in it. -/
structure Avoids (e : Expr) (x : String) : Prop where
  calls : Function.defined.name ∉ e.functionNames
  names : ∀ name ∈ e.variableNames, Variables.bareName name ≠ Variables.bareName x

section Congruence

open Variables (AgreeOn agreeOn_append)

variable {vars vars' : Variables}

mutual

/-- **The value of an expression depends on the variables in it,** if `exists()` is not called. The
error, where there is one instead, is the same too. -/
theorem eval_congr : (e : Expr) → Function.defined.name ∉ e.functionNames →
    AgreeOn e.variableNames vars vars' → e.eval vars = e.eval vars'
  | number _, _, _ => rfl
  | text _, _, _ => rfl
  | var name, _, h => by
    rw [eval, eval, h name List.mem_cons_self]
  | list items, hcalls, h => by
    rw [eval, eval, evalItems_congr items hcalls h]
  | unary op operand, hcalls, h => by
    rw [eval, eval, eval_congr operand hcalls h]
  | binary op left right, hcalls, h => by
    obtain ⟨hcallsLeft, hcallsRight⟩ := not_or.mp (mt List.mem_append.mpr hcalls)
    obtain ⟨hleft, hright⟩ := agreeOn_append.mp h
    rw [eval, eval, eval_congr left hcallsLeft hleft, eval_congr right hcallsRight hright]
  | call name arguments, hcalls, h => by
    obtain ⟨hname, hcallsItems⟩ := not_or.mp (mt List.mem_cons.mpr hcalls)
    rw [eval, eval, evalItems_congr arguments hcallsItems h]
    simp only [Function.call_congr (Ne.symm hname) vars vars']

theorem evalItems_congr : (items : List Expr) →
    Function.defined.name ∉ functionNamesOfItems items →
    AgreeOn (variableNamesOfItems items) vars vars' → evalItems vars items = evalItems vars' items
  | [], _, _ => rfl
  | e :: rest, hcalls, h => by
    obtain ⟨hcallsFirst, hcallsRest⟩ := not_or.mp (mt List.mem_append.mpr hcalls)
    obtain ⟨hfirst, hrest⟩ := agreeOn_append.mp h
    rw [evalItems, evalItems, eval_congr e hcallsFirst hfirst, evalItems_congr rest hcallsRest hrest]

end

/-- A variable that does not occur can be set without a change of the value. -/
theorem eval_set {e : Expr} {x : String} (h : e.Avoids x) (v : Value) :
    e.eval (vars.set x v) = e.eval vars :=
  eval_congr e h.calls (Variables.agreeOn_set h.names vars v)

end Congruence

end Expr

end ExScript
