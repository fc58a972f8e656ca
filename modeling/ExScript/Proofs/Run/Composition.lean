import ExScript.Proofs.Run.Adequacy
import ExScript.Proofs.Run.Signals
import ExScript.Proofs.Script.Seam

/-!
# Scripts compose

Two scripts with a line break between them are one script, and running it is running the first and,
if that succeeds, the second in the machine that the first has left. Nothing that a script leaves
behind tells where it ended: the budget of expansions is what it was before, and there is no signal
to drop, so a script that succeeds is one in which every statement has finished.

The equation holds of the machines as they are. If the fuel is used up in the first script or in the
second then it is used up in both of them together, at the same place.

## Main results

* `Stmt.execAll_append` — statements one behind the other
* `Run.withBudget_andThen` — a budget that is put in for both
* `runScript_append` — scripts one behind the other
-/

namespace ExScript

/-! ### Statements -/

theorem Stmt.execAll_append (call : Caller) (xs ys : List Stmt) (scope : Scope) (m : Machine) :
    Stmt.execAll call (xs ++ ys) scope m =
      Run.andThen (Stmt.execAll call xs scope) (Stmt.execAll call ys scope) m := by
  induction xs generalizing m with
  | nil => rfl
  | cons x xs ih =>
    rw [List.cons_append, Stmt.execAll, Run.andThen, Stmt.execAll]
    rcases x.exec call scope m with ⟨_ | o, m₁⟩
    · rfl
    · cases o with
      | finished => exact ih m₁
      | _ => rfl

/-! ### Budgets -/

/-- A budget can be put in for each of two runs if the first one leaves it there. -/
theorem Run.withBudget_andThen {budget : Nat} {first next : Run}
    (h : ∀ {m m' o}, m.session.budget = budget → first m = (some o, m') →
      m'.session.budget = budget) (m : Machine) :
    Run.withBudget budget (first.andThen next) m =
      (Run.withBudget budget first).andThen (Run.withBudget budget next) m := by
  simp only [Run.withBudget, Run.andThen]
  rcases hfirst : first ⟨m.fuel, { m.session with budget }⟩ with ⟨_ | o, m₁⟩
  · rfl
  · cases o with
    | finished =>
      have left := h (m := ⟨m.fuel, { m.session with budget }⟩) rfl hfirst
      subst left
      rfl
    | _ => rfl

/-! ### Scripts -/

variable {a b : String} {xs ys : List Stmt}

theorem Script.withBudget_execAll_append (xs ys : List Stmt) (m : Machine) :
    Run.withBudget maxExpansions (Stmt.execAll (expand maxExpansions) (xs ++ ys) .root) m =
      Run.andThen (Run.withBudget maxExpansions (Stmt.execAll (expand maxExpansions) xs .root))
        (Run.withBudget maxExpansions (Stmt.execAll (expand maxExpansions) ys .root)) m := by
  have split : (Stmt.execAll (expand maxExpansions) (xs ++ ys) .root : Run) =
      Run.andThen (Stmt.execAll (expand maxExpansions) xs .root)
        (Stmt.execAll (expand maxExpansions) ys .root) :=
    funext (Stmt.execAll_append _ xs ys .root)
  rw [split]
  refine Run.withBudget_andThen (fun {m m' o} hm hrun => ?_) m
  have described : Described maxExpansions 0 .root (.body xs) m o m' :=
    Stmt.described_execAll (described_expand maxExpansions) xs hm hrun
  exact described.budget.trans hm

/-- **Scripts compose.** Let two scripts be readable, and let the first line of the second be none
that goes on the line before. With a line break between them they are read as the statements of the
first and those of the second. So this script runs as the first script does and, if that succeeds,
as the second one behind it; if the first fails the second is not run. -/
theorem runScript_append (ha : Script.parse a = .ok xs) (hb : Script.parse b = .ok ys)
    (hseam : ∀ line ∈ (Text.lines b.toList).head?, Script.continuesLine line = false) :
    Script.parse (a ++ "\n" ++ b) = .ok (xs ++ ys) ∧
      ∀ m : Machine, m.runScript (a ++ "\n" ++ b) =
        match m.runScript a with
        | (some (.ok ()), m₁) => m₁.runScript b
        | r => r := by
  have hab := Script.parse_append ha hb hseam
  refine ⟨hab, fun m => ?_⟩
  have silent := (Script.execAll_signals ha maxExpansions).withBudget maxExpansions
  simp only [Machine.runScript, ha, hb, hab, Machine.runStatements,
    Script.withBudget_execAll_append, Run.andThen]
  rcases hrun : Run.withBudget maxExpansions (Stmt.execAll (expand maxExpansions) xs .root) m with
    ⟨_ | o, m₁⟩
  · rfl
  · cases o with
    | finished => rfl
    | failed e => rfl
    | leaveLoop => exact (silent hrun trivial).elim
    | nextPass => exact (silent hrun trivial).elim

/-- The carriage return in front of the line break is no part of the `:let`. -/
theorem runScript_append_carriageReturn :
    ∃ xs ys, Script.parse "let x = 1\r" = .ok xs ∧ Script.parse "echo x" = .ok ys ∧
      Script.parse "let x = 1\r\necho x" = .ok (xs ++ ys) ∧
      Machine.runScript ⟨0, {}⟩ "let x = 1\r\necho x" =
        (Machine.runScript ⟨0, {}⟩ "let x = 1\r").2.runScript "echo x" := by
  have readable : (Script.parse "let x = 1\r").toOption.isSome ∧
      (Script.parse "echo x").toOption.isSome := by
    decide +kernel
  have succeeds : (Machine.runScript ⟨0, {}⟩ "let x = 1\r").1 = some (.ok ()) := by
    decide +kernel
  have hseam : ∀ line ∈ (Text.lines "echo x".toList).head?, Script.continuesLine line = false := by
    decide +kernel
  obtain ⟨ha, hb⟩ := readable
  cases hparse : Script.parse "let x = 1\r" with
  | error e => simp [hparse, Except.toOption] at ha
  | ok xs =>
    cases hparse' : Script.parse "echo x" with
    | error e => simp [hparse', Except.toOption] at hb
    | ok ys =>
      obtain ⟨parsed, composed⟩ := runScript_append hparse hparse' hseam
      have run := composed ⟨0, {}⟩
      rcases hrun : Machine.runScript ⟨0, {}⟩ "let x = 1\r" with ⟨r, m₁⟩
      rw [hrun] at run succeeds
      obtain rfl : r = some (.ok ()) := succeeds
      exact ⟨xs, ys, rfl, rfl, parsed, run⟩

end ExScript
