import ExScript.Proofs.Run.Assignment
import ExScript.Run.Script

/-!
# Updates of variables

With one of the signs `+=`, `-=`, `.=` and `..=` a `:let` puts the old value of the variable and the
value of an expression together by an operator. The same can be written with a plain `=`, and with
the name of the variable, the operator and the expression in parentheses behind it. The one is done
with two values, the other is a longer text, which is cut into tokens and read as a whole.

That the two come to the same is because of the parentheses. What is between them keeps its tokens,
if no quote is open at its end, and its tree is put under a new one as it is.

So the expression can be any: `n -= 1 - k` is `n = n - (1 - k)`, and without the parentheses it
would be something else. A quote that is open at its end has to be excluded, since the parenthesis
would be a part of the text. And the variable has to have a value, which both ways begin with.

The signs are an enumeration, with a function for each thing in which they differ, and what is
proved is proved for all of them at once.

## Main definitions

* `Update` — the signs that update a variable
* `Update.brief`, `Update.full` — the two ways to write an update

## Main results

* `Update.parse_sum` — the operator between a variable and an expression in parentheses
* `Update.run_brief_eq_full` — the two ways to write an update come to the same
-/

namespace ExScript

open ExScript.Expr (Derivation tokensOf)
open ExScript.Script (openQuote kept IsFront IsSource)

/-- The signs with which a `:let` updates a variable. -/
inductive Update where
  | plus
  | minus
  | dot
  | dots
  deriving DecidableEq, Repr

namespace Update

/-- The sign of `:let`. -/
def sign : Update → String
  | plus => "+="
  | minus => "-="
  | dot => ".="
  | dots => "..="

/-- How the variable is changed. -/
def op : Update → Command.AssignOp
  | plus => .add
  | minus => .sub
  | dot => .concat
  | dots => .concat

/-- The operator between the old value and the one of the expression. -/
def operator : Update → BinaryOp
  | plus => .add
  | minus => .sub
  | dot => .concat
  | dots => .concat

/-- How the operator is written in an expression. -/
def symbol : Update → String
  | plus => "+"
  | minus => "-"
  | dot => "."
  | dots => "."

/-- An argument of `:let` with the sign of an update. -/
def brief (u : Update) (x e : String) : String :=
  x ++ " " ++ u.sign ++ " " ++ e

/-- The operator between a variable and an expression in parentheses. -/
def sum (u : Update) (x e : String) : String :=
  x ++ " " ++ u.symbol ++ " (" ++ e ++ ")"

/-- An argument of `:let` with a plain `=` for an update. -/
def full (u : Update) (x e : String) : String :=
  x ++ " = " ++ u.sum x e

example : dots.brief "n" "1 - k" = "n ..= 1 - k" ∧ dots.full "n" "1 - k" = "n = n . (1 - k)" := by
  decide

variable {x e : String} {body : Expression}

/-! ### Expressions

The longer text is scanned from left to right: the name, the symbol and the parenthesis, the
expression with the other parenthesis behind it. The tree with these tokens is written down, and
that it is the one that is read is known (`Expression.parse_of_derivation`). -/

theorem toList_sum (u : Update) (x e : String) :
    (u.sum x e).toList =
      x.toList ++ ' ' :: (u.symbol.toList ++ ' ' :: '(' :: (e.toList ++ [')'])) := by
  simp [sum]

theorem scansTo_name (hx : Variables.isLegalName x.toList = true) (text : List Char) :
    Lexeme.ScansTo (x.toList ++ ' ' :: text) [.name x] (' ' :: text) := by
  have space : Lexeme.EndsToken ' ' := by decide
  have closed := Lexeme.openQuote_of_plain (Script.isPlain_of_isLegalName hx)
  have scanned := Lexeme.scansTo_append space closed text
  rwa [Lexeme.scan_legalName hx] at scanned

theorem scansTo_symbol (u : Update) (text : List Char) :
    Lexeme.ScansTo (u.symbol.toList ++ ' ' :: text) [u.operator.token] (' ' :: text) := by
  cases u <;> exact Lexeme.scansTo_symbol rfl rfl

/-- The operator of an update is one of sums. -/
theorem level_operator (u : Update) : u.operator.level = .chain .sum := by
  cases u <;> rfl

/-- The tree of a variable, an operator of sums and an expression in parentheses. -/
def tree (u : Update) (x : String) (d : Derivation (.level (.chain .or))) :
    Derivation (.level (.chain .or)) :=
  .chain (k := .or) (.chain (k := .and) (.alone (.chain (k := .sum)
    (.chain (k := .term) (.bare (.name x)) .stop)
    (.more u.operator u.level_operator (.chain (k := .term) (.bare (.paren d)) .stop) .stop)))
    .stop) .stop

theorem tokens_tree (u : Update) (x : String) (d : Derivation (.level (.chain .or))) :
    (u.tree x d).tokens =
      .name x :: u.operator.token :: .leftParen :: (d.tokens ++ [.rightParen]) := by
  simp [tree, Derivation.tokens]

theorem ast_tree (u : Update) (x : String) (d : Derivation (.level (.chain .or))) :
    (u.tree x d).ast = .binary u.operator (.var x) d.ast := rfl

/-- **The operator between a variable and an expression in parentheses** is read as such. -/
theorem parse_sum (u : Update) (hx : Variables.isLegalName x.toList = true)
    (hparse : Expression.parse e = .ok body) (hclosed : openQuote none e.toList = none) :
    ∃ whole, Expression.parse (u.sum x e) = .ok whole ∧
      whole.body = .binary u.operator (.var x) body.body := by
  obtain ⟨d, htokens, rfl⟩ := Expression.exists_derivation hparse
  have space {text : List Char} : Lexeme.ScansTo (' ' :: text) [] text := .separator rfl
  have opened {text : List Char} : Lexeme.ScansTo ('(' :: text) [.leftParen] text :=
    Lexeme.scansTo_symbol rfl rfl
  have closed : Lexeme.ScansTo [')'] [.rightParen] [] := Lexeme.scansTo_symbol rfl rfl
  -- no quote is open where the parenthesis closes, so it is not taken into the last token
  have inner : Lexeme.ScansTo (e.toList ++ [')']) d.tokens [')'] := by
    rw [htokens]
    exact Lexeme.scansTo_append (by decide) hclosed []
  have scanned := (scansTo_name hx _).trans (space.trans ((scansTo_symbol u _).trans
    (space.trans (opened.trans (inner.trans closed)))))
  rw [← toList_sum] at scanned
  have tokens : (u.tree x d).tokens = tokensOf (Lexeme.scan (u.sum x e).toList) := by
    rw [scanned.tokensOf_scan, tokens_tree]
    simp
  exact ⟨_, Expression.parse_of_derivation (u.tree x d) tokens, u.ast_tree x d⟩

theorem eval_sum (u : Update) {vars : Variables} {old : Value} (hold : vars.get? x = some old)
    (e : Expr) : (Expr.binary u.operator (.var x) e).eval vars =
      match e.eval vars with
      | .error err => .error err
      | .ok v => u.operator.apply old v := by
  cases u <;> simp only [Expr.eval, hold, operator] <;> rfl

/-! ### Arguments

Both are arguments of `:let` with the same variable, one with the sign of the update and one with a
plain `=`. -/

theorem assigns_brief (u : Update) (hx : Variables.isLegalName x.toList = true)
    (hparse : Expression.parse e = .ok body) (hclosed : openQuote none e.toList = none) :
    Command.Assigns (u.brief x e) x u.op body := by
  refine Command.assigns_written u.sign.toList hx ?_ (Expression.parse_trimEnd hparse hclosed) ?_
  · cases u <;> exact fun _ => rfl
  · simp [brief]

/-- Nothing is blank behind the parentheses. -/
theorem kept_sum (u : Update) (x e : String) : kept (u.sum x e) = u.sum x e := by
  have ends (before : List Char) : Text.trimEnd (before ++ [')']) = before ++ [')'] :=
    Text.trimEnd_append_of_ne_nil (by decide) before
  rw [← String.toList_inj, Script.toList_kept, sum, String.toList_append]
  exact ends _

theorem assigns_full (u : Update) (hx : Variables.isLegalName x.toList = true)
    (hparse : Expression.parse e = .ok body) (hclosed : openQuote none e.toList = none) :
    ∃ whole, Command.Assigns (u.full x e) x .set whole ∧
      whole.body = .binary u.operator (.var x) body.body := by
  obtain ⟨whole, hwhole, hbody⟩ := u.parse_sum hx hparse hclosed
  rw [← u.kept_sum] at hwhole
  exact ⟨whole, Command.assigns_written ['='] hx (fun _ => rfl) hwhole (by simp [full]), hbody⟩

/-- An update puts the old value and the one of the expression together by the operator. -/
theorem newValue_eq (u : Update) {vars : Variables} {old : Value} (hold : vars.get? x = some old)
    (v : Value) : u.op.newValue vars x v = u.operator.apply old v := by
  cases u <;> simp only [op, operator, Command.AssignOp.newValue, BinaryOp.apply, hold]

/-! ### Runs -/

/-- The two ways to write an update are the same command. -/
theorem run_assign_brief (u : Update) (hx : Variables.isLegalName x.toList = true)
    (hparse : Expression.parse e = .ok body) (hclosed : openQuote none e.toList = none)
    {s : Session} {old : Value} (hold : s.vars.get? x = some old) (scope : Scope) :
    (Command.assign (u.brief x e)).run scope s = (Command.assign (u.full x e)).run scope s := by
  obtain ⟨whole, hfull, hbody⟩ := u.assigns_full hx hparse hclosed
  have brief := (u.assigns_brief hx hparse hclosed).assignIn_eq s.vars
  have full := hfull.assignIn_eq s.vars
  rw [Expression.eval, hbody, u.eval_sum hold] at full
  have same : Command.assignIn s.vars (u.brief x e) = Command.assignIn s.vars (u.full x e) := by
    rw [brief, full, Expression.eval]
    -- the variable has a value, so only the expression can fail in front of the operator
    cases body.body.eval s.vars with
    | error err => rfl
    | ok v =>
      dsimp only
      rw [u.newValue_eq hold]
      cases u.operator.apply old v <;> rfl
  rw [Command.run, Command.run, same]

/-! ### Lines

At the end of a line the blanks behind an expression get lost, so each of the two scripts has an
argument that is as good as the one that was written. -/

theorem parse_let_brief (u : Update) (hx : Variables.isLegalName x.toList = true)
    (hsource : IsSource e body) :
    Script.parse ("let " ++ u.brief x e) = .ok [.simple (.assign (kept (u.brief x e)))] := by
  have hfront : IsFront (x.toList ++ (" " ++ u.sign ++ " ").toList) := by
    cases u <;> exact .of_isLegalName hx _ (by decide) (by decide)
  exact Script.parse_let hfront hsource (by simp [brief]) (by simp)

theorem parse_let_full (u : Update) (hx : Variables.isLegalName x.toList = true)
    (hsource : IsSource e body) (hclosed : openQuote none e.toList = none) :
    Script.parse ("let " ++ u.full x e) = .ok [.simple (.assign (kept (u.full x e)))] := by
  obtain ⟨whole, hwhole, -⟩ := u.parse_sum hx hsource.parse hclosed
  have name : '\n' ∉ x.toList := fun hc =>
    absurd (Variables.not_blank_of_isLegalName hx _ hc) (by decide)
  have symbol : '\n' ∉ u.symbol.toList := by cases u <;> decide
  have single : '\n' ∉ (u.sum x e).toList := by
    simp [toList_sum, name, symbol, hsource.single]
  have sum : IsSource (u.sum x e) whole := ⟨single, hwhole, by rwa [u.kept_sum]⟩
  have hfront := IsFront.of_isLegalName hx " = ".toList (by decide) (by decide)
  exact Script.parse_let hfront sum (by simp [full]) (by simp)

end Update

/-- Scripts that are one command each do the same if the commands do, whatever budget is put in. -/
theorem Machine.runScript_congr {text text' : String} {c c' : Command} {s : Session}
    (hparse : Script.parse text = .ok [.simple c]) (hparse' : Script.parse text' = .ok [.simple c'])
    (hrun : ∀ budget, c.run .root { s with budget } = c'.run .root { s with budget }) (fuel : Nat) :
    runScript ⟨fuel, s⟩ text = runScript ⟨fuel, s⟩ text' := by
  rw [runScript, runScript, hparse, hparse']
  simp only [runStatements, Run.withBudget, Stmt.execAll, Stmt.exec, Run.ofSession, hrun]

/-- **The two ways to write an update come to the same.** Let a name be legal and the variable have
a value, and let a text be an expression in which no quote is left open. To update the variable with
the text behind the sign has the same outcome, be it success or an error, and leaves the same
session as to assign to it, with a plain `=`, the variable, the operator and the text in
parentheses. And so it is with the two scripts that are a `:let` in one line. -/
theorem Update.run_brief_eq_full (u : Update) {x e : String} {body : Expression} {s : Session}
    {old : Value} (hx : Variables.isLegalName x.toList = true) (hold : s.vars.get? x = some old)
    (hparse : Expression.parse e = .ok body) (hclosed : openQuote none e.toList = none) :
    (∀ scope, (Command.assign (u.brief x e)).run scope s =
      (Command.assign (u.full x e)).run scope s) ∧
    ('\n' ∉ e.toList → ∀ fuel, Machine.runScript ⟨fuel, s⟩ ("let " ++ u.brief x e) =
      Machine.runScript ⟨fuel, s⟩ ("let " ++ u.full x e)) := by
  refine ⟨u.run_assign_brief hx hparse hclosed hold, fun hsingle fuel => ?_⟩
  have source : IsSource e body := ⟨hsingle, hparse, Expression.parse_trimEnd hparse hclosed⟩
  have brief := u.parse_let_brief hx source
  have full := u.parse_let_full hx source hclosed
  refine Machine.runScript_congr brief full (fun budget => ?_) fuel
  have there : ({ s with budget } : Session).vars.get? x = some old := hold
  rw [Command.run_assign_kept, Command.run_assign_kept]
  exact u.run_assign_brief hx hparse hclosed there .root

/-- An update with an expression in which a parenthesis is quoted and that names the variable. -/
theorem Update.run_brief_eq_full_quotedParen :
    ∃ (s s' : Session) (old new : Value), s.vars.get? "n" = some old ∧
      (Command.assign (Update.dots.brief "g:n" "')' . n ")).run .root s = (.finished, s') ∧
      (Command.assign (Update.dots.full "g:n" "')' . n ")).run .root s = (.finished, s') ∧
      s'.vars.get? "n" = some new ∧
      Machine.runScript ⟨0, s⟩ ("let " ++ Update.dots.brief "g:n" "')' . n ") =
        Machine.runScript ⟨0, s⟩ ("let " ++ Update.dots.full "g:n" "')' . n ") := by
  let s : Session := { vars := Variables.empty.set "n" (.text "a") }
  have hparse : Expression.parse "')' . n " =
      .ok ⟨"')' . n", .binary .concat (.text ")") (.var "n")⟩ :=
    rfl
  obtain ⟨commands, scripts⟩ :=
    Update.dots.run_brief_eq_full (x := "g:n") (s := s) (by decide) rfl hparse (by decide)
  have hrun : (Command.assign (Update.dots.brief "g:n" "')' . n ")).run .root s =
      (.finished, { s with vars := s.vars.set "g:n" (.text "a)a") }) :=
    rfl
  exact ⟨s, _, .text "a", .text "a)a", rfl, hrun, commands .root ▸ hrun, rfl,
    scripts (by decide) 0⟩

end ExScript
