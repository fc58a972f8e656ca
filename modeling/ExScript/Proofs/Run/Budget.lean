import ExScript.Proofs.Run.Trace

/-!
# What looks at the budget

A session holds a copy of the budget of expansions. Hooks can see it and handlers can ask for it;
commands and expressions cannot, and nothing but an expansion changes it. So what a command does in
a session with another copy of the budget is what it does in the session, and where a copy can be
read it is enough to know which one is put in.

## Why it is taken out

The copy is the one part of a session that a run restores behind itself. If the sessions of a run
held it, each rule of `Runs` would have to say which one is there: lowered inside of a text,
restored behind it, out of date along a chain of user commands. The rules say nothing of it. They
carry the budget as an index, let the sessions keep whatever copy they have, and where something
looks, the budget is put in for that moment (`Hook.runWithin`, `Condition.checkWithin`). This module
is what makes that right, for each thing that is done in a session:

* it does the same with any copy, which is then in the result as it was (`_within`);
* or it reads the copy, and then it does what it does with the index put in (`Hook.run_within`).

`Proofs/Run/Adequacy.lean` uses the first where the rules are silent and the second for hooks and
conditions. Only that a session has the right copy where it is read is left open here; this is asked
in `Proofs/Run/Calls.lean`.

## Main results

* `Command.run_within` — commands do not look at the budget
* `Hook.run_within`, `Condition.check_eq` — hooks see the copy that is put in, and leave it there
-/

namespace ExScript

/-! ### Commands

Putting a copy in commutes with a command. Most of them make a new session or an error out of the
old one, so there it is enough that it commutes with making it (`attempt_within`). -/

/-- The session that is left is either the new one or, behind an error, the old one. Both have the
copy. -/
theorem Command.attempt_within {budget : Nat} {s : Session} {r r' : Except Error Session}
    (h : r' = r.map (Session.within budget)) :
    Command.attempt (s.within budget) r' =
      ((Command.attempt s r).1, (Command.attempt s r).2.within budget) := by
  subst h
  cases r <;> rfl

/-- The log is another part of the session. -/
theorem Command.foldl_tell_within (budget : Nat) (rows : List String) (s : Session) :
    rows.foldl (fun s row => s.tell (.report row)) (s.within budget) =
      (rows.foldl (fun s row => s.tell (.report row)) s).within budget := by
  induction rows generalizing s with
  | nil => rfl
  | cons row rows ih => exact ih (s.tell (.report row))

theorem Command.writeBuffer_within (budget : Nat) (s : Session) (argument : String) :
    Command.writeBuffer (s.within budget) argument =
      (Command.writeBuffer s argument).map (Session.within budget) := by
  simp only [writeBuffer, Session.within]
  split <;> rfl

theorem Command.runDefinition_within (budget : Nat) (s : Session) (definition : Definition) :
    Command.runDefinition (s.within budget) definition =
      (Command.runDefinition s definition).map (Session.within budget) := by
  cases definition with
  | list start => exact congrArg Except.ok (foldl_tell_within budget _ s)
  | define replace name arity text =>
    by_cases h : !replace && s.commands.contains name <;>
      simp only [runDefinition, Session.within_commands, h] <;> rfl

theorem Command.runDeleteLines_within (budget : Nat) (s : Session) (range : LineRange) :
    Command.runDeleteLines (s.within budget) range =
      (Command.runDeleteLines s range).map (Session.within budget) := by
  by_cases hb : s.buffer.lineCount = 0
  · simp [runDeleteLines, hb, Except.map]
  · simp only [runDeleteLines, Session.within_buffer, hb, if_false]
    split
    · rfl
    · split <;> rfl

theorem Command.runQuit_within (budget : Nat) (s : Session) (argument : String) :
    Command.runQuit (s.within budget) argument =
      (Command.runQuit s argument).map (Session.within budget) := by
  simp only [runQuit]
  split
  next force _ =>
    by_cases h : s.buffer.modified && !force <;> simp only [Session.within_buffer, h] <;> rfl
  · rfl

/-- A failed `:unlet` leaves a session of its own, without the names in front of the failure, so it
is no attempt in the sense above. -/
theorem Command.runUnassign_within (budget : Nat) (s : Session) (argument : String) :
    Command.runUnassign (s.within budget) argument =
      ((Command.runUnassign s argument).1, (Command.runUnassign s argument).2.within budget) := by
  simp only [runUnassign, Session.within]
  split
  · rfl
  · split <;> rfl

/-- **Commands do not look at the budget.** Signals and failures are the same with any copy, and so
is all that is left in the session. -/
theorem Command.run_within (c : Command) (budget : Nat) (scope : Scope) (s : Session) :
    c.run scope (s.within budget) = ((c.run scope s).1, (c.run scope s).2.within budget) := by
  cases c with
  | echo argument =>
    refine attempt_within ?_
    cases h : echoText s.vars argument <;> simp [h, Except.map]
  | assign argument =>
    refine attempt_within ?_
    cases h : assignIn s.vars argument <;> simp [h, Except.map]; rfl
  | unassign argument => exact runUnassign_within budget s argument
  | write argument => exact attempt_within (writeBuffer_within budget s argument)
  | quit argument => exact attempt_within (runQuit_within budget s argument)
  | writeQuit argument =>
    refine attempt_within ?_
    rw [writeBuffer_within]
    cases writeBuffer s argument <;> rfl
  | exit argument =>
    refine attempt_within ?_
    simp only [Session.within_buffer, writeBuffer_within]
    split
    · cases writeBuffer s argument <;> rfl
    · rfl
  | defineCommand argument =>
    refine attempt_within ?_
    cases Definition.parse argument with
    | error e => rfl
    | ok definition => exact runDefinition_within budget s definition
  | deleteCommand argument =>
    refine attempt_within ?_
    cases h : s.commands.erase (trimmed argument) <;> simp [h, Except.map]; rfl
  | clearCommands => rfl
  | deleteLines range => exact attempt_within (runDeleteLines_within budget s range)
  | breakLoop => rfl
  | continueLoop => rfl

/-- Commands leave the budget alone: it is put in as it is, and comes out so. -/
theorem Command.run_budget (c : Command) (scope : Scope) (s : Session) :
    (c.run scope s).2.budget = s.budget := by
  have h := c.run_within s.budget scope s
  rw [Session.within_self] at h
  rw [h, Session.within_budget]

/-! ### Hooks and conditions

A hook is shown the copy (`Hook.sight`), and what it answers may depend on it in any way. What it
leaves is a session with one more message and one more use counted, so the copy is in there as
before. -/

theorem Session.within_of_eq {b : Nat} {s : Session} (h : s.budget = b) : s.within b = s := by
  subst h
  rfl

theorem Hook.run_budget {α : Type} (h : Hook α) (scope : Scope) (s : Session) :
    (h.run scope s).2.budget = s.budget := by
  simp only [Hook.run]
  split <;> rfl

/-- With a budget put in, a hook does what the rules say it does. -/
theorem Hook.run_within {α : Type} (b : Nat) (h : Hook α) (scope : Scope) (s : Session) :
    h.run scope (s.within b) = ((h.runWithin b scope s).1, (h.runWithin b scope s).2.within b) := by
  have hb : (h.run scope (s.within b)).2.budget = b := h.run_budget scope (s.within b)
  exact Prod.ext rfl (Session.within_of_eq hb).symm

/-- The other way round: if the session has the right copy, what the hook does by the rules is what
it does, and in this form it does not matter any more which copy there is. -/
theorem Hook.runWithin_within {α : Type} {b : Nat} {s : Session} (hs : s.budget = b)
    (h : Hook α) (k : Nat) (scope : Scope) :
    h.runWithin b scope (s.within k) = ((h.run scope s).1, (h.run scope s).2.within k) := by
  subst hs
  rfl

theorem Condition.check_budget (c : Condition) (scope : Scope) (s : Session) :
    (c.check scope s).2.budget = s.budget := by
  cases c with
  | expression e => rfl
  | hook h => exact h.run_budget scope s

variable {b : Nat} {c : Condition} {scope : Scope} {s s' : Session} {r : Except Error Bool}

/-- A condition leaves the budget in the session as it was, and its hook reads that one. -/
theorem Condition.check_eq (h : c.check scope s = (r, s')) (hs : s.budget = b) :
    s'.budget = b ∧ ∀ k, c.checkWithin b scope (s.within k) = (r, s'.within k) := by
  subst hs
  have hb := c.check_budget scope s
  rw [h] at hb
  refine ⟨hb, fun k => ?_⟩
  simp only [Condition.checkWithin, Session.within_within, Session.within_self, h,
    Session.within_budget]

/-- From the rules back to the functions, which find the budget in the session. -/
theorem Condition.check_of_checkWithin (h : c.checkWithin b scope s = (r, s')) :
    c.check scope (s.within b) = (r, s'.within b) := by
  have hb : (c.check scope (s.within b)).2.budget = b := c.check_budget scope (s.within b)
  cases h
  exact Prod.ext rfl (Session.within_of_eq hb).symm

/-- By the rules, the copy that was there is put back. -/
theorem Condition.budget_of_checkWithin (h : c.checkWithin b scope s = (r, s')) :
    s'.budget = s.budget := by
  cases h
  rfl

/-! ### What the body of a user command comes to

Taking in an error adds to the log, no matter which copy of the budget there is. -/

theorem absorb_budget (o : Outcome) (s : Session) : (absorb o s).2.budget = s.budget := by
  simp only [absorb]
  split <;> rfl

theorem absorb_within (o : Outcome) (budget : Nat) (s : Session) :
    absorb o (s.within budget) = ((absorb o s).1, (absorb o s).2.within budget) := by
  simp only [absorb]
  split <;> rfl

end ExScript
