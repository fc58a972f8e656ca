import ExScript.Proofs.Script.Blocks
import ExScript.Run.Script

/-!
# Signals stay inside of loops

A `:break` or `:continue` ends its statement with a signal, and nothing keeps a record of the loops
that could take it in: sequences and choices hand it on, and what is left of it at the top of a
script is dropped without a word. The text of a user command runs in the scope of the command that
called it, so a `:break` in there is not even known to be one before it is run.

Still no signal gets to the top. Statements are told their scope, and the two commands fail outside
of all loops. So the invariant is about the scope alone: what ends with a signal stands in a loop.
A loop takes in what its body ends with, and a user command what its text ends with.

Of user commands it is enough to know that they never end with a signal. The statements are gone
through once, for any caller with this property, and the budget comes afterwards; so none of this
depends on how much of it is left.

Statements of the embedding program can give signals as they like. Trees that were read from a text
hold none; in other trees they are asked for what `:break` does by itself.

## How it could be false

If `:break` looked for the loop that it is written in, a user command `B` with the text `break`
would be an error, and it is not where the use of `B` stands in a loop. The scope it is told then is
that of the use, so inside of `B` the `:break` ends with a signal. It is `B` that has to stop it,
and it does, by finishing whatever its text ended with (`absorb`). With a user command that handed
on what its text ended with, the loop would be left from within the text. With a `:break` that gave
a signal anywhere, the signal would get to the top, and there it would be taken for success.

These are the two places where the proof has something to find out; loops take in signals by what
they are made of, and everything else only hands on outcomes.

## Main definitions

* `Run.SignalsOnlyIf` — a run ends with a signal only under a condition
* `Stmt.hooks` — the statements of the embedding program in a tree

## Main results

* `repeatWhile_signals`, `repeatFor_signals`, `expand_signals` — loops and user commands give no
  signal
* `Stmt.exec_signals` — a statement gives a signal only inside of a loop
* `Script.execAll_signals` — no signal gets to the top of a script
-/

namespace ExScript

/-! ### Signals -/

/-- Whether an outcome is meant for the innermost loop. -/
def Outcome.IsSignal : Outcome → Prop
  | leaveLoop => True
  | nextPass => True
  | _ => False

/-- What a loop is left with is no signal. -/
theorem Outcome.not_isSignal_of_exit {o o' : Outcome} (h : o.inLoop = .exit o') :
    ¬o'.IsSignal := by
  cases o <;> cases h <;> exact id

/-- The outcomes that are left are those that a script can have. -/
theorem Outcome.eq_finished_or_failed {o : Outcome} (h : ¬o.IsSignal) :
    o = .finished ∨ ∃ e, o = .failed e := by
  cases o with
  | finished => exact .inl rfl
  | failed e => exact .inr ⟨e, rfl⟩
  | leaveLoop => exact absurd trivial h
  | nextPass => exact absurd trivial h

/-- Whether a run ends with a signal only under a condition. -/
def Run.SignalsOnlyIf (p : Prop) (r : Run) : Prop :=
  ∀ ⦃m m' : Machine⦄ ⦃o : Outcome⦄, r m = (some o, m') → o.IsSignal → p

namespace Run.SignalsOnlyIf

variable {p q : Prop} {r : Run}

/-- A condition may be made weaker. A run that never ends with a signal has the strongest,
`False`. -/
theorem mono (h : r.SignalsOnlyIf p) (hpq : p → q) : r.SignalsOnlyIf q :=
  fun _ _ _ hr ho => hpq (h hr ho)

/-- A run that ends so whatever the machine. -/
theorem ofSession {f : Session → Outcome × Session} (h : ∀ s, (f s).1.IsSignal → p) :
    (Run.ofSession f).SignalsOnlyIf p := by
  intro m m' o hr ho
  cases hr
  exact h m.session ho

/-- The budget is put in around a run and does not change how it ends. -/
theorem withBudget (h : r.SignalsOnlyIf p) (budget : Nat) :
    (Run.withBudget budget r).SignalsOnlyIf p := by
  intro m m' o hr ho
  simp only [Run.withBudget, Prod.mk.injEq] at hr
  exact h (Prod.ext hr.1 rfl) ho

end Run.SignalsOnlyIf

/-! ### Commands

This is where signals come from. -/

theorem Command.not_isSignal_attempt (s : Session) (r : Except Error Session) :
    ¬(Command.attempt s r).1.IsSignal := by
  cases r <;> exact id

theorem Command.not_isSignal_runUnassign (s : Session) (argument : String) :
    ¬(Command.runUnassign s argument).1.IsSignal := by
  rw [runUnassign]
  split
  · exact id
  · split <;> exact id

/-- Only `:break` and `:continue` give signals, and they fail where no loop stands around. -/
theorem Command.withinLoop_of_isSignal {c : Command} {scope : Scope} {s : Session}
    (h : (c.run scope s).1.IsSignal) : scope.withinLoop = true := by
  have loopCommand {o : Outcome} {e : Error}
      (h : (if scope.withinLoop = true then o else .failed e).IsSignal) :
      scope.withinLoop = true := by
    by_contra hscope
    rw [if_neg hscope] at h
    exact h
  cases c with
  | breakLoop => exact loopCommand h
  | continueLoop => exact loopCommand h
  | unassign argument => exact absurd h (not_isSignal_runUnassign s argument)
  | clearCommands => exact h.elim
  | _ => exact absurd h (not_isSignal_attempt s _)

/-! ### Loops

And this is where they go. A loop asks of each outcome of its body whether it goes on, and with what
it ends otherwise (`Outcome.inLoop`); a signal is the answer to neither. No hypothesis on the body
is needed: it may do anything. -/

/-- A `:while` takes in what its body ends with. -/
theorem repeatWhile_signals (test : Session → Except Error Bool × Session) (body : Run) (n : Nat) :
    (repeatWhile test body n).SignalsOnlyIf False := by
  induction n with
  | zero =>
    intro m m' o h ho
    rw [repeatWhile] at h
    split at h <;> cases h <;> exact ho
  | succ n ih =>
    intro m m' o h ho
    rw [repeatWhile] at h
    split at h
    · cases h
      exact ho
    · cases h
      exact ho
    · cases hfuel : m.fuel with
      | zero => simp [hfuel] at h
      | succ fuel =>
        simp only [hfuel] at h
        split at h
        · cases h
        · split at h
          next => exact ih h ho
          next hexit =>
            cases h
            exact Outcome.not_isSignal_of_exit hexit ho

/-- A `:for` takes in what its body ends with. -/
theorem repeatFor_signals (name : String) (body : Run) (values : List Value) :
    (repeatFor name body values).SignalsOnlyIf False := by
  induction values with
  | nil =>
    intro m m' o h ho
    cases h
    exact ho
  | cons v values ih =>
    intro m m' o h ho
    rw [repeatFor] at h
    split at h
    · cases h
    · split at h
      next => exact ih h ho
      next hexit =>
        cases h
        exact Outcome.not_isSignal_of_exit hexit ho

/-! ### Statements of the embedding program

They are the only statements whose outcome is not known. A list of them is enough: where in the tree
they stand is seen to by the scope that they are told. Conditions are left out, because a condition
has a truth value and no outcome of its own. -/

/-- Whether a statement of the embedding program gives signals only inside of loops. -/
def Hook.KeepsSignals (h : Hook Outcome) : Prop :=
  ∀ sight, (h.react sight).2.IsSignal → sight.withinLoop = true

/-- What a hook is told about loops is what the scope says. -/
theorem Hook.KeepsSignals.withinLoop {h : Hook Outcome} (hh : h.KeepsSignals) {scope : Scope}
    {s : Session} (ho : (h.run scope s).1.IsSignal) : scope.withinLoop = true := by
  have result : (h.run scope s).1 = (h.react (sight h.key scope s)).2 := by
    rw [Hook.run]
    rcases h.react (sight h.key scope s) with ⟨_ | text, o⟩ <;> rfl
  rw [result] at ho
  exact hh _ ho

mutual

/-- The statements of the embedding program in a tree. -/
def Stmt.hooks : Stmt → List (Hook Outcome)
  | .simple _ => []
  | .unknown _ _ _ => []
  | .whileLoop _ body => hooksOfAll body
  | .forLoop _ _ body => hooksOfAll body
  | .choose branches otherwise => hooksOfBranches branches ++ hooksOfElse otherwise
  | .block body => hooksOfAll body
  | .hook h => [h]

/-- The statements of the embedding program in a sequence. -/
def Stmt.hooksOfAll : List Stmt → List (Hook Outcome)
  | [] => []
  | x :: xs => x.hooks ++ hooksOfAll xs

/-- The statements of the embedding program in the bodies of some branches. -/
def Stmt.hooksOfBranches : List (Condition × List Stmt) → List (Hook Outcome)
  | [] => []
  | (_, body) :: rest => hooksOfAll body ++ hooksOfBranches rest

/-- The statements of the embedding program behind an `:else`. -/
def Stmt.hooksOfElse : Option (List Stmt) → List (Hook Outcome)
  | none => []
  | some body => hooksOfAll body

end

namespace Script

/-- The statements of the embedding program in a part of a script. -/
def Part.hooks : Part → List (Hook Outcome)
  | block body => Stmt.hooksOfAll body
  | statement s => s.hooks
  | branches rest =>
    Stmt.hooksOfBranches (rest.map fun branch => (.expression branch.1, branch.2))
  | otherwise body => Stmt.hooksOfElse body

/-- The grammar of scripts has no rule for them. -/
theorem Derives.hooks_eq_nil {part : Part} {row : List (List Char)} (h : Derives part row) :
    part.hooks = [] := by
  induction h with
  | nil | noBranch | noElse => rfl
  | cons _ _ ihx ihxs => exact List.append_eq_nil_iff.mpr ⟨ihx, ihxs⟩
  | plain first => cases first <;> rfl
  | whileLoop _ _ _ ih | forLoop _ _ _ ih | elseBody _ _ ih => exact ih
  | choose _ _ _ _ _ ihBody ihRest ihElse =>
    have branches := List.append_eq_nil_iff.mpr ⟨ihBody, ihRest⟩
    exact List.append_eq_nil_iff.mpr ⟨branches, ihElse⟩
  | branch _ _ _ ihBody ihRest => exact List.append_eq_nil_iff.mpr ⟨ihBody, ihRest⟩

/-- What is read from a text holds no statement of the embedding program. -/
theorem hooks_of_parse {text : String} {body : List Stmt} (h : parse text = .ok body) :
    Stmt.hooksOfAll body = [] :=
  (derives_of_ofStatements h).hooks_eq_nil

end Script

/-! ### Statements

The scope changes on the way into a body. Into the body of a loop it does not matter how, since the
loop takes in all signals. Into that of a choice it has to be the same as before as far as loops are
concerned, and this is `Scope.withinLoop_enter_conditional`. -/

/-- Whether a caller never ends with a signal. -/
def Caller.Silent (call : Caller) : Prop :=
  ∀ name argument scope, (call name argument scope).SignalsOnlyIf False

theorem Stmt.whileLoop_signals (call : Caller) (condition : Condition) (body : List Stmt)
    (scope : Scope) : Run.SignalsOnlyIf False ((Stmt.whileLoop condition body).exec call scope) :=
  fun m _ _ h ho => repeatWhile_signals _ _ m.fuel h ho

theorem Stmt.forLoop_signals (call : Caller) (name : String) (items : Expression)
    (body : List Stmt) (scope : Scope) :
    Run.SignalsOnlyIf False ((Stmt.forLoop name items body).exec call scope) := by
  intro m m' o h ho
  rw [Stmt.exec] at h
  split at h
  · cases h
    exact ho
  · exact repeatFor_signals _ _ _ h ho

section Statements

variable {call : Caller}

mutual

/-- **A statement gives a signal only inside of a loop**, if user commands give none. -/
theorem Stmt.exec_signals (hcall : call.Silent) {scope : Scope} :
    (x : Stmt) → (∀ h ∈ x.hooks, h.KeepsSignals) →
      Run.SignalsOnlyIf (scope.withinLoop = true) (x.exec call scope)
  | .simple c, _ => .ofSession (f := fun s => c.run scope s) fun _ =>
    Command.withinLoop_of_isSignal
  | .unknown _ name argument, _ => (hcall name argument scope).mono False.elim
  | .whileLoop condition body, _ =>
    (Stmt.whileLoop_signals call condition body scope).mono False.elim
  | .forLoop name items body, _ => (Stmt.forLoop_signals call name items body scope).mono False.elim
  | .choose branches otherwise, hx => by
    have hbranches : ∀ h ∈ hooksOfBranches branches, h.KeepsSignals := fun h hh =>
      hx h (List.mem_append_left _ hh)
    have helse : ∀ h ∈ hooksOfElse otherwise, h.KeepsSignals := fun h hh =>
      hx h (List.mem_append_right _ hh)
    have otherwiseSignals : Run.SignalsOnlyIf ((scope.enter .conditional).withinLoop = true)
        (Stmt.execOtherwise call otherwise (scope.enter .conditional)) :=
      Stmt.execOtherwise_signals hcall otherwise helse
    rw [Scope.withinLoop_enter_conditional] at otherwiseSignals
    exact Stmt.execFirst_signals hcall branches hbranches otherwiseSignals
  | .block body, hx => Stmt.execAll_signals hcall body hx
  | .hook h, hx => .ofSession (f := fun s => h.run scope s) fun _ =>
    (hx h (List.mem_singleton.mpr rfl)).withinLoop

/-- Statements one after the other end as one of them does. -/
theorem Stmt.execAll_signals (hcall : call.Silent) {scope : Scope} :
    (xs : List Stmt) → (∀ h ∈ Stmt.hooksOfAll xs, h.KeepsSignals) →
      Run.SignalsOnlyIf (scope.withinLoop = true) (Stmt.execAll call xs scope)
  | [], _ => by
    intro m m' o h ho
    cases h
    exact ho.elim
  | x :: xs, hx => by
    intro m m' o h ho
    rw [Stmt.execAll] at h
    split at h
    · exact Stmt.execAll_signals hcall xs (fun h hh => hx h (List.mem_append_right _ hh)) h ho
    · exact Stmt.exec_signals hcall x (fun h hh => hx h (List.mem_append_left _ hh)) h ho

theorem Stmt.execOtherwise_signals (hcall : call.Silent) {scope : Scope} :
    (otherwise : Option (List Stmt)) →
      (∀ h ∈ Stmt.hooksOfElse otherwise, h.KeepsSignals) →
      Run.SignalsOnlyIf (scope.withinLoop = true) (Stmt.execOtherwise call otherwise scope)
  | none, _ => by
    intro m m' o h ho
    cases h
    exact ho.elim
  | some xs, hx => Stmt.execAll_signals hcall xs hx

/-- An `:if` ends as one of its bodies does, or with the failure of a condition. -/
theorem Stmt.execFirst_signals (hcall : call.Silent) {scope : Scope} {other : Run} :
    (branches : List (Condition × List Stmt)) →
      (∀ h ∈ Stmt.hooksOfBranches branches, h.KeepsSignals) →
      other.SignalsOnlyIf (scope.withinLoop = true) →
      Run.SignalsOnlyIf (scope.withinLoop = true) (Stmt.execFirst call branches scope other)
  | [], _, hother => hother
  | (c, xs) :: branches, hx, hother => by
    intro m m' o h ho
    rw [Stmt.execFirst] at h
    split at h
    · cases h
      exact ho.elim
    · have body : Run.SignalsOnlyIf ((scope.enter .conditional).withinLoop = true)
          (Stmt.execAll call xs (scope.enter .conditional)) :=
        Stmt.execAll_signals hcall xs fun h hh => hx h (List.mem_append_left _ hh)
      rw [Scope.withinLoop_enter_conditional] at body
      exact body h ho
    · exact Stmt.execFirst_signals hcall branches
        (fun h hh => hx h (List.mem_append_right _ hh)) hother h ho

end

end Statements

/-! ### User commands

The induction is on the budget, although nothing depends on it: a chain of user commands is the one
case in which a user command ends with what another one ends with. -/

/-- A text that was run is finished, or the budget ran out. -/
theorem not_isSignal_absorb (o : Outcome) (s : Session) : ¬(absorb o s).1.IsSignal := by
  rw [absorb.eq_def]
  split <;> exact id

/-- **A user command never ends with a signal**, whatever its text or its handler does. -/
theorem expand_signals (budget : Nat) : Caller.Silent (expand budget) := by
  induction budget with
  | zero =>
    intro name argument scope m m' o h ho
    rw [expand] at h
    split at h <;> cases h <;> exact ho
  | succ budget ih =>
    intro name argument scope m m' o h ho
    rw [expand] at h
    split at h
    · cases h
      exact ho
    · split at h
      · cases h
        exact ho
      next n _ =>
        have finishes : (n.exec fun x => x.exec (expand budget) .root).SignalsOnlyIf False := by
          intro m m' o h ho
          rw [Native.exec] at h
          split at h
          · cases h
          · cases h
            exact ho
        exact finishes.withBudget budget h ho
      next next argument' _ => exact ih next argument' scope h ho
      next x _ =>
        rw [runBody] at h
        split at h
        · cases h
        next outcome m₁ _ =>
          cases h
          exact not_isSignal_absorb outcome m₁.session ho

/-! ### Scripts -/

/-- **No signal gets to the top of a script**: no loop stands around the top. -/
theorem Script.execAll_signals {text : String} {body : List Stmt} (h : parse text = .ok body)
    (budget : Nat) : (Stmt.execAll (expand budget) body .root).SignalsOnlyIf False := by
  have hooks : ∀ h ∈ Stmt.hooksOfAll body, h.KeepsSignals := by
    rw [hooks_of_parse h]
    exact fun h hh => absurd hh List.not_mem_nil
  have inLoop : Run.SignalsOnlyIf (Scope.root.withinLoop = true)
      (Stmt.execAll (expand budget) body .root) :=
    Stmt.execAll_signals (expand_signals budget) body hooks
  rw [Scope.withinLoop_root] at inLoop
  exact inLoop.mono Bool.false_ne_true

/-- **Signals never escape.** A statement ends with one only in a scope with a loop around, if the
same is true of the statements of the embedding program in it. Loops and user commands never end
with one, whatever is in their bodies and texts. And what a script ends with, before errors are told
apart from everything else, is success or failure: there is no signal to drop. -/
theorem signals_never_escape :
    (∀ (budget : Nat) (x : Stmt) (scope : Scope), (∀ h ∈ x.hooks, h.KeepsSignals) →
      ∀ (m m' : Machine) (o : Outcome), x.exec (expand budget) scope m = (some o, m') →
        o.IsSignal → scope.withinLoop = true) ∧
      (∀ (budget : Nat) (condition : Condition) (body : List Stmt) (scope : Scope)
        (m m' : Machine) (o : Outcome),
        (Stmt.whileLoop condition body).exec (expand budget) scope m = (some o, m') →
          ¬o.IsSignal) ∧
      (∀ (budget : Nat) (name : String) (items : Expression) (body : List Stmt) (scope : Scope)
        (m m' : Machine) (o : Outcome),
        (Stmt.forLoop name items body).exec (expand budget) scope m = (some o, m') →
          ¬o.IsSignal) ∧
      (∀ (budget : Nat) (name argument : String) (scope : Scope) (m m' : Machine) (o : Outcome),
        expand budget name argument scope m = (some o, m') → ¬o.IsSignal) ∧
      ∀ (text : String) (body : List Stmt), Script.parse text = .ok body →
        ∀ (m m' : Machine) (o : Outcome),
          Run.withBudget maxExpansions (Stmt.execAll (expand maxExpansions) body .root) m =
            (some o, m') → o = .finished ∨ ∃ e, o = .failed e := by
  refine ⟨?_, ?_, ?_, ?_, ?_⟩
  · intro budget x scope hx m m' o h ho
    exact Stmt.exec_signals (expand_signals budget) x hx h ho
  · intro budget condition body scope m m' o h ho
    exact Stmt.whileLoop_signals (expand budget) condition body scope h ho
  · intro budget name items body scope m m' o h ho
    exact Stmt.forLoop_signals (expand budget) name items body scope h ho
  · intro budget name argument scope m m' o h ho
    exact expand_signals budget name argument scope h ho
  · intro text body hparse m m' o h
    have silent := (Script.execAll_signals hparse maxExpansions).withBudget maxExpansions
    exact Outcome.eq_finished_or_failed fun ho => silent h ho

/-- A machine in which `B` stands for a `:break`. -/
def breakingCommand : Machine :=
  ⟨2, { commands := Registry.empty.define "B" ⟨0, none⟩ "break" }⟩

/-- The `:break` behind `B` is taken in by `B`, even inside of a loop, and the other one by the
loop. -/
theorem signals_never_escape_breakingCommand :
    (Scope.root.enter .loop).withinLoop = true ∧
      ∃ (body : List Stmt) (o : Outcome), Script.parse "while 1|B|break|endwhile" = .ok body ∧
        (Run.withBudget maxExpansions (Stmt.execAll (expand maxExpansions) body .root)
          breakingCommand).1 = some o ∧ (o = .finished ∨ ∃ e, o = .failed e) := by
  obtain ⟨statements, -, -, -, scripts⟩ := signals_never_escape
  constructor
  · have leaves : (Stmt.simple .breakLoop).exec (expand 0) (Scope.root.enter .loop)
        breakingCommand = (some .leaveLoop, breakingCommand) := rfl
    exact statements 0 _ _ (fun h hh => absurd hh List.not_mem_nil) _ _ _ leaves trivial
  · have readable : (Script.parse "while 1|B|break|endwhile").toOption.isSome := by
      decide +kernel
    have finished : (breakingCommand.runScript "while 1|B|break|endwhile").1 = some (.ok ()) := by
      decide +kernel
    cases hparse : Script.parse "while 1|B|break|endwhile" with
    | error e => simp [hparse, Except.toOption] at readable
    | ok body =>
      rw [Machine.runScript, hparse] at finished
      simp only [Machine.runStatements] at finished
      split at finished
      · cases finished
      next o m' hrun =>
        exact ⟨body, o, rfl, by rw [hrun], scripts _ body hparse _ m' o hrun⟩

end ExScript
