import ExScript.Proofs.Run.Scripted
import ExScript.Proofs.Run.Signals

/-!
# What a statement sees of its surroundings

Statements are told what was opened around them, from the innermost to the script. Of all that they
look at one thing: whether some loop is among it. So a statement does the same in any two scopes
that agree on this, however deep they are and whatever else they consist of.

Two runs of one statement in two scopes are compared as functions. What is opened on the way is
opened in both, and so are the scopes in which the texts of user commands are run, since these are
the scopes of their callers. So the scopes are never equal again once they differ, but they go on to
agree on loops (`Scope.withinLoop_enter_congr`). A handler is not told where it is called.

A choice can therefore be taken apart: all branches but the first can be put into a choice of their
own behind an `:else`, although they stand deeper there.

Statements of the embedding program are asked for the same; they can see the depth of their scope.
A tree without such statements meets this in any case.

## Main definitions

* `Hook.IgnoresDepth` — a hook looks no further than for a loop
* `Caller.SeesOnlyLoops` — user commands look no further than for a loop

## Main results

* `Stmt.exec_congr` — a statement does the same in scopes that agree on loops
* `expand_seesOnlyLoops` — so does a user command
* `exec_sees_only_loops` — both together, and choices taken apart
-/

namespace ExScript

/-! ### Scopes -/

/-- A loop stands around what is opened, or around where it is opened. -/
theorem Scope.withinLoop_enter (scope : Scope) (kind : ScopeKind) :
    (scope.enter kind).withinLoop = (kind == .loop || scope.withinLoop) := by
  cases kind <;> simp [withinLoop, enter, chain]

/-- Scopes that agree on whether a loop stands around do so inside of anything that is opened in
both of them. -/
theorem Scope.withinLoop_enter_congr {scope scope' : Scope}
    (h : scope.withinLoop = scope'.withinLoop) (kind : ScopeKind) :
    (scope.enter kind).withinLoop = (scope'.enter kind).withinLoop := by
  rw [withinLoop_enter, withinLoop_enter, h]

variable {call : Caller} {scope scope' : Scope}

/-! ### Hooks, conditions and commands -/

/-- Whether what a hook does is the same at any depth. -/
def Hook.IgnoresDepth {α : Type} (h : Hook α) : Prop :=
  ∀ (sight : Sight) (depth : Nat), h.react { sight with depth } = h.react sight

theorem Hook.IgnoresDepth.run_congr {α : Type} {h : Hook α} (hh : h.IgnoresDepth)
    (hscope : scope.withinLoop = scope'.withinLoop) (s : Session) :
    h.run scope s = h.run scope' s := by
  have same : h.react (Hook.sight h.key scope s) = h.react (Hook.sight h.key scope' s) := by
    have sights : Hook.sight h.key scope s =
        { Hook.sight h.key scope' s with depth := scope.depth } := by
      rw [Hook.sight, Hook.sight, hscope]
    rw [sights]
    exact hh _ _
  rw [Hook.run, Hook.run, same]

theorem Condition.check_congr {c : Condition} (hc : c.AllHooks Hook.IgnoresDepth)
    (hscope : scope.withinLoop = scope'.withinLoop) : c.check scope = c.check scope' := by
  funext s
  cases c with
  | expression e => rfl
  | hook h =>
    have hh : h.IgnoresDepth := hc
    exact hh.run_congr hscope s

theorem Command.run_congr (c : Command) (hscope : scope.withinLoop = scope'.withinLoop)
    (s : Session) : c.run scope s = c.run scope' s := by
  cases c with
  | breakLoop | continueLoop => rw [run, run, hscope]
  | _ => rfl

/-! ### Statements -/

/-- Whether user commands do the same in scopes that agree on whether a loop stands around. -/
def Caller.SeesOnlyLoops (call : Caller) : Prop :=
  ∀ (name argument : String) ⦃scope scope' : Scope⦄, scope.withinLoop = scope'.withinLoop →
    call name argument scope = call name argument scope'

mutual

/-- **A statement does the same in scopes that agree on loops**, if the user commands that it uses
do. -/
theorem Stmt.exec_congr (hcall : call.SeesOnlyLoops) {scope scope' : Scope}
    (hscope : scope.withinLoop = scope'.withinLoop) :
    (x : Stmt) → x.AllHooks Hook.IgnoresDepth → x.exec call scope = x.exec call scope'
  | .simple c, _ => by
    funext m
    rw [Stmt.exec, Stmt.exec, Run.ofSession, Run.ofSession, c.run_congr hscope]
  | .hook h, hx => by
    have hh : h.IgnoresDepth := hx
    funext m
    rw [Stmt.exec, Stmt.exec, Run.ofSession, Run.ofSession, hh.run_congr hscope]
  | .unknown range name argument, _ => by
    funext m
    rw [Stmt.exec, Stmt.exec, hcall name argument hscope]
  | .block xs, hx => by
    funext m
    rw [Stmt.exec, Stmt.exec, Stmt.execAll_congr hcall hscope xs hx]
  | .whileLoop c xs, hx => by
    funext m
    rw [Stmt.exec, Stmt.exec, Condition.check_congr hx.1 hscope,
      Stmt.execAll_congr hcall (Scope.withinLoop_enter_congr hscope .loop) xs hx.2]
  | .forLoop name e xs, hx => by
    funext m
    rw [Stmt.exec, Stmt.exec,
      Stmt.execAll_congr hcall (Scope.withinLoop_enter_congr hscope .loop) xs hx]
  | .choose branches otherwise, hx => by
    have inside := Scope.withinLoop_enter_congr hscope .conditional
    funext m
    rw [Stmt.exec, Stmt.exec, Stmt.execOtherwise_congr hcall inside otherwise hx.2,
      Stmt.execFirst_congr hcall hscope branches hx.1]

theorem Stmt.execAll_congr (hcall : call.SeesOnlyLoops) {scope scope' : Scope}
    (hscope : scope.withinLoop = scope'.withinLoop) :
    (xs : List Stmt) → Stmt.AllHooksOfAll Hook.IgnoresDepth xs →
      Stmt.execAll call xs scope = Stmt.execAll call xs scope'
  | [], _ => by
    funext m
    rw [Stmt.execAll, Stmt.execAll]
  | x :: xs, hx => by
    funext m
    rw [Stmt.execAll, Stmt.execAll, Stmt.exec_congr hcall hscope x hx.1,
      Stmt.execAll_congr hcall hscope xs hx.2]

theorem Stmt.execOtherwise_congr (hcall : call.SeesOnlyLoops) {scope scope' : Scope}
    (hscope : scope.withinLoop = scope'.withinLoop) :
    (otherwise : Option (List Stmt)) → Stmt.AllHooksOfElse Hook.IgnoresDepth otherwise →
      Stmt.execOtherwise call otherwise scope = Stmt.execOtherwise call otherwise scope'
  | none, _ => by
    funext m
    rw [Stmt.execOtherwise, Stmt.execOtherwise]
  | some xs, hx => by
    funext m
    rw [Stmt.execOtherwise, Stmt.execOtherwise, Stmt.execAll_congr hcall hscope xs hx]

theorem Stmt.execFirst_congr (hcall : call.SeesOnlyLoops) {scope scope' : Scope}
    (hscope : scope.withinLoop = scope'.withinLoop) {other : Run} :
    (branches : List (Condition × List Stmt)) →
      Stmt.AllHooksOfBranches Hook.IgnoresDepth branches →
      Stmt.execFirst call branches scope other = Stmt.execFirst call branches scope' other
  | [], _ => by
    funext m
    rw [Stmt.execFirst, Stmt.execFirst]
  | (c, xs) :: branches, hx => by
    have inside := Scope.withinLoop_enter_congr hscope .conditional
    funext m
    rw [Stmt.execFirst, Stmt.execFirst, Condition.check_congr hx.1 hscope,
      Stmt.execAll_congr hcall inside xs hx.2.1, Stmt.execFirst_congr hcall hscope branches hx.2.2]

end

/-! ### User commands -/

/-- **A user command does the same in scopes that agree on loops**: its text was read, so it holds
no hooks, and is run in the scope of the caller. -/
theorem expand_seesOnlyLoops (budget : Nat) : (expand budget).SeesOnlyLoops := by
  induction budget with
  | zero =>
    intro name argument scope scope' _
    funext m
    rw [expand, expand]
  | succ budget ih =>
    intro name argument scope scope' hscope
    funext m
    rw [expand, expand]
    split
    · rfl
    · cases he : m.session.commands.expansion name argument with
      | error e => rfl
      | ok expansion =>
        cases expansion with
        | handler n => rfl
        | command next argument' => exact congrFun (ih next argument' hscope) m
        | body x =>
          obtain ⟨text, hparse⟩ := Registry.parseCommand?_of_expansion he
          have hx : x.AllHooks Hook.IgnoresDepth := Script.allHooks_of_parseCommand? _ hparse
          exact congrArg (fun body => runBody budget body m) (Stmt.exec_congr ih hscope x hx)

/-! ### Choices -/

theorem Stmt.execAll_singleton (call : Caller) (x : Stmt) (scope : Scope) (m : Machine) :
    Stmt.execAll call [x] scope m = x.exec call scope m := by
  rw [Stmt.execAll]
  rcases x.exec call scope m with ⟨_ | o, m'⟩
  · rfl
  · cases o <;> rfl

/-- The branches behind the first one, and what stands behind `:else`, are a choice of their own. -/
theorem Stmt.exec_choose_cons (hcall : call.SeesOnlyLoops) {c : Condition} {xs : List Stmt}
    {branches : List (Condition × List Stmt)} {otherwise : Option (List Stmt)}
    (hx : (Stmt.choose ((c, xs) :: branches) otherwise).AllHooks Hook.IgnoresDepth)
    (scope : Scope) (m : Machine) :
    (Stmt.choose ((c, xs) :: branches) otherwise).exec call scope m =
      (Stmt.choose [(c, xs)] (some [.choose branches otherwise])).exec call scope m := by
  have rest : (Stmt.choose branches otherwise).AllHooks Hook.IgnoresDepth := ⟨hx.1.2.2, hx.2⟩
  rw [Stmt.exec, Stmt.exec, Stmt.execFirst, Stmt.execFirst]
  split
  · rfl
  · rfl
  next s _ =>
    -- No condition held so far: what is left is run here, or one scope deeper.
    let m' : Machine := { m with session := s }
    have deeper : (Stmt.choose branches otherwise).exec call scope m' =
        (Stmt.choose branches otherwise).exec call (scope.enter .conditional) m' :=
      congrFun (Stmt.exec_congr hcall (Scope.withinLoop_enter_conditional scope).symm _ rest) m'
    calc Stmt.execFirst call branches scope
          (fun m => Stmt.execOtherwise call otherwise (scope.enter .conditional) m) m'
        = (Stmt.choose branches otherwise).exec call scope m' := by rw [Stmt.exec]
      _ = Stmt.execAll call [.choose branches otherwise] (scope.enter .conditional) m' := by
          rw [deeper, Stmt.execAll_singleton]

/-- **Statements see of their scope only whether a loop stands around.** In two scopes that agree on
this a statement ends the same way and leaves the same machine, whatever user commands and handlers
there are. So a choice is the same as one with its first branch alone, behind whose `:else` the
other branches are a choice of their own. -/
theorem exec_sees_only_loops :
    (∀ (budget : Nat) (x : Stmt), x.AllHooks Hook.IgnoresDepth →
      ∀ scope scope' : Scope, scope.withinLoop = scope'.withinLoop →
        ∀ m : Machine, x.exec (expand budget) scope m = x.exec (expand budget) scope' m) ∧
      ∀ (budget : Nat) (c : Condition) (xs : List Stmt) (branches : List (Condition × List Stmt))
        (otherwise : Option (List Stmt)),
        (Stmt.choose ((c, xs) :: branches) otherwise).AllHooks Hook.IgnoresDepth →
          ∀ (scope : Scope) (m : Machine),
            (Stmt.choose ((c, xs) :: branches) otherwise).exec (expand budget) scope m =
              (Stmt.choose [(c, xs)] (some [.choose branches otherwise])).exec (expand budget)
                scope m := by
  constructor
  · intro budget x hx scope scope' hscope m
    exact congrFun (Stmt.exec_congr (expand_seesOnlyLoops budget) hscope x hx) m
  · intro budget c xs branches otherwise hx scope m
    exact Stmt.exec_choose_cons (expand_seesOnlyLoops budget) hx scope m

/-- A condition that is a number. -/
def Condition.constant (n : Int64) : Condition :=
  .expression ⟨Value.decimal n, .number n⟩

/-- The `:break` behind `B` is legal in a choice in a loop as it is in the loop itself. And a
`:break` in the second branch of a choice leaves the loop also from a choice behind an `:else`. -/
theorem exec_sees_only_loops_breakingCommand :
    (Scope.root.enter .loop).withinLoop = ((Scope.root.enter .loop).enter .conditional).withinLoop ∧
      (Stmt.unknown {} "B" "").exec (expand 1) (Scope.root.enter .loop) breakingCommand =
        (Stmt.unknown {} "B" "").exec (expand 1) ((Scope.root.enter .loop).enter .conditional)
          breakingCommand ∧
      ((Stmt.choose [(.constant 0, [])]
        (some [.choose [(.constant 1, [.simple .breakLoop])] none])).exec (expand 1)
          (Scope.root.enter .loop) breakingCommand).1 = some .leaveLoop := by
  obtain ⟨scopes, choices⟩ := exec_sees_only_loops
  have agree : (Scope.root.enter .loop).withinLoop =
      ((Scope.root.enter .loop).enter .conditional).withinLoop := by decide
  have together : ((Stmt.choose [(.constant 0, []), (.constant 1, [.simple .breakLoop])]
      none).exec (expand 1) (Scope.root.enter .loop) breakingCommand).1 = some .leaveLoop := by
    decide +kernel
  have noHooks : (Stmt.choose [(.constant 0, []), (.constant 1, [.simple .breakLoop])]
      none).AllHooks Hook.IgnoresDepth :=
    ⟨⟨trivial, trivial, trivial, ⟨trivial, trivial⟩, trivial⟩, trivial⟩
  rw [choices 1 _ _ _ _ noHooks] at together
  exact ⟨agree, scopes 1 (.unknown {} "B" "") trivial _ _ agree breakingCommand, together⟩

end ExScript
