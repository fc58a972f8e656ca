import ExScript.Run.Script

/-!
# Runs and their traces

A run that comes to an end, as a relation. The functions that run statements are total because they
burn fuel; what they do when the fuel suffices is said here without any, by one rule for each way
in which something can be run. `Proofs/Run/Adequacy.lean` shows that the rules and the functions
say the same.

Besides its outcome and the session it leaves, a run has a *trace*: the sessions in which something
was done, the passes of `:while` loops, the names that came up for expansion and the errors that
arose, in the order in which this happened. Nothing reads the trace; it is what statements about
the course of a run are about.

## Budgets and sessions

The budget of expansions is an index of the relation, and the depth counts how many expansions a
statement is nested in, so budget and depth have the same sum all along. The copy of the budget
that a session holds is a matter of handlers and hooks alone. The sessions of a run therefore keep
the copy they had at the start, and where the copy can be read it is put in for the moment
(`Session.within`).

## Main definitions

* `Moment` — one entry of a trace
* `Task` — what can be run
* `Runs` — the rules
-/

namespace ExScript

/-! ### Traces -/

/-- Something that happens in a run. -/
inductive Moment where
  /-- A command, a hook, a condition, a list or a variable of a `:for` has its turn in a session. -/
  | act (s : Session)
  /-- A `:while` begins a pass. -/
  | pass
  /-- A name that can be called comes up for expansion. The depth is one more than the number of
  expansions around it. -/
  | attempt (name : String) (depth : Nat) (s : Session)
  /-- An error arises here; it was not handed on by a nested statement. -/
  | origin (cause : Error)

namespace Moment

/-- The depth of an attempt. -/
def depth? : Moment → Option Nat
  | attempt _ depth _ => some depth
  | _ => none

/-- The error that arises. -/
def cause? : Moment → Option Error
  | origin cause => some cause
  | _ => none

/-- Whether a pass begins. -/
def isPass : Moment → Bool
  | pass => true
  | _ => false

end Moment

/-- What happens in a run, first things first. -/
abbrev Trace := List Moment

namespace Trace

/-- The depths of the attempts to expand a name. -/
def depths (t : Trace) : List Nat :=
  t.filterMap Moment.depth?

/-- The errors that arise. -/
def causes (t : Trace) : List Error :=
  t.filterMap Moment.cause?

/-- The number of passes, which is the fuel that the run burns. -/
def passes (t : Trace) : Nat :=
  t.countP Moment.isPass

@[simp] theorem depths_nil : depths [] = [] := rfl

@[simp] theorem depths_append (t u : Trace) : depths (t ++ u) = depths t ++ depths u :=
  List.filterMap_append

@[simp] theorem causes_nil : causes [] = [] := rfl

@[simp] theorem causes_append (t u : Trace) : causes (t ++ u) = causes t ++ causes u :=
  List.filterMap_append

@[simp] theorem causes_act (s : Session) (t : Trace) : causes (.act s :: t) = causes t := rfl

@[simp] theorem causes_pass (t : Trace) : causes (.pass :: t) = causes t := rfl

@[simp] theorem causes_attempt (name : String) (depth : Nat) (s : Session) (t : Trace) :
    causes (.attempt name depth s :: t) = causes t := rfl

@[simp] theorem causes_origin (e : Error) (t : Trace) :
    causes (.origin e :: t) = e :: causes t := rfl

@[simp] theorem passes_nil : passes [] = 0 := rfl

@[simp] theorem passes_append (t u : Trace) : passes (t ++ u) = passes t + passes u :=
  List.countP_append

@[simp] theorem passes_act (s : Session) (t : Trace) : passes (.act s :: t) = passes t := rfl

@[simp] theorem passes_pass (t : Trace) : passes (.pass :: t) = passes t + 1 :=
  List.countP_cons_of_pos rfl

@[simp] theorem passes_attempt (name : String) (depth : Nat) (s : Session) (t : Trace) :
    passes (.attempt name depth s :: t) = passes t := rfl

@[simp] theorem passes_origin (e : Error) (t : Trace) : passes (.origin e :: t) = passes t := rfl

end Trace

/-- The entry for an outcome of something that holds no statements: a failure arises there. -/
def Outcome.origins : Outcome → Trace
  | failed e => [.origin e]
  | _ => []

@[simp] theorem Outcome.passes_origins (o : Outcome) : o.origins.passes = 0 := by
  cases o <;> rfl

/-! ### What can be read of the budget -/

namespace Session

/-- The session with a budget put in. -/
def within (budget : Nat) (s : Session) : Session :=
  { s with budget }

@[simp] theorem within_budget (budget : Nat) (s : Session) : (s.within budget).budget = budget :=
  rfl

@[simp] theorem within_buffer (budget : Nat) (s : Session) :
    (s.within budget).buffer = s.buffer := rfl

@[simp] theorem within_commands (budget : Nat) (s : Session) :
    (s.within budget).commands = s.commands := rfl

@[simp] theorem within_vars (budget : Nat) (s : Session) : (s.within budget).vars = s.vars := rfl

@[simp] theorem within_within (b c : Nat) (s : Session) : (s.within b).within c = s.within c := rfl

@[simp] theorem within_self (s : Session) : s.within s.budget = s := rfl

@[simp] theorem within_tell (budget : Nat) (s : Session) (e : Event) :
    (s.tell e).within budget = (s.within budget).tell e := rfl

end Session

/-- What a hook does in a session when it reads a budget. -/
def Hook.runWithin {α : Type} (budget : Nat) (h : Hook α) (scope : Scope) (s : Session) :
    α × Session :=
  let r := h.run scope (s.within budget)
  (r.1, r.2.within s.budget)

/-- Whether a condition holds in a session when its hook reads a budget. -/
def Condition.checkWithin (budget : Nat) (c : Condition) (scope : Scope) (s : Session) :
    Except Error Bool × Session :=
  let r := c.check scope (s.within budget)
  (r.1, r.2.within s.budget)

/-! ### Runs -/

/-- What can be run. -/
inductive Task where
  | stmt (x : Stmt)
  /-- Statements one after the other. -/
  | body (xs : List Stmt)
  /-- A body for each of some values, which a variable has during the pass. -/
  | each (name : String) (xs : List Stmt) (values : List Value)
  /-- A command with an unknown name. -/
  | call (name argument : String)
  | handler (n : Native)

/-- How a task is run within a budget. -/
def Task.run (b : Nat) (scope : Scope) : Task → Run
  | .stmt x => x.exec (expand b) scope
  | .body xs => Stmt.execAll (expand b) xs scope
  | .each name xs values =>
    repeatFor name (fun m => Stmt.execAll (expand b) xs (scope.enter .loop) m) values
  | .call name argument => expand b name argument scope
  | .handler n => n.exec fun x => x.exec (expand b) .root

/-- `Runs budget depth scope task s t o s'`: with so many expansions left and inside of so many, the
task is run in the session `s` and ends with the outcome `o` in the session `s'`; `t` is what
happens on the way. -/
inductive Runs : Nat → Nat → Scope → Task → Session → Trace → Outcome → Session → Prop where
  -- Statements that hold no others
  | simple {b d scope c s} :
    Runs b d scope (.stmt (.simple c)) s (.act s :: (c.run scope s).1.origins) (c.run scope s).1
      (c.run scope s).2
  | hook {b d scope h s} :
    Runs b d scope (.stmt (.hook h)) s (.act s :: (h.runWithin b scope s).1.origins)
      (h.runWithin b scope s).1 (h.runWithin b scope s).2
  | unknown {b d scope range name argument s t o s'} :
    Runs b d scope (.call name argument) s t o s' →
      Runs b d scope (.stmt (.unknown range name argument)) s t o s'
  -- Sequences
  | block {b d scope xs s t o s'} :
    Runs b d scope (.body xs) s t o s' → Runs b d scope (.stmt (.block xs)) s t o s'
  | nil {b d scope s} : Runs b d scope (.body []) s [] .finished s
  | cons {b d scope x xs s t s' u o s''} :
    Runs b d scope (.stmt x) s t .finished s' → Runs b d scope (.body xs) s' u o s'' →
      Runs b d scope (.body (x :: xs)) s (t ++ u) o s''
  | stop {b d scope x xs s t o s'} :
    Runs b d scope (.stmt x) s t o s' → o ≠ .finished → Runs b d scope (.body (x :: xs)) s t o s'
  -- `:while`
  | whileFail {b d scope c xs s e s'} :
    c.checkWithin b scope s = (.error e, s') →
      Runs b d scope (.stmt (.whileLoop c xs)) s [.act s, .origin e] (.failed e) s'
  | whileEnd {b d scope c xs s s'} :
    c.checkWithin b scope s = (.ok false, s') →
      Runs b d scope (.stmt (.whileLoop c xs)) s [.act s] .finished s'
  | whileNext {b d scope c xs s s₁ t o s₂ u o' s'} :
    c.checkWithin b scope s = (.ok true, s₁) → Runs b d (scope.enter .loop) (.body xs) s₁ t o s₂ →
      o.inLoop = .next → Runs b d scope (.stmt (.whileLoop c xs)) s₂ u o' s' →
      Runs b d scope (.stmt (.whileLoop c xs)) s (.act s :: .pass :: (t ++ u)) o' s'
  | whileExit {b d scope c xs s s₁ t o s' o'} :
    c.checkWithin b scope s = (.ok true, s₁) → Runs b d (scope.enter .loop) (.body xs) s₁ t o s' →
      o.inLoop = .exit o' →
      Runs b d scope (.stmt (.whileLoop c xs)) s (.act s :: .pass :: t) o' s'
  -- `:for`
  | forFail {b d scope name e xs s err} :
    itemsOf e s.vars = .error err →
      Runs b d scope (.stmt (.forLoop name e xs)) s [.act s, .origin err] (.failed err) s
  | forEach {b d scope name e xs s values t o s'} :
    itemsOf e s.vars = .ok values → Runs b d scope (.each name xs values) s t o s' →
      Runs b d scope (.stmt (.forLoop name e xs)) s (.act s :: t) o s'
  | eachEnd {b d scope name xs s} : Runs b d scope (.each name xs []) s [] .finished s
  | eachNext {b d scope name xs v values s t o s₁ u o' s'} :
    Runs b d (scope.enter .loop) (.body xs) { s with vars := s.vars.set name v } t o s₁ →
      o.inLoop = .next → Runs b d scope (.each name xs values) s₁ u o' s' →
      Runs b d scope (.each name xs (v :: values)) s (.act s :: (t ++ u)) o' s'
  | eachExit {b d scope name xs v values s t o s' o'} :
    Runs b d (scope.enter .loop) (.body xs) { s with vars := s.vars.set name v } t o s' →
      o.inLoop = .exit o' →
      Runs b d scope (.each name xs (v :: values)) s (.act s :: t) o' s'
  -- `:if`
  | chooseNone {b d scope s} : Runs b d scope (.stmt (.choose [] none)) s [] .finished s
  | chooseElse {b d scope xs s t o s'} :
    Runs b d (scope.enter .conditional) (.body xs) s t o s' →
      Runs b d scope (.stmt (.choose [] (some xs))) s t o s'
  | chooseFail {b d scope c xs branches otherwise s e s'} :
    c.checkWithin b scope s = (.error e, s') →
      Runs b d scope (.stmt (.choose ((c, xs) :: branches) otherwise)) s [.act s, .origin e]
        (.failed e) s'
  | chooseHere {b d scope c xs branches otherwise s s₁ t o s'} :
    c.checkWithin b scope s = (.ok true, s₁) →
      Runs b d (scope.enter .conditional) (.body xs) s₁ t o s' →
      Runs b d scope (.stmt (.choose ((c, xs) :: branches) otherwise)) s (.act s :: t) o s'
  | chooseNext {b d scope c xs branches otherwise s s₁ t o s'} :
    c.checkWithin b scope s = (.ok false, s₁) →
      Runs b d scope (.stmt (.choose branches otherwise)) s₁ t o s' →
      Runs b d scope (.stmt (.choose ((c, xs) :: branches) otherwise)) s (.act s :: t) o s'
  -- Commands with unknown names
  | notCallable {b d scope name argument s} :
    s.commands.isCallable name = false →
      Runs b d scope (.call name argument) s [.origin (.notACommand (commandLine name argument))]
        (.failed (.notACommand (commandLine name argument))) s
  | tooDeep {d scope name argument s} :
    s.commands.isCallable name = true →
      Runs 0 d scope (.call name argument) s
        [.attempt name (d + 1) s, .origin .expansionTooDeep] (.failed .expansionTooDeep)
        (s.tell .bell)
  | notExpanded {b d scope name argument s e} :
    s.commands.isCallable name = true → s.commands.expansion name argument = .error e →
      Runs (b + 1) d scope (.call name argument) s [.attempt name (d + 1) s, .origin e] (.failed e) s
  | native {b d scope name argument s n t o s'} :
    s.commands.isCallable name = true →
      s.commands.expansion name argument = .ok (.handler n) →
      Runs b (d + 1) scope (.handler n) s t o s' →
      Runs (b + 1) d scope (.call name argument) s (.attempt name (d + 1) s :: t) o s'
  | chain {b d scope name argument s next argument' t o s'} :
    s.commands.isCallable name = true →
      s.commands.expansion name argument = .ok (.command next argument') →
      Runs b (d + 1) scope (.call next argument') s t o s' →
      Runs (b + 1) d scope (.call name argument) s (.attempt name (d + 1) s :: t) o s'
  | expanded {b d scope name argument s x t o s'} :
    s.commands.isCallable name = true → s.commands.expansion name argument = .ok (.body x) →
      Runs b (d + 1) scope (.stmt x) s t o s' →
      Runs (b + 1) d scope (.call name argument) s (.attempt name (d + 1) s :: t) (absorb o s').1
        (absorb o s').2
  -- Handlers
  | done {b d scope s} : Runs b d scope (.handler .done) s [] .finished s
  | report {b d scope text next s t o s'} :
    Runs b d scope (.handler next) (s.tell (.report text)) t o s' →
      Runs b d scope (.handler (.report text next)) s t o s'
  | reportError {b d scope cause next s t o s'} :
    Runs b d scope (.handler next) (s.tell (.error cause)) t o s' →
      Runs b d scope (.handler (.reportError cause next)) s t o s'
  | setVariable {b d scope name v next s t o s'} :
    Runs b d scope (.handler next) { s with vars := s.vars.set name v } t o s' →
      Runs b d scope (.handler (.setVariable name v next)) s t o s'
  | askBudget {b d scope next s t o s'} :
    Runs b d scope (.handler (next b)) s t o s' →
      Runs b d scope (.handler (.askBudget next)) s t o s'
  | runNothing {b d scope text next s t o s'} :
    Script.parseCommand? text = none → Runs b d scope (.handler (next none)) s t o s' →
      Runs b d scope (.handler (.run text next)) s t o s'
  | runScript {b d scope text next x s t o s₁ u o' s'} :
    Script.parseCommand? text = some x → Runs b d .root (.stmt x) s t o s₁ →
      Runs b d scope (.handler (next (some o))) s₁ u o' s' →
      Runs b d scope (.handler (.run text next)) s (t ++ u) o' s'

end ExScript
