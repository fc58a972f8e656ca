import ExScript.Proofs.Run.Adequacy
import ExScript.Proofs.Run.Point
import Mathlib.Tactic.ByContra

/-!
# The budget in the session counts

How many expansions are left is kept twice. Names get it handed on as an argument, which becomes
smaller with each expansion; and the session holds a copy for hooks and handlers to read, which is
put in around the bodies of user commands and around handlers and is taken out again behind them.
Along a chain of user commands only the argument becomes smaller, so there the copy is out of date.
This module says that it is up to date wherever it can be read.

## What a run comes to on its way

The functions that run tasks have results and show nothing else, so what they come to in between has
to be found out. A relation with a rule for each way in which one task runs another would be of no
use for that: its rules would say which copy of the budget is in the session of the nested task, and
it would be the rules that count, whatever the functions do.

So there are no rules here. A *call* is a task that is about to be run on a machine. One level of
the functions is written with the calls inside of it left open (`Call.unfold`), and a call *makes*
another one if it hangs on it: there is something the other one could come to, instead of what it
does come to, with which the first one would come to something else. What the machine of the other
call looks like, and with it the copy of the budget, is then up to `Run.withBudget` and those that
use it. If they did not put in the copy, or another one, then other calls would be made.

That the level is the one of the functions is a theorem (`Call.Counts.unfold_run`,
`Call.unfoldScript_run`): with the calls filled in by what they come to, it gives what the functions
give.

The number of expansions that are active is the only thing that is counted here. It is a part of a
call and is read by nothing.

## The invariant

A call counts right if its argument and the number of active expansions are all the expansions there
are, and the copy is the same as the argument, unless a name is being expanded (`Call.Counts`). The
exception is needed: along a chain the copy stays behind, and a name at the end of one is expanded
with a copy that is too large. What such a call comes to is settled by what the calls come to that
count right as well (`Call.Counts.unfold_eq`), so it does not hang on any other. This is one look at
each kind of task. What carries it over a task that is followed by another one is that a task that
ends leaves the copy as it was, however it ends (`Task.budget_run`).

That calls count right says little if calls are missing. Every point of a run, in the sense of
`Starts`, is one of its calls (`Reaches.ofScript`), whether the run comes to an end later or not.

## Main definitions

* `Call`, `Call.unfold` — tasks that are about to be run, and one level of running them
* `Call.Makes`, `Call.OfScript` — the calls that another one hangs on, and those of a script
* `Call.Counts` — the argument and the copy are what is left

## Main results

* `Task.budget_run` — the copy is the same behind a task as in front of it
* `Call.Counts.unfold_eq` — a call that counts right is settled by calls that do
* `Call.Counts.unfold_run`, `Call.unfoldScript_run` — calls are what the functions run
* `Call.OfScript.counts` — all calls of a script count right
* `Starts.makes`, `Reaches.ofScript` — no call is missing
* `budget_counts` — the copy is what is left, in every script
-/

namespace ExScript

/-! ### Behind a task

What `Proofs/Run/Adequacy.lean` found out about runs that end, said of the functions. -/

section Behind

variable {b : Nat} {scope : Scope} (task : Task) {m m' : Machine} {o : Outcome}

/-- **A task leaves the budget in the session as it was**, whatever its outcome, if names take
theirs from there. -/
theorem Task.budget_run (hm : m.session.budget = b) (h : task.run b scope m = (some o, m')) :
    m'.session.budget = b := by
  have described : Described b 0 scope task m o m' := Task.described_run hm h
  rw [described.budget, hm]

/-- A task makes no fuel. -/
theorem Task.fuel_run_le (hm : m.session.budget = b) (h : task.run b scope m = (some o, m')) :
    m'.fuel ≤ m.fuel := by
  have described : Described b 0 scope task m o m' := Task.described_run hm h
  obtain ⟨t, -, hfuel⟩ := described.runs b
  omega

end Behind

/-! ### Calls -/

/-- A task that is about to be run on a machine. -/
structure Call where
  /-- How many expansions names may begin. -/
  budget : Nat
  /-- How many expansions are active. -/
  active : Nat
  scope : Scope
  task : Task
  machine : Machine

/-- One pass of a loop and, if the loop goes on behind it, what is left of the loop. -/
def Run.pass (body rest : Run) : Run := fun m =>
  match body m with
  | (none, m) => (none, m)
  | (some outcome, m) =>
    match outcome.inLoop with
    | .next => rest m
    | .exit outcome => (some outcome, m)

namespace Call

/-- What comes of a call. -/
def run (c : Call) : Option Outcome × Machine :=
  c.task.run c.budget c.scope c.machine

/-- What would come of a call if the calls that it makes came to what `f` says. Nothing is said here
of the sessions that expansions begin in: `Run.withBudget` and `runBody` are the functions that
`expand` uses, and they hand a machine on to `f`. -/
@[simp] def unfold (f : Call → Option Outcome × Machine) : Call → Option Outcome × Machine
  | ⟨b, k, scope, .stmt (.unknown _ name argument), m⟩ => f ⟨b, k, scope, .call name argument, m⟩
  -- Sequences
  | ⟨b, k, scope, .stmt (.block xs), m⟩ => f ⟨b, k, scope, .body xs, m⟩
  | ⟨b, k, scope, .body (x :: xs), m⟩ =>
    Run.andThen (fun m => f ⟨b, k, scope, .stmt x, m⟩) (fun m => f ⟨b, k, scope, .body xs, m⟩) m
  -- `:while`
  | ⟨b, k, scope, .stmt (.whileLoop c xs), ⟨fuel, s⟩⟩ =>
    match fuel, c.check scope s with
    | fuel + 1, (.ok true, s) =>
      Run.pass (fun m => f ⟨b, k, scope.enter .loop, .body xs, m⟩)
        (fun m => f ⟨b, k, scope, .stmt (.whileLoop c xs), m⟩) ⟨fuel, s⟩
    | fuel, _ => run ⟨b, k, scope, .stmt (.whileLoop c xs), ⟨fuel, s⟩⟩
  -- `:for`
  | ⟨b, k, scope, .stmt (.forLoop name e xs), m⟩ =>
    match itemsOf e m.session.vars with
    | .ok values => f ⟨b, k, scope, .each name xs values, m⟩
    | .error e => (some (.failed e), m)
  | ⟨b, k, scope, .each name xs (v :: values), ⟨fuel, s⟩⟩ =>
    Run.pass (fun m => f ⟨b, k, scope.enter .loop, .body xs, m⟩)
      (fun m => f ⟨b, k, scope, .each name xs values, m⟩)
      ⟨fuel, { s with vars := s.vars.set name v }⟩
  -- `:if`
  | ⟨b, k, scope, .stmt (.choose [] (some xs)), m⟩ =>
    f ⟨b, k, scope.enter .conditional, .body xs, m⟩
  | ⟨b, k, scope, .stmt (.choose ((c, xs) :: branches) otherwise), ⟨fuel, s⟩⟩ =>
    match c.check scope s with
    | (.ok true, s) => f ⟨b, k, scope.enter .conditional, .body xs, ⟨fuel, s⟩⟩
    | (.ok false, s) => f ⟨b, k, scope, .stmt (.choose branches otherwise), ⟨fuel, s⟩⟩
    | (.error e, s) => (some (.failed e), ⟨fuel, s⟩)
  -- Commands with unknown names
  | ⟨b + 1, k, scope, .call name argument, m⟩ =>
    match m.session.commands.isCallable name, m.session.commands.expansion name argument with
    | true, .ok (.handler n) => Run.withBudget b (fun m => f ⟨b, k + 1, scope, .handler n, m⟩) m
    | true, .ok (.command next argument') => f ⟨b, k + 1, scope, .call next argument', m⟩
    | true, .ok (.body x) => runBody b (fun m => f ⟨b, k + 1, scope, .stmt x, m⟩) m
    | _, _ => run ⟨b + 1, k, scope, .call name argument, m⟩
  -- Handlers
  | ⟨b, k, scope, .handler (.report text next), ⟨fuel, s⟩⟩ =>
    f ⟨b, k, scope, .handler next, ⟨fuel, s.tell (.report text)⟩⟩
  | ⟨b, k, scope, .handler (.reportError cause next), ⟨fuel, s⟩⟩ =>
    f ⟨b, k, scope, .handler next, ⟨fuel, s.tell (.error cause)⟩⟩
  | ⟨b, k, scope, .handler (.setVariable name v next), ⟨fuel, s⟩⟩ =>
    f ⟨b, k, scope, .handler next, ⟨fuel, { s with vars := s.vars.set name v }⟩⟩
  | ⟨b, k, scope, .handler (.askBudget next), m⟩ =>
    f ⟨b, k, scope, .handler (next m.session.budget), m⟩
  | ⟨b, k, scope, .handler (.run text next), m⟩ =>
    match Script.parseCommand? text with
    | none => f ⟨b, k, scope, .handler (next none), m⟩
    | some x =>
      match f ⟨b, k, .root, .stmt x, m⟩ with
      | (none, m) => (none, m)
      | (some o, m) => f ⟨b, k, scope, .handler (next (some o)), m⟩
  -- Everything else makes no calls.
  | c => c.run

/-- What would come of statements that are run as a script if the first call came to what `f` says.
Again it is `Run.withBudget` that decides in which session that is. -/
def unfoldScript (body : List Stmt) (m : Machine) (f : Call → Option Outcome × Machine) :
    Option (Except Error Unit) × Machine :=
  match Run.withBudget maxExpansions (fun m => f ⟨maxExpansions, 0, .root, .body body, m⟩) m with
  | (none, m) => (none, m)
  | (some outcome, m) =>
    match outcome.toExcept with
    | .ok () => (some (.ok ()), m)
    | .error e => (some (.error e), m.fail e)

/-- Whether a result hangs on what a call comes to: `compute` says what the result would be for any
results of the calls, and it would be another one if only this call came to something else. -/
def Decides {α : Type} (c : Call) (result : α) (compute : (Call → Option Outcome × Machine) → α) :
    Prop :=
  ∃ f, (∀ d, d ≠ c → f d = d.run) ∧ compute f ≠ result

/-- `c.Makes d`: what comes of `c` hangs on what comes of `d`. -/
def Makes (c d : Call) : Prop :=
  d.Decides c.run fun f => c.unfold f

/-- The calls of statements that are run as a script. -/
inductive OfScript (body : List Stmt) (m : Machine) : Call → Prop where
  | first {c} : c.Decides (m.runStatements body) (unfoldScript body m) → OfScript body m c
  | next {c d} : OfScript body m c → c.Makes d → OfScript body m d

/-- Whether a call counts right: active expansions and those that are left are all there are, and
the copy in the session is what is left, unless a name is being expanded. -/
structure Counts (c : Call) : Prop where
  total : c.budget + c.active = maxExpansions
  copy : (∃ name argument, c.task = .call name argument) ∨ c.machine.session.budget = c.budget

variable {c d : Call}

/-- Inside of a task that is no name the copy is handed on. -/
theorem Counts.copy_of_ne (h : c.Counts) (hc : ∀ name argument, c.task ≠ .call name argument) :
    c.machine.session.budget = c.budget := by
  rcases h.copy with ⟨name, argument, hcall⟩ | hcopy
  · exact absurd hcall (hc name argument)
  · exact hcopy

/-- If the calls with some property settle a result, then only those can decide on it. -/
theorem Decides.of_congr {α : Type} {p : Call → Prop} {result : α}
    {compute : (Call → Option Outcome × Machine) → α} (h : c.Decides result compute)
    (hcongr : ∀ f, (∀ d, p d → f d = d.run) → compute f = result) : p c := by
  obtain ⟨f, hf, hne⟩ := h
  by_contra hp
  exact hne (hcongr f fun d hd => hf d fun heq => hp (heq ▸ hd))

/-- If a call that stopped short would leave its fuel to the whole, it decides on the whole: there
could be any amount of it. The calls next to it are told from it by their tasks. -/
theorem Decides.of_stop {α : Type} {result : α × Machine}
    {compute : (Call → Option Outcome × Machine) → α × Machine}
    (h : ∀ f fuel, (∀ d : Call, d.task ≠ c.task → f d = d.run) →
      f c = (none, ⟨fuel, c.machine.session⟩) → (compute f).2.fuel = fuel) :
    c.Decides result compute := by
  classical
  let stopped : Option Outcome × Machine := (none, ⟨result.2.fuel + 1, c.machine.session⟩)
  let f : Call → Option Outcome × Machine := fun d => if d = c then stopped else d.run
  have hothers : ∀ d, d ≠ c → f d = d.run := fun d hd => if_neg hd
  refine ⟨f, hothers, fun heq => ?_⟩
  have hfuel : (compute f).2.fuel = result.2.fuel + 1 :=
    h f _ (fun d hd => hothers d fun hdc => hd (hdc ▸ rfl)) (if_pos rfl)
  rw [heq] at hfuel
  omega

end Call

/-! ### Runs that agree where they are used

Two runs that are put together in the same way from parts that agree come to the same. They have to
agree on the machines that they are used on and on no others, and this is where the copy of the
budget comes in: behind a part that has ended it is again what it was. -/

section Congruence

variable {b : Nat} {m : Machine}

/-- Of a run within a budget only one machine matters, the one with the budget put in. -/
theorem Run.withBudget_congr {r r' : Run}
    (h : r { m with session := m.session.within b } = r' { m with session := m.session.within b }) :
    Run.withBudget b r m = Run.withBudget b r' m := by
  simp only [Session.within] at h
  simp only [Run.withBudget, h]

/-- What comes behind is used only if what is in front finishes. -/
theorem Run.andThen_congr {first first' next next' : Run} (hfirst : first m = first' m)
    (hnext : ∀ {m'}, first' m = (some .finished, m') → next m' = next' m') :
    Run.andThen first next m = Run.andThen first' next' m := by
  rw [Run.andThen, Run.andThen, hfirst]
  split
  next m' hr => exact hnext hr
  · rfl

/-- What is left of a loop is used behind a pass that ends somehow. -/
theorem Run.pass_congr {body body' rest rest' : Run} (hbody : body m = body' m)
    (hrest : ∀ {o m'}, body' m = (some o, m') → rest m' = rest' m') :
    Run.pass body rest m = Run.pass body' rest' m := by
  rw [Run.pass, Run.pass, hbody]
  rcases hr : body' m with ⟨_ | o, m'⟩
  · rfl
  · simp only [hrest hr]

/-! A `:while` is told how many passes it may still make, and stops at that number as it would for
lack of fuel. It is given as many as there is fuel for, so the number is never what stops it. But a
`:while` that goes on behind a pass has got another number than one that begins there, and these are
the same call. -/

/-- A `:while` whose condition holds makes a pass. -/
theorem repeatWhile_pass {test : Session → Except Error Bool × Session} {body : Run} {fuel : Nat}
    {s s₁ : Session} (hc : test s = (.ok true, s₁)) (n : Nat) :
    repeatWhile test body (n + 1) ⟨fuel + 1, s⟩ =
      Run.pass body (repeatWhile test body n) ⟨fuel, s₁⟩ := by
  rw [repeatWhile, hc]
  rfl

/-- A `:while` that makes no pass does not look at how many it may make. -/
theorem repeatWhile_of_no_pass {test : Session → Except Error Bool × Session} {body : Run}
    (h : m.fuel = 0 ∨ ∀ s, test m.session ≠ (.ok true, s)) (n k : Nat) :
    repeatWhile test body n m = repeatWhile test body k m := by
  rw [repeatWhile.eq_def, repeatWhile.eq_def]
  rcases hc : test m.session with ⟨⟨e⟩ | ⟨_ | _⟩, s₁⟩
  · simp only [hc]
  · simp only [hc]
  · have hfuel : m.fuel = 0 := h.resolve_right fun hne => hne s₁ hc
    simp only [hc, hfuel]

/-- As long as a `:while` may make no fewer passes than there is fuel for, it does not matter how
many. -/
theorem repeatWhile_of_fuel_le {c : Condition} {scope : Scope} {body : Run}
    (hbody : ∀ {m o m'}, m.session.budget = b → body m = (some o, m') →
      m'.session.budget = b ∧ m'.fuel ≤ m.fuel) :
    ∀ {n : Nat} {m : Machine}, m.session.budget = b → m.fuel ≤ n →
      repeatWhile (c.check scope) body n m = repeatWhile (c.check scope) body m.fuel m := by
  intro n
  induction n using Nat.strongRecOn with
  | ind n ih =>
    rintro ⟨_ | fuel, s⟩ hs hfuel
    · exact repeatWhile_of_no_pass (.inl rfl) n 0
    · by_cases hc : ∃ s₁, c.check scope s = (.ok true, s₁)
      · obtain ⟨s₁, hc⟩ := hc
        obtain ⟨n, rfl⟩ : ∃ j, n = j + 1 := ⟨n - 1, by dsimp only at hfuel; omega⟩
        rw [repeatWhile_pass hc, repeatWhile_pass hc]
        refine Run.pass_congr rfl fun {o m'} hr => ?_
        obtain ⟨hs', hle⟩ := hbody (m := ⟨fuel, s₁⟩) (Condition.check_eq hc hs).1 hr
        dsimp only at hfuel hle
        rw [ih n (by omega) hs' (by omega), ih fuel (by omega) hs' hle]
      · exact repeatWhile_of_no_pass (.inr fun s₁ h => hc ⟨s₁, h⟩) n (fuel + 1)

end Congruence

/-! ### What calls come to

First the three ways in which a name is expanded, as the functions have them. -/

namespace Call

section Expanding

variable {b k : Nat} {scope : Scope} {name argument : String} {m : Machine}

/-- A handler is called within the budget that is left, on whichever machine that gives. -/
theorem run_native {n : Native} (hc : m.session.commands.isCallable name = true)
    (he : m.session.commands.expansion name argument = .ok (.handler n)) :
    run ⟨b + 1, k, scope, .call name argument, m⟩ =
      Run.withBudget b (fun m => run ⟨b, k + 1, scope, .handler n, m⟩) m := by
  calc run ⟨b + 1, k, scope, .call name argument, m⟩
      = runNative b (fun x => x.exec (expand b) .root) n m := by
        simp [run, Task.run, expand, hc, he]
    _ = Run.withBudget b (fun m => run ⟨b, k + 1, scope, .handler n, m⟩) m := rfl

/-- A chain hands its machine on as it is. -/
theorem run_chain {next argument' : String} (hc : m.session.commands.isCallable name = true)
    (he : m.session.commands.expansion name argument = .ok (.command next argument')) :
    run ⟨b + 1, k, scope, .call name argument, m⟩ =
      run ⟨b, k + 1, scope, .call next argument', m⟩ := by
  simp [run, Task.run, expand, hc, he]

/-- A text is run within the budget that is left, and what it comes to is taken in. -/
theorem run_expanded {x : Stmt} (hc : m.session.commands.isCallable name = true)
    (he : m.session.commands.expansion name argument = .ok (.body x)) :
    run ⟨b + 1, k, scope, .call name argument, m⟩ =
      runBody b (fun m => run ⟨b, k + 1, scope, .stmt x, m⟩) m := by
  calc run ⟨b + 1, k, scope, .call name argument, m⟩
      = runBody b (x.exec (expand b) scope) m := by simp [run, Task.run, expand, hc, he]
    _ = runBody b (fun m => run ⟨b, k + 1, scope, .stmt x, m⟩) m := rfl

end Expanding

/-! What a call comes to is settled by its parts. First those that are in the same place: there the
copy is handed on, so all that has to be known of `f` is what it says where the copy is right. -/

section Parts

variable {b k : Nat} {f : Call → Option Outcome × Machine} {scope : Scope} {m : Machine}
  (hpart : ∀ {scope : Scope} {task : Task} {m : Machine}, m.session.budget = b →
    f ⟨b, k, scope, task, m⟩ = run ⟨b, k, scope, task, m⟩)

include hpart

/-- The loop behind a pass is a call with the fuel that is left then. The functions run it with the
fuel that was left in front of the pass, as a number of passes. -/
theorem unfold_whileLoop {c : Condition} {xs : List Stmt} (hm : m.session.budget = b) :
    unfold f ⟨b, k, scope, .stmt (.whileLoop c xs), m⟩ =
      run ⟨b, k, scope, .stmt (.whileLoop c xs), m⟩ := by
  obtain ⟨fuel, s⟩ := m
  rcases hc : c.check scope s with ⟨⟨e⟩ | ⟨_ | _⟩, s₁⟩
  · cases fuel <;> simp only [unfold, hc]
  · cases fuel <;> simp only [unfold, hc]
  · cases fuel with
    | zero => simp only [unfold]
    | succ fuel =>
      have hbody : ∀ {m o m'}, m.session.budget = b →
          Stmt.execAll (expand b) xs (scope.enter .loop) m = (some o, m') →
            m'.session.budget = b ∧ m'.fuel ≤ m.fuel := fun hm hr =>
        ⟨Task.budget_run (.body xs) hm hr, Task.fuel_run_le (.body xs) hm hr⟩
      have hs₁ : s₁.budget = b := (Condition.check_eq hc hm).1
      have hrun : run ⟨b, k, scope, .stmt (.whileLoop c xs), ⟨fuel + 1, s⟩⟩ =
          Run.pass (Stmt.execAll (expand b) xs (scope.enter .loop))
            (repeatWhile (c.check scope) (Stmt.execAll (expand b) xs (scope.enter .loop)) fuel)
            ⟨fuel, s₁⟩ :=
        repeatWhile_pass hc fuel
      rw [hrun]
      simp only [unfold, hc]
      refine Run.pass_congr (hpart hs₁) fun {o m'} hr => ?_
      obtain ⟨hs', hle⟩ := hbody (m := ⟨fuel, s₁⟩) hs₁ hr
      rw [hpart hs']
      exact (repeatWhile_of_fuel_le hbody hs' hle).symm

theorem unfold_stmt (x : Stmt) (hm : m.session.budget = b) :
    unfold f ⟨b, k, scope, .stmt x, m⟩ = run ⟨b, k, scope, .stmt x, m⟩ := by
  cases x with
  | simple | hook => rfl
  | unknown | block => exact hpart hm
  | whileLoop c xs => exact unfold_whileLoop hpart hm
  | forLoop name e xs =>
    simp only [unfold, run, Task.run, Stmt.exec]
    cases itemsOf e m.session.vars with
    | error e => rfl
    | ok values => exact hpart hm
  | choose branches otherwise =>
    rcases branches with _ | ⟨⟨c, xs⟩, branches⟩
    · cases otherwise with
      | none => rfl
      | some xs => exact hpart hm
    · obtain ⟨fuel, s⟩ := m
      simp only [unfold, run, Task.run, Stmt.exec, Stmt.execFirst]
      rcases hc : c.check scope s with ⟨⟨e⟩ | ⟨_ | _⟩, s₁⟩
      · rfl
      · exact hpart (Condition.check_eq hc hm).1
      · exact hpart (Condition.check_eq hc hm).1

theorem unfold_body (xs : List Stmt) (hm : m.session.budget = b) :
    unfold f ⟨b, k, scope, .body xs, m⟩ = run ⟨b, k, scope, .body xs, m⟩ := by
  cases xs with
  | nil => rfl
  | cons x xs =>
    change Run.andThen (fun m => f ⟨b, k, scope, .stmt x, m⟩)
        (fun m => f ⟨b, k, scope, .body xs, m⟩) m =
      Run.andThen (x.exec (expand b) scope) (Stmt.execAll (expand b) xs scope) m
    refine Run.andThen_congr (hpart hm) fun hr => ?_
    exact hpart (Task.budget_run (.stmt x) hm hr)

/-- The variable of the loop is set in between, which the copy of the budget does not notice. -/
theorem unfold_each {name : String} {xs : List Stmt} (values : List Value)
    (hm : m.session.budget = b) :
    unfold f ⟨b, k, scope, .each name xs values, m⟩ =
      run ⟨b, k, scope, .each name xs values, m⟩ := by
  cases values with
  | nil => rfl
  | cons v values =>
    obtain ⟨fuel, s⟩ := m
    change Run.pass (fun m => f ⟨b, k, scope.enter .loop, .body xs, m⟩)
        (fun m => f ⟨b, k, scope, .each name xs values, m⟩)
        ⟨fuel, { s with vars := s.vars.set name v }⟩ =
      Run.pass (Stmt.execAll (expand b) xs (scope.enter .loop))
        (fun m => run ⟨b, k, scope, .each name xs values, m⟩)
        ⟨fuel, { s with vars := s.vars.set name v }⟩
    refine Run.pass_congr (hpart hm) fun hr => ?_
    exact hpart (Task.budget_run (.body xs) (by exact hm) hr)

/-- A handler that asks for the budget goes on with an answer, and it is the copy that answers. -/
theorem unfold_handler (n : Native) (hm : m.session.budget = b) :
    unfold f ⟨b, k, scope, .handler n, m⟩ = run ⟨b, k, scope, .handler n, m⟩ := by
  cases n with
  | done => rfl
  | report | reportError | setVariable | askBudget => exact hpart hm
  | run text next =>
    simp only [unfold, run, Task.run, Native.exec, Native.perform]
    cases Script.parseCommand? text with
    | none => exact hpart hm
    | some x =>
      simp only [hpart hm]
      simp only [run, Task.run]
      rcases hr : x.exec (expand b) .root m with ⟨_ | o, m'⟩
      · rfl
      · exact hpart (Task.budget_run (.stmt x) hm hr)

end Parts

variable {c d : Call} {f : Call → Option Outcome × Machine}

/-- Names are the other case. Where one is expanded the copy is not asked for but put in, and what
it was before does not matter. -/
theorem unfold_call {b k : Nat} {scope : Scope} {name argument : String} {m : Machine}
    (htotal : b + k = maxExpansions) (hf : ∀ d : Call, d.Counts → f d = d.run) :
    unfold f ⟨b, k, scope, .call name argument, m⟩ = run ⟨b, k, scope, .call name argument, m⟩ := by
  cases b with
  | zero => rfl
  | succ b =>
    have hinside : ∀ {task : Task},
        f ⟨b, k + 1, scope, task, { m with session := m.session.within b }⟩ =
          run ⟨b, k + 1, scope, task, { m with session := m.session.within b }⟩ :=
      hf _ ⟨by dsimp only; omega, .inr rfl⟩
    simp only [unfold]
    split
    next n hc he =>
      rw [run_native hc he]
      exact Run.withBudget_congr hinside
    next next argument' hc he =>
      rw [run_chain hc he]
      exact hf _ ⟨by dsimp only; omega, .inl ⟨_, _, rfl⟩⟩
    next x hc he =>
      have hbody : Run.withBudget b (fun m => f ⟨b, k + 1, scope, .stmt x, m⟩) m =
          Run.withBudget b (fun m => run ⟨b, k + 1, scope, .stmt x, m⟩) m :=
        Run.withBudget_congr hinside
      rw [run_expanded hc he, runBody, runBody, hbody]
    · rfl

/-- **A call that counts right is settled by calls that do.** With `f` the functions themselves it
says that a call is put together from the calls that it makes. -/
theorem Counts.unfold_eq (hc : c.Counts) (hf : ∀ d : Call, d.Counts → f d = d.run) :
    c.unfold f = c.run := by
  obtain ⟨b, k, scope, task, m⟩ := c
  have htotal : b + k = maxExpansions := hc.total
  have hpart : ∀ {scope : Scope} {task : Task} {m : Machine}, m.session.budget = b →
      f ⟨b, k, scope, task, m⟩ = run ⟨b, k, scope, task, m⟩ :=
    fun hm => hf _ ⟨htotal, .inr hm⟩
  cases task with
  | call name argument => exact unfold_call htotal hf
  | stmt x => exact unfold_stmt hpart x (hc.copy_of_ne (by rintro _ _ ⟨⟩))
  | body xs => exact unfold_body hpart xs (hc.copy_of_ne (by rintro _ _ ⟨⟩))
  | each name xs values => exact unfold_each hpart values (hc.copy_of_ne (by rintro _ _ ⟨⟩))
  | handler n => exact unfold_handler hpart n (hc.copy_of_ne (by rintro _ _ ⟨⟩))

/-- **One level of the functions is what the functions do.** -/
theorem Counts.unfold_run (hc : c.Counts) : c.unfold Call.run = c.run :=
  hc.unfold_eq fun _ _ => rfl

/-- A script is settled by calls that count right: its first one is begun within the whole
budget. -/
theorem unfoldScript_eq {body : List Stmt} {m : Machine} (hf : ∀ d : Call, d.Counts → f d = d.run) :
    unfoldScript body m f = m.runStatements body := by
  have hbody :
      Run.withBudget maxExpansions (fun m => f ⟨maxExpansions, 0, .root, .body body, m⟩) m =
        Run.withBudget maxExpansions (Stmt.execAll (expand maxExpansions) body .root) m :=
    Run.withBudget_congr (hf _ ⟨rfl, .inr rfl⟩)
  rw [unfoldScript, hbody]
  rfl

/-- The first call of a script is filled in with what it comes to. -/
theorem unfoldScript_run (body : List Stmt) (m : Machine) :
    unfoldScript body m Call.run = m.runStatements body :=
  unfoldScript_eq fun _ _ => rfl

/-! ### Counting -/

/-- **A call that counts right makes calls that do.** -/
theorem Makes.counts (h : c.Makes d) (hc : c.Counts) : d.Counts :=
  h.of_congr fun _ hf => hc.unfold_eq hf

/-- **All calls of a script count right.** -/
theorem OfScript.counts {body : List Stmt} {m : Machine} (h : OfScript body m c) : c.Counts := by
  induction h with
  | first hdecides => exact hdecides.of_congr fun _ hf => unfoldScript_eq hf
  | next _ hmakes ih => exact hmakes.counts ih

end Call

/-! ### No call is missing

The points of a run are known independently of calls (`Starts`), and with them every place that a
run gets to, as well those in runs that go on for ever. For each of them there is a call, and it is
made. -/

namespace Point

/-- The call at a point, on a machine with some fuel and some copy of the budget. -/
def call (p : Point) (copy fuel : Nat) : Call :=
  ⟨p.budget, p.depth, p.scope, p.task, ⟨fuel, p.session.within copy⟩⟩

/-- Whether this can be the copy of the budget at a point. Behind a chain it can be any. -/
def Holds (p : Point) (copy : Nat) : Prop :=
  (∃ name argument, p.task = .call name argument) ∨ copy = p.budget

end Point

/-- A run that ends is what comes of a call. -/
theorem Runs.call_run {b d : Nat} {scope : Scope} {task : Task} {s s' : Session} {t : Trace}
    {o : Outcome} (h : Runs b d scope task s t o s') (fuel : Nat) :
    Call.run ⟨b, d, scope, task, ⟨fuel + t.passes, s.within b⟩⟩ = (some o, ⟨fuel, s'.within b⟩) :=
  h.ends.run fuel

section Points

variable {p q : Point} {t : Trace} {copy : Nat}

/-- Where a name is expanded, the point that is started is a call on the machine that the functions
put together there. -/
theorem Starts.makes_of_name {b d : Nat} {scope : Scope} {name argument : String} {s : Session}
    (h : Starts ⟨b, d, scope, .call name argument, s⟩ t q) (copy fuel : Nat) :
    ∃ copy', q.Holds copy' ∧
      (Point.call ⟨b, d, scope, .call name argument, s⟩ copy (fuel + t.passes)).Makes
        (q.call copy' fuel) := by
  cases h with
  | native hc he =>
    refine ⟨_, .inr rfl, .of_stop fun f n hf hstop => ?_⟩
    simp only [Point.call, Session.within] at hstop
    simp [Point.call, hc, he, Run.withBudget, hstop, Session.within]
  | chain hc he =>
    refine ⟨copy, .inl ⟨_, _, rfl⟩, .of_stop fun f n hf hstop => ?_⟩
    simp only [Point.call] at hstop
    simp [Point.call, hc, he, hstop]
  | expanded hc he =>
    refine ⟨_, .inr rfl, .of_stop fun f n hf hstop => ?_⟩
    simp only [Point.call, Session.within] at hstop
    simp [Point.call, hc, he, runBody, Run.withBudget, hstop, Session.within]

/-- In all cases the call that is started is the last one that is made, and if it stops short then
so does what is around it. What came in front of it has ended and is what it is. -/
theorem Starts.makes_of_ne (h : Starts p t q) (hp : ∀ name argument, p.task ≠ .call name argument)
    (fuel : Nat) : (p.call p.budget (fuel + t.passes)).Makes (q.call q.budget fuel) := by
  obtain ⟨b, d, scope, task, s⟩ := q
  refine .of_stop fun f n hf hstop => ?_
  simp only [Point.call] at hf hstop
  cases h with
  | native | chain | expanded => exact absurd rfl (hp _ _)
  | unknown | block | chooseElse | askBudget => simp [Point.call, hstop]
  | first => simp [Point.call, Run.andThen, hstop]
  | rest hrun =>
    have hfirst := (hf _ (by rintro ⟨⟩)).trans (hrun.call_run fuel)
    simp [Point.call, Run.andThen, hfirst, hstop]
  | whilePass hc =>
    have hcheck := Condition.check_of_checkWithin hc
    simp [Point.call, Run.pass, hcheck, hstop]
  | whileAgain hc hrun ho =>
    have hcheck := Condition.check_of_checkWithin hc
    have hbody := (hf _ (by rintro ⟨⟩)).trans (hrun.call_run fuel)
    simp [Point.call, Run.pass, hcheck, hbody, ho, hstop, ← Nat.add_assoc]
  | forEach he => simp [Point.call, he, hstop]
  | eachPass =>
    simp only [Session.within] at hstop
    simp [Point.call, Run.pass, Session.within, hstop]
  | eachNext hrun ho =>
    have hbody := (hf _ (by rintro ⟨⟩)).trans (hrun.call_run fuel)
    simp only [Session.within] at hstop hbody
    simp [Point.call, Run.pass, Session.within, hbody, ho, hstop]
  | chooseHere hc | chooseNext hc =>
    have hcheck := Condition.check_of_checkWithin hc
    simp [Point.call, hcheck, hstop]
  | report | reportError | setVariable =>
    simp only [Session.within, Session.tell] at hstop
    simp [Point.call, Session.within, Session.tell, hstop]
  | runNothing hx | runScript hx => simp [Point.call, hx, hstop]
  | runNext hx hrun =>
    have hscript := (hf _ (by rintro ⟨⟩)).trans (hrun.call_run fuel)
    simp [Point.call, hx, hscript, hstop]

/-- **A point that is started is a call that is made.** -/
theorem Starts.makes (h : Starts p t q) (hcopy : p.Holds copy) (fuel : Nat) :
    ∃ copy', q.Holds copy' ∧ (p.call copy (fuel + t.passes)).Makes (q.call copy' fuel) := by
  by_cases hp : ∃ name argument, p.task = .call name argument
  · obtain ⟨name, argument, htask⟩ := hp
    obtain ⟨b, d, scope, task, s⟩ := p
    cases htask
    exact h.makes_of_name copy fuel
  · obtain rfl : copy = p.budget := hcopy.resolve_left hp
    exact ⟨q.budget, .inr rfl, h.makes_of_ne (fun name argument h => hp ⟨name, argument, h⟩) fuel⟩

variable {body : List Stmt} {m : Machine}

/-- Fuel is burnt on the way, one unit for each pass. -/
theorem Call.OfScript.reaches (h : Reaches p t q) {fuel : Nat} (hcopy : p.Holds copy)
    (hp : OfScript body m (p.call copy (fuel + t.passes))) :
    ∃ copy', q.Holds copy' ∧ OfScript body m (q.call copy' fuel) := by
  induction h generalizing copy with
  | refl p => exact ⟨copy, hcopy, hp⟩
  | @next p q r t u hstart _ ih =>
    rw [Trace.passes_append, Nat.add_comm t.passes, ← Nat.add_assoc] at hp
    obtain ⟨copy', hq, hmakes⟩ := hstart.makes hcopy (fuel + u.passes)
    exact ih hq (hp.next hmakes)

/-- **No call is missing.** Each point that a script gets to is one of its calls, as long as there
is fuel for the passes on the way. -/
theorem Reaches.ofScript (h : Reaches ⟨maxExpansions, 0, .root, .body body, m.session⟩ t q)
    (hfuel : t.passes ≤ m.fuel) :
    ∃ copy, q.Holds copy ∧ Call.OfScript body m (q.call copy (m.fuel - t.passes)) := by
  have hfirst : Call.OfScript body m
      (Point.call ⟨maxExpansions, 0, .root, .body body, m.session⟩ maxExpansions m.fuel) := by
    refine .first (.of_stop fun f n hf hstop => ?_)
    simp only [Point.call, Session.within] at hstop
    simp [Call.unfoldScript, Run.withBudget, hstop]
  refine Call.OfScript.reaches h (.inr rfl) ?_
  rwa [Nat.sub_add_cancel hfuel]

end Points

/-! ### Scripts -/

/-- **The budget in the session counts.** A statement that ends leaves it as it was, whatever its
outcome and whatever was called on the way. And wherever a script gets to, in front of a statement
and in front of what a handler does, it is the number of expansions that are left when those that
are active are taken away. No place is left out by that: each point of a run is one of the calls, if
there is fuel to get there, whether the script comes to an end behind it or not. -/
theorem budget_counts :
    (∀ (x : Stmt) (scope : Scope) (m m' : Machine) (o : Outcome),
      x.exec (expand m.session.budget) scope m = (some o, m') →
        m'.session.budget = m.session.budget) ∧
      (∀ (body : List Stmt) (m : Machine) (c : Call), Call.OfScript body m c →
        ((∃ n, c.task = .handler n) ∨ ∃ x, c.task = .stmt x) →
          c.active ≤ maxExpansions ∧ c.machine.session.budget = maxExpansions - c.active) ∧
      ∀ (body : List Stmt) (m : Machine) (t : Trace) (q : Point),
        Reaches ⟨maxExpansions, 0, .root, .body body, m.session⟩ t q → t.passes ≤ m.fuel →
          ∃ copy, Call.OfScript body m (q.call copy (m.fuel - t.passes)) := by
  refine ⟨?_, ?_, ?_⟩
  · intro x scope m m' o h
    have hrun : (Task.stmt x).run m.session.budget scope m = (some o, m') := h
    exact Task.budget_run (.stmt x) rfl hrun
  · intro body m c hmade htask
    have counts := hmade.counts
    have copy : c.machine.session.budget = c.budget :=
      counts.copy_of_ne (by rcases htask with ⟨n, hn⟩ | ⟨x, hx⟩ <;> simp_all)
    have total := counts.total
    omega
  · intro body m t q hreaches hfuel
    obtain ⟨copy, -, made⟩ := hreaches.ofScript hfuel
    exact ⟨copy, made⟩

/-- A handler that shows how many expansions are left. -/
def asking : Native :=
  .askBudget fun n => .report (toString n) .done

/-- A machine in which `A` stands for `B`, and `B` for a handler that asks. -/
def askingCommand : Machine :=
  let handled : UserCommand := ⟨"B", ⟨0, none⟩, .native fun _ => asking⟩
  ⟨0, { commands := (Registry.empty.define "A" ⟨0, none⟩ "B").insert "B" handled }⟩

/-- The handler behind `A` and `B` finds 98 expansions left, and behind it there are 100 again. -/
theorem budget_counts_askingCommand :
    (∃ m', (Stmt.unknown {} "A" "").exec (expand maxExpansions) .root askingCommand =
      (some .finished, m') ∧ m'.session.budget = 100) ∧
    ∃ (body : List Stmt) (c : Call), Script.parse "A" = .ok body ∧
      Call.OfScript body askingCommand c ∧ c.task = .handler asking ∧ c.active = 2 ∧
        c.machine.session.budget = 98 := by
  obtain ⟨behind, inside, reachable⟩ := budget_counts
  constructor
  · have ended : (Stmt.unknown {} "A" "").exec (expand maxExpansions) .root askingCommand =
        (some .finished,
          ((Stmt.unknown {} "A" "").exec (expand maxExpansions) .root askingCommand).2) :=
      Prod.ext (by decide +kernel) rfl
    exact ⟨_, ended, behind _ _ askingCommand _ _ ended⟩
  · have readable : Script.parse "A" = .ok [.unknown {} "A" ""] := by rfl
    have named : askingCommand.session.commands.expansion "A" "" = .ok (.command "B" "") := by rfl
    have handled : askingCommand.session.commands.expansion "B" "" = .ok (.handler asking) := by rfl
    have reached : Reaches
        ⟨maxExpansions, 0, .root, .body [.unknown {} "A" ""], askingCommand.session⟩ _
        ⟨98, 2, .root, .handler asking, askingCommand.session⟩ :=
      .next .first (.next .unknown (.next (.chain rfl named)
        (.next (.native rfl handled) (.refl _))))
    obtain ⟨copy, made⟩ := reachable _ askingCommand _ _ reached (Nat.le_refl 0)
    exact ⟨_, _, readable, made, rfl, rfl, (inside _ _ _ made (.inl ⟨_, rfl⟩)).2⟩

end ExScript
