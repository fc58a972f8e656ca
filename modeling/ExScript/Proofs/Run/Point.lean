import ExScript.Proofs.Run.Trace

/-!
# The points of a run

A rule of `Runs` speaks of runs that end, so it cannot be used to say where a run is that does not.
For that there are *points*: a task that is about to be run, with the budget, the depth, the scope
and the session it is run in. A point starts others, those of the tasks inside of it, and what
happened in between is a trace. Going from point to point follows a run as far as one likes, whether
it comes to an end or not.

A point has no fuel, and its session need not hold the budget that the functions read there; as in
`Runs`, the budget is an index. What is known of the functions at the points of a run is therefore
said elsewhere: `Proofs/Run/Progress.lean` asks how much fuel it takes to get from one to the next,
and `Proofs/Run/Calls.lean` finds each of them as a call that the functions make, and asks which
budget the session holds there.

## Main definitions

* `Point` — a task and the place where it is about to be run
* `Starts` — what comes before a task that is nested, and behind one that has finished
* `Reaches` — the points of a run
-/

namespace ExScript

/-! ### Points -/

/-- A place in the course of a run: a task that is about to be run. -/
structure Point where
  budget : Nat
  depth : Nat
  scope : Scope
  task : Task
  session : Session

namespace Point

/-- What the functions make of a point with some fuel. -/
def run (p : Point) (fuel : Nat) : Option Outcome × Machine :=
  Run.withBudget p.budget (p.task.run p.budget p.scope) ⟨fuel, p.session⟩

/-- From this point the run ends so. -/
def Ends (p : Point) (t : Trace) (o : Outcome) (s' : Session) : Prop :=
  Runs p.budget p.depth p.scope p.task p.session t o s'

/-- Whether a `:while` is about to ask for its condition. -/
def AtWhile (p : Point) : Prop :=
  ∃ c xs, p.task = .stmt (.whileLoop c xs)

/-- Whether a `:while` is about to begin a pass: its condition holds. -/
def WantsPass (p : Point) : Prop :=
  ∃ c xs s', p.task = .stmt (.whileLoop c xs) ∧
    c.checkWithin p.budget p.scope p.session = (.ok true, s')

theorem WantsPass.atWhile {p : Point} (h : p.WantsPass) : p.AtWhile := by
  obtain ⟨c, xs, -, htask, -⟩ := h
  exact ⟨c, xs, htask⟩

end Point

/-- `Starts p t q`: running the task of `p` comes to running the task of `q`, which is a part of it
or what is left of it, and `t` is what happens before. -/
inductive Starts : Point → Trace → Point → Prop where
  | unknown {b d scope range name argument s} :
    Starts ⟨b, d, scope, .stmt (.unknown range name argument), s⟩ []
      ⟨b, d, scope, .call name argument, s⟩
  -- Sequences
  | block {b d scope xs s} :
    Starts ⟨b, d, scope, .stmt (.block xs), s⟩ [] ⟨b, d, scope, .body xs, s⟩
  | first {b d scope x xs s} :
    Starts ⟨b, d, scope, .body (x :: xs), s⟩ [] ⟨b, d, scope, .stmt x, s⟩
  | rest {b d scope x xs s t s'} :
    Runs b d scope (.stmt x) s t .finished s' →
      Starts ⟨b, d, scope, .body (x :: xs), s⟩ t ⟨b, d, scope, .body xs, s'⟩
  -- `:while`
  | whilePass {b d scope c xs s s₁} :
    c.checkWithin b scope s = (.ok true, s₁) →
      Starts ⟨b, d, scope, .stmt (.whileLoop c xs), s⟩ [.act s, .pass]
        ⟨b, d, scope.enter .loop, .body xs, s₁⟩
  | whileAgain {b d scope c xs s s₁ t o s₂} :
    c.checkWithin b scope s = (.ok true, s₁) → Runs b d (scope.enter .loop) (.body xs) s₁ t o s₂ →
      o.inLoop = .next →
      Starts ⟨b, d, scope, .stmt (.whileLoop c xs), s⟩ (.act s :: .pass :: t)
        ⟨b, d, scope, .stmt (.whileLoop c xs), s₂⟩
  -- `:for`
  | forEach {b d scope name e xs s values} :
    itemsOf e s.vars = .ok values →
      Starts ⟨b, d, scope, .stmt (.forLoop name e xs), s⟩ [.act s]
        ⟨b, d, scope, .each name xs values, s⟩
  | eachPass {b d scope name xs v values s} :
    Starts ⟨b, d, scope, .each name xs (v :: values), s⟩ [.act s]
      ⟨b, d, scope.enter .loop, .body xs, { s with vars := s.vars.set name v }⟩
  | eachNext {b d scope name xs v values s t o s₁} :
    Runs b d (scope.enter .loop) (.body xs) { s with vars := s.vars.set name v } t o s₁ →
      o.inLoop = .next →
      Starts ⟨b, d, scope, .each name xs (v :: values), s⟩ (.act s :: t)
        ⟨b, d, scope, .each name xs values, s₁⟩
  -- `:if`
  | chooseElse {b d scope xs s} :
    Starts ⟨b, d, scope, .stmt (.choose [] (some xs)), s⟩ []
      ⟨b, d, scope.enter .conditional, .body xs, s⟩
  | chooseHere {b d scope c xs branches otherwise s s₁} :
    c.checkWithin b scope s = (.ok true, s₁) →
      Starts ⟨b, d, scope, .stmt (.choose ((c, xs) :: branches) otherwise), s⟩ [.act s]
        ⟨b, d, scope.enter .conditional, .body xs, s₁⟩
  | chooseNext {b d scope c xs branches otherwise s s₁} :
    c.checkWithin b scope s = (.ok false, s₁) →
      Starts ⟨b, d, scope, .stmt (.choose ((c, xs) :: branches) otherwise), s⟩ [.act s]
        ⟨b, d, scope, .stmt (.choose branches otherwise), s₁⟩
  -- Commands with unknown names
  | native {b d scope name argument s n} :
    s.commands.isCallable name = true →
      s.commands.expansion name argument = .ok (.handler n) →
      Starts ⟨b + 1, d, scope, .call name argument, s⟩ [.attempt name (d + 1) s]
        ⟨b, d + 1, scope, .handler n, s⟩
  | chain {b d scope name argument s next argument'} :
    s.commands.isCallable name = true →
      s.commands.expansion name argument = .ok (.command next argument') →
      Starts ⟨b + 1, d, scope, .call name argument, s⟩ [.attempt name (d + 1) s]
        ⟨b, d + 1, scope, .call next argument', s⟩
  | expanded {b d scope name argument s x} :
    s.commands.isCallable name = true → s.commands.expansion name argument = .ok (.body x) →
      Starts ⟨b + 1, d, scope, .call name argument, s⟩ [.attempt name (d + 1) s]
        ⟨b, d + 1, scope, .stmt x, s⟩
  -- Handlers
  | report {b d scope text next s} :
    Starts ⟨b, d, scope, .handler (.report text next), s⟩ []
      ⟨b, d, scope, .handler next, s.tell (.report text)⟩
  | reportError {b d scope cause next s} :
    Starts ⟨b, d, scope, .handler (.reportError cause next), s⟩ []
      ⟨b, d, scope, .handler next, s.tell (.error cause)⟩
  | setVariable {b d scope name v next s} :
    Starts ⟨b, d, scope, .handler (.setVariable name v next), s⟩ []
      ⟨b, d, scope, .handler next, { s with vars := s.vars.set name v }⟩
  | askBudget {b d scope next s} :
    Starts ⟨b, d, scope, .handler (.askBudget next), s⟩ [] ⟨b, d, scope, .handler (next b), s⟩
  | runNothing {b d scope text next s} :
    Script.parseCommand? text = none →
      Starts ⟨b, d, scope, .handler (.run text next), s⟩ []
        ⟨b, d, scope, .handler (next none), s⟩
  | runScript {b d scope text next x s} :
    Script.parseCommand? text = some x →
      Starts ⟨b, d, scope, .handler (.run text next), s⟩ [] ⟨b, d, .root, .stmt x, s⟩
  | runNext {b d scope text next x s t o s₁} :
    Script.parseCommand? text = some x → Runs b d .root (.stmt x) s t o s₁ →
      Starts ⟨b, d, scope, .handler (.run text next), s⟩ t
        ⟨b, d, scope, .handler (next (some o)), s₁⟩

/-- The points that a run gets to, with what happens on the way. -/
inductive Reaches : Point → Trace → Point → Prop where
  | refl (p) : Reaches p [] p
  | next {p q r t u} : Starts p t q → Reaches q u r → Reaches p (t ++ u) r

end ExScript
