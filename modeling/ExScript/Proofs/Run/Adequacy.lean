import ExScript.Proofs.Run.Budget

/-!
# The rules and the functions agree

A run comes to an end in the sense of `Runs` exactly if the function that runs the task gives an
outcome, and the fuel that it burns is the number of passes in the trace. So statements about
terminating runs can be proved by induction on the rules, without fuel, and hold of the functions.

One direction follows the recursion of the functions: the budget, inside of it the structure of the
statements, and inside of that the passes of a `:while`. The other is an induction on the rules.

## Why both directions

Each of them is used for itself. What a function gave is taken apart by the rules: a statement about
all runs of scripts begins with `withBudget_run_iff` from left to right and goes on by induction on
a derivation, which has one case for each way to run something and no fuel in it. And what the rules
allow the functions do: a run that is put together from others, as where a budget is made smaller
(`Proofs/Run/Depth.lean`) or a text is put in the place of a name (`Proofs/Run/Inline.lean`), is a
result of the functions by the other direction. If the rules were wrong in what they leave out, the
first would fail, and if they allowed too much, the second.

## The copy of the budget

The functions read the budget in the session and the rules have it as an index. The two agree where
the copy is right, and the functions see to that, but not everywhere: along a chain of user commands
the copy is out of date until something is run. So the directions are stated in such a way that the
copy can be anything where it is not read.

* From the functions to the rules, the hypothesis is that the copy is right, except for names, which
  do not ask for it; the conclusion holds with any copy put in (`Described`).
* From the rules to the functions, the copy that is right is put in, and for names any
  (`Task.Ends`).

With `Run.withBudget` around a task the two forms come to the same, since it puts the copy in and
takes it out. This is the form of the main result, and it has no hypotheses.

## Fuel

The trace counts passes, and a run burns as much. Into the functions goes the fuel that is left and
what is burnt, so that any fuel that is large enough leads to the same outcome. A `:while` is given
its fuel as a number of passes as well, and needs to know that a larger number does not change what
it does (`repeatWhile_of_le`).

## Main results

* `withBudget_run_iff` — the rules describe the functions
* `Runs.functional` — a task has one outcome at most
-/

namespace ExScript

/-! ### From the functions to the rules

The lemmas have the shape of the functions, one for each of them, and the same parameters: what a
body does in a loop, what a caller does with a name. In each the result is split as the function
splits it, and the case says which rule it is. -/

/-- The rules lead from one machine to another. The budget in the session is left as it was, and the
run is the same whatever copy of it the sessions hold. -/
structure Described (b d : Nat) (scope : Scope) (task : Task) (m : Machine) (o : Outcome)
    (m' : Machine) : Prop where
  /-- The copy is what it was. -/
  budget : m'.session.budget = m.session.budget
  /-- There is a derivation for each copy `k`, and it has a pass for each unit of fuel that was
  burnt. -/
  runs (k : Nat) : ∃ t, Runs b d scope task (m.session.within k) t o (m'.session.within k) ∧
    m.fuel = m'.fuel + t.passes

section Sound

variable {b d : Nat} {call : Caller} {scope : Scope} {m m' : Machine} {o : Outcome}

/-- A `:while`, by induction on how many passes it may make. The rules know it only together with
its body, so the pass that was made and the passes behind it are two derivations that make a
third. -/
theorem described_repeatWhile {c : Condition} {xs : List Stmt} {body : Run}
    (hbody : ∀ {m o m'}, m.session.budget = b → body m = (some o, m') →
      Described b d (scope.enter .loop) (.body xs) m o m') :
    ∀ (n : Nat) {m : Machine}, m.session.budget = b →
      repeatWhile (c.check scope) body n m = (some o, m') →
        Described b d scope (.stmt (.whileLoop c xs)) m o m' := by
  intro n
  induction n using Nat.strongRecOn with
  | ind n ih =>
    intro m hm h
    rw [repeatWhile.eq_def] at h
    dsimp only at h
    split at h
    next e s₁ hc =>
      obtain ⟨hs, hw⟩ := Condition.check_eq hc hm
      cases h
      exact ⟨hs.trans hm.symm, fun k => ⟨_, .whileFail (hw k), rfl⟩⟩
    next s₁ hc =>
      obtain ⟨hs, hw⟩ := Condition.check_eq hc hm
      cases h
      exact ⟨hs.trans hm.symm, fun k => ⟨_, .whileEnd (hw k), rfl⟩⟩
    next s₁ hc =>
      obtain ⟨hs, hw⟩ := Condition.check_eq hc hm
      split at h
      next fuel hf =>
        split at h
        · cases h
        next o₁ m₁ hr =>
          have hb := hbody (m := ⟨fuel, s₁⟩) hs hr
          split at h
          next ho =>
            have hl := ih _ (Nat.lt_succ_self _) (hb.budget.trans hs) h
            refine ⟨hl.budget.trans (hb.budget.trans (hs.trans hm.symm)), fun k => ?_⟩
            obtain ⟨t, ht, htf⟩ := hb.runs k
            obtain ⟨u, hu, huf⟩ := hl.runs k
            refine ⟨_, .whileNext (hw k) ht ho hu, ?_⟩
            simp only [Trace.passes_act, Trace.passes_pass, Trace.passes_append]
            dsimp only at htf
            omega
          next o₂ ho =>
            cases h
            refine ⟨hb.budget.trans (hs.trans hm.symm), fun k => ?_⟩
            obtain ⟨t, ht, htf⟩ := hb.runs k
            refine ⟨_, .whileExit (hw k) ht ho, ?_⟩
            simp only [Trace.passes_act, Trace.passes_pass]
            dsimp only at htf
            omega
      · cases h

/-- A `:for`, by induction on the values that are left. No fuel is burnt for its passes. -/
theorem described_repeatFor {name : String} {xs : List Stmt} {body : Run}
    (hbody : ∀ {m o m'}, m.session.budget = b → body m = (some o, m') →
      Described b d (scope.enter .loop) (.body xs) m o m') :
    ∀ (values : List Value) {m : Machine}, m.session.budget = b →
      repeatFor name body values m = (some o, m') →
        Described b d scope (.each name xs values) m o m' := by
  intro values
  induction values with
  | nil =>
    intro m hm h
    cases h
    exact ⟨rfl, fun k => ⟨_, .eachEnd, rfl⟩⟩
  | cons v values ih =>
    intro m hm h
    rw [repeatFor] at h
    split at h
    · cases h
    next o₁ m₁ hr =>
      have hb := hbody (m := { m with session := { m.session with vars := m.session.vars.set name v } })
        hm hr
      split at h
      next ho =>
        have hl := ih (hb.budget.trans hm) h
        refine ⟨hl.budget.trans hb.budget, fun k => ?_⟩
        obtain ⟨t, ht, htf⟩ := hb.runs k
        obtain ⟨u, hu, huf⟩ := hl.runs k
        refine ⟨_, .eachNext ht ho hu, ?_⟩
        simp only [Trace.passes_act, Trace.passes_append]
        dsimp only at htf
        omega
      next o₂ ho =>
        cases h
        refine ⟨hb.budget, fun k => ?_⟩
        obtain ⟨t, ht, htf⟩ := hb.runs k
        exact ⟨_, .eachExit ht ho, htf⟩

/-- What a caller does, the rules do. -/
def Caller.Described (b d : Nat) (call : Caller) : Prop :=
  ∀ {name argument scope m o m'}, call name argument scope m = (some o, m') →
    ExScript.Described b d scope (.call name argument) m o m'

mutual

/-- A statement, by its structure. What the names in it do is a hypothesis, because it is not a part
of the structure. -/
theorem Stmt.described_exec (hcall : call.Described b d) {scope : Scope} {m m' : Machine}
    {o : Outcome} :
    (x : Stmt) → m.session.budget = b → x.exec call scope m = (some o, m') →
      Described b d scope (.stmt x) m o m'
  | .simple c, hm, h => by
    cases h
    refine ⟨c.run_budget scope m.session, fun k => ?_⟩
    have hr : Runs b d scope (.stmt (.simple c)) (m.session.within k) _ _ _ := .simple
    rw [c.run_within] at hr
    exact ⟨_, hr, by simp⟩
  | .hook hk, hm, h => by
    cases h
    refine ⟨hk.run_budget scope m.session, fun k => ?_⟩
    have hr : Runs b d scope (.stmt (.hook hk)) (m.session.within k) _ _ _ := .hook
    rw [Hook.runWithin_within hm] at hr
    exact ⟨_, hr, by simp⟩
  | .unknown range name argument, hm, h => by
    have hc := hcall h
    exact ⟨hc.budget, fun k => (hc.runs k).imp fun _ ht => ⟨.unknown ht.1, ht.2⟩⟩
  | .block xs, hm, h => by
    have hb := Stmt.described_execAll hcall xs hm h
    exact ⟨hb.budget, fun k => (hb.runs k).imp fun _ ht => ⟨.block ht.1, ht.2⟩⟩
  | .whileLoop c xs, hm, h => described_repeatWhile (Stmt.described_execAll hcall xs) _ hm h
  | .forLoop name e xs, hm, h => by
    rw [Stmt.exec] at h
    split at h
    next err he =>
      cases h
      exact ⟨rfl, fun k => ⟨_, .forFail he, rfl⟩⟩
    next values he =>
      have hb := described_repeatFor (Stmt.described_execAll hcall xs) values hm h
      exact ⟨hb.budget, fun k => (hb.runs k).elim fun _ ht => ⟨_, .forEach he ht.1, ht.2⟩⟩
  | .choose branches otherwise, hm, h =>
    Stmt.described_execFirst hcall branches (Stmt.described_execOtherwise hcall otherwise) hm h

/-- Statements one after the other. The one in front either finishes, and the others are run, or its
outcome is that of all of them. -/
theorem Stmt.described_execAll (hcall : call.Described b d) {scope : Scope} {m m' : Machine}
    {o : Outcome} :
    (xs : List Stmt) → m.session.budget = b → Stmt.execAll call xs scope m = (some o, m') →
      Described b d scope (.body xs) m o m'
  | [], hm, h => by
    cases h
    exact ⟨rfl, fun k => ⟨_, .nil, rfl⟩⟩
  | x :: xs, hm, h => by
    rw [Stmt.execAll] at h
    split at h
    next m₁ hx =>
      have hb := Stmt.described_exec hcall x hm hx
      have hl := Stmt.described_execAll hcall xs (hb.budget.trans hm) h
      refine ⟨hl.budget.trans hb.budget, fun k => ?_⟩
      obtain ⟨t, ht, htf⟩ := hb.runs k
      obtain ⟨u, hu, huf⟩ := hl.runs k
      exact ⟨_, .cons ht hu, by rw [Trace.passes_append]; omega⟩
    next hne =>
      have hb := Stmt.described_exec hcall x hm h
      refine ⟨hb.budget, fun k => (hb.runs k).imp fun _ ht => ⟨.stop ht.1 ?_, ht.2⟩⟩
      rintro rfl
      exact hne _ h

/-- What is run if no condition holds is what is left of an `:if` without branches. -/
theorem Stmt.described_execOtherwise (hcall : call.Described b d) {scope : Scope} {m m' : Machine}
    {o : Outcome} :
    (otherwise : Option (List Stmt)) → m.session.budget = b →
      Stmt.execOtherwise call otherwise (scope.enter .conditional) m = (some o, m') →
      Described b d scope (.stmt (.choose [] otherwise)) m o m'
  | none, hm, h => by
    cases h
    exact ⟨rfl, fun k => ⟨_, .chooseNone, rfl⟩⟩
  | some xs, hm, h => by
    have hb := Stmt.described_execAll hcall xs hm h
    exact ⟨hb.budget, fun k => (hb.runs k).imp fun _ ht => ⟨.chooseElse ht.1, ht.2⟩⟩

/-- The branches of an `:if`. One whose condition does not hold leaves an `:if` with the others. -/
theorem Stmt.described_execFirst (hcall : call.Described b d) {scope : Scope} {other : Run}
    {otherwise : Option (List Stmt)} {m m' : Machine} {o : Outcome} :
    (branches : List (Condition × List Stmt)) →
      (∀ {m o m'}, m.session.budget = b → other m = (some o, m') →
        Described b d scope (.stmt (.choose [] otherwise)) m o m') →
      m.session.budget = b → Stmt.execFirst call branches scope other m = (some o, m') →
      Described b d scope (.stmt (.choose branches otherwise)) m o m'
  | [], hother, hm, h => hother hm h
  | (c, xs) :: branches, hother, hm, h => by
    rw [Stmt.execFirst] at h
    split at h
    next e s₁ hc =>
      obtain ⟨hs, hw⟩ := Condition.check_eq hc hm
      cases h
      exact ⟨hs.trans hm.symm, fun k => ⟨_, .chooseFail (hw k), rfl⟩⟩
    next s₁ hc =>
      obtain ⟨hs, hw⟩ := Condition.check_eq hc hm
      have hb := Stmt.described_execAll hcall (m := { m with session := s₁ }) xs hs h
      exact ⟨hb.budget.trans (hs.trans hm.symm), fun k =>
        (hb.runs k).elim fun _ ht => ⟨_, .chooseHere (hw k) ht.1, ht.2⟩⟩
    next s₁ hc =>
      obtain ⟨hs, hw⟩ := Condition.check_eq hc hm
      have hb := Stmt.described_execFirst hcall (m := { m with session := s₁ }) branches hother hs h
      exact ⟨hb.budget.trans (hs.trans hm.symm), fun k =>
        (hb.runs k).elim fun _ ht => ⟨_, .chooseNext (hw k) ht.1, ht.2⟩⟩

end

/-- A handler runs scripts as statements of their own, outside of all loops. -/
theorem described_perform {exec : Stmt → Run}
    (hexec : ∀ {x m o m'}, m.session.budget = b → exec x m = (some o, m') →
      Described b d .root (.stmt x) m o m') (n : Native) :
    ∀ {m : Machine}, m.session.budget = b → n.perform exec m = (some (), m') →
      Described b d scope (.handler n) m .finished m' := by
  induction n with
  | done =>
    intro m hm h
    cases h
    exact ⟨rfl, fun k => ⟨_, .done, rfl⟩⟩
  | report text next ih =>
    intro m hm h
    have hn := ih (m := { m with session := m.session.tell (.report text) }) hm h
    exact ⟨hn.budget, fun k => (hn.runs k).imp fun _ ht => ⟨.report ht.1, ht.2⟩⟩
  | reportError cause next ih =>
    intro m hm h
    have hn := ih (m := { m with session := m.session.tell (.error cause) }) hm h
    exact ⟨hn.budget, fun k => (hn.runs k).imp fun _ ht => ⟨.reportError ht.1, ht.2⟩⟩
  | setVariable name v next ih =>
    intro m hm h
    have hn := ih (m := { m with session := { m.session with vars := m.session.vars.set name v } })
      hm h
    exact ⟨hn.budget, fun k => (hn.runs k).imp fun _ ht => ⟨.setVariable ht.1, ht.2⟩⟩
  | askBudget next ih =>
    intro m hm h
    rw [Native.perform, hm] at h
    have hn := ih b hm h
    exact ⟨hn.budget, fun k => (hn.runs k).imp fun _ ht => ⟨.askBudget ht.1, ht.2⟩⟩
  | run text next ih =>
    intro m hm h
    rw [Native.perform] at h
    split at h
    next hx =>
      have hn := ih none hm h
      exact ⟨hn.budget, fun k => (hn.runs k).imp fun _ ht => ⟨.runNothing hx ht.1, ht.2⟩⟩
    next x hx =>
      split at h
      · cases h
      next o₁ m₁ hr =>
        have hb := hexec hm hr
        have hn := ih (some o₁) (hb.budget.trans hm) h
        refine ⟨hn.budget.trans hb.budget, fun k => ?_⟩
        obtain ⟨t, ht, htf⟩ := hb.runs k
        obtain ⟨u, hu, huf⟩ := hn.runs k
        exact ⟨_, .runScript hx ht hu, by rw [Trace.passes_append]; omega⟩

/-- A handler finishes when all is done that it asks for. -/
theorem described_native_exec {exec : Stmt → Run}
    (hexec : ∀ {x m o m'}, m.session.budget = b → exec x m = (some o, m') →
      Described b d .root (.stmt x) m o m') {n : Native} (hm : m.session.budget = b)
    (h : n.exec exec m = (some o, m')) : Described b d scope (.handler n) m o m' := by
  rw [Native.exec] at h
  split at h
  · cases h
  next hp =>
    cases h
    exact described_perform hexec n hm hp

/-- With a budget put in for the time of a run, no copy of it is asked for. -/
theorem described_withBudget {task : Task} {r : Run}
    (hr : ∀ {m o m'}, m.session.budget = b → r m = (some o, m') → Described b d scope task m o m')
    (h : Run.withBudget b r m = (some o, m')) : Described b d scope task m o m' := by
  simp only [Run.withBudget, Prod.mk.injEq] at h
  obtain ⟨ho, rfl⟩ := h
  have hd := hr (m := { m with session := m.session.within b }) rfl (Prod.ext ho rfl)
  exact ⟨rfl, hd.runs⟩

/-- What a name does depends on the budget it is expanded with, not on the one in the session. The
induction is on the budget and reaches all that is run inside: a text is described by the induction
hypothesis for the names in it. The copy of the budget needs no hypothesis here, which is what makes
chains go through. -/
theorem described_expand (b : Nat) : ∀ {d : Nat} {name argument : String} {scope : Scope}
    {m m' : Machine} {o : Outcome}, expand b name argument scope m = (some o, m') →
      Described b d scope (.call name argument) m o m' := by
  induction b with
  -- Without a budget nothing is expanded, so no text and no handler comes up.
  | zero =>
    intro d name argument scope m m' o h
    rw [expand] at h
    split at h
    next hc =>
      cases h
      exact ⟨rfl, fun k => ⟨_, .notCallable (by simpa using hc), rfl⟩⟩
    next hc =>
      cases h
      exact ⟨rfl, fun k => ⟨_, .tooDeep (by simpa using hc), rfl⟩⟩
  | succ b ih =>
    intro d name argument scope m m' o h
    rw [expand] at h
    split at h
    next hc =>
      cases h
      exact ⟨rfl, fun k => ⟨_, .notCallable (by simpa using hc), rfl⟩⟩
    next hc =>
      replace hc : m.session.commands.isCallable name = true := by simpa using hc
      split at h
      next e he =>
        cases h
        exact ⟨rfl, fun k => ⟨_, .notExpanded hc he, rfl⟩⟩
      next n he =>
        have hn : Described b (d + 1) scope (.handler n) m o m' :=
          described_withBudget (fun hm => described_native_exec (Stmt.described_exec ih _) hm) h
        exact ⟨hn.budget, fun k => (hn.runs k).elim fun _ ht => ⟨_, .native hc he ht.1, ht.2⟩⟩
      -- A chain has no session of its own, and its copy is that of the name in front.
      next next argument' he =>
        have hn := ih (d := d + 1) h
        exact ⟨hn.budget, fun k => (hn.runs k).elim fun _ ht => ⟨_, .chain hc he ht.1, ht.2⟩⟩
      next x he =>
        rw [runBody] at h
        split at h
        · cases h
        next o₁ m₁ hr =>
          have hb : Described b (d + 1) scope (.stmt x) m o₁ m₁ :=
            described_withBudget (Stmt.described_exec ih x) hr
          cases h
          refine ⟨(absorb_budget o₁ _).trans hb.budget, fun k => (hb.runs k).elim fun _ ht => ?_⟩
          have hr := Runs.expanded (s := m.session.within k) hc he ht.1
          rw [absorb_within] at hr
          exact ⟨_, hr, ht.2⟩

/-- What a task does, the rules do, if names take their budget from the session. -/
theorem Task.described_run {b d : Nat} {scope : Scope} {task : Task} {m m' : Machine} {o : Outcome}
    (hm : m.session.budget = b) (h : task.run b scope m = (some o, m')) :
    Described b d scope task m o m' := by
  cases task with
  | stmt x => exact Stmt.described_exec (described_expand b) x hm h
  | body xs => exact Stmt.described_execAll (described_expand b) xs hm h
  | each name xs values =>
    exact described_repeatFor (Stmt.described_execAll (described_expand b) xs) values hm h
  | call name argument => exact described_expand b h
  | handler n => exact described_native_exec (Stmt.described_exec (described_expand b) _) hm h

end Sound

/-! ### From the rules to the functions

Here the fuel has to be found. A derivation says how many passes there are, so the functions are
started with these and with any number more, which is left at the end. -/

/-- More passes do not change what a loop that ends does. -/
theorem repeatWhile_of_le {test : Session → Except Error Bool × Session} {body : Run} {o : Outcome}
    {m' : Machine} : ∀ {n k : Nat} {m : Machine}, n ≤ k → repeatWhile test body n m = (some o, m') →
      repeatWhile test body k m = (some o, m') := by
  intro n
  induction n with
  | zero =>
    intro k m _ h
    rw [repeatWhile] at h
    rw [repeatWhile.eq_def]
    dsimp only
    split at h
    · exact h
    · exact h
    · cases h
  | succ n ih =>
    intro k m hk h
    obtain ⟨k, rfl⟩ : ∃ j, k = j + 1 := ⟨k - 1, by omega⟩
    rw [repeatWhile] at h ⊢
    split at h
    · exact h
    · exact h
    next s₁ hc =>
      cases hf : m.fuel with
      | zero => simp [hf] at h
      | succ fuel =>
        simp only [hf] at h ⊢
        split at h
        · cases h
        next o₁ m₁ hr =>
          split at h
          · exact ih (by omega) h
          · exact h

/-- What a run does with the right copy it does within the budget, on a machine with any copy. -/
theorem Run.withBudget_within {b k f f' : Nat} {r : Run} {s s' : Session} {o : Outcome}
    (h : r ⟨f, s.within b⟩ = (some o, ⟨f', s'.within b⟩)) :
    Run.withBudget b r ⟨f, s.within k⟩ = (some o, ⟨f', s'.within k⟩) := by
  simp only [Session.within] at h
  simp only [Run.withBudget, Session.within, h]

/-- A task ends so, with any fuel left that was not burnt. What a name does is the same whatever
copy of the budget the session holds. -/
def Task.Ends (b : Nat) (scope : Scope) (s : Session) (passes : Nat) (o : Outcome) (s' : Session) :
    Task → Prop
  | .call name argument => ∀ k fuel,
    expand b name argument scope ⟨fuel + passes, s.within k⟩ = (some o, ⟨fuel, s'.within k⟩)
  | task => ∀ fuel, task.run b scope ⟨fuel + passes, s.within b⟩ = (some o, ⟨fuel, s'.within b⟩)

/-- A run by the rules is what the functions do. The induction is on the derivation, and where two
runs follow each other, the first is given the fuel of both. -/
theorem Runs.ends {b d : Nat} {scope : Scope} {task : Task} {s s' : Session} {t : Trace}
    {o : Outcome} (h : Runs b d scope task s t o s') : task.Ends b scope s t.passes o s' := by
  induction h with
  -- Statements that hold no others
  | simple =>
    intro fuel
    simp only [Task.run, Stmt.exec, Run.ofSession, Command.run_within, Trace.passes_act,
      Outcome.passes_origins, Nat.add_zero]
  | hook =>
    intro fuel
    simp only [Task.run, Stmt.exec, Run.ofSession, Hook.run_within, Trace.passes_act,
      Outcome.passes_origins, Nat.add_zero]
  | unknown _ ih => exact fun fuel => ih _ fuel
  -- Sequences
  | block _ ih => exact ih
  | nil => intro fuel; rfl
  | @cons b d scope x xs s t s' u o s'' _ _ ihx ihxs =>
    intro fuel
    have hx := ihx (fuel + u.passes)
    simp only [Task.run] at hx ⊢
    rw [Trace.passes_append, Nat.add_comm t.passes, ← Nat.add_assoc, Stmt.execAll, hx]
    exact ihxs fuel
  | stop _ ho ih =>
    intro fuel
    have hx := ih fuel
    simp only [Task.run] at hx ⊢
    rw [Stmt.execAll, hx]
    split
    next he =>
      cases he
      exact absurd rfl ho
    · rfl
  -- `:while`
  | whileFail hc =>
    intro fuel
    simp only [Task.run, Stmt.exec]
    rw [repeatWhile.eq_def]
    simp only [Condition.check_of_checkWithin hc]
    rfl
  | whileEnd hc =>
    intro fuel
    simp only [Task.run, Stmt.exec]
    rw [repeatWhile.eq_def]
    simp only [Condition.check_of_checkWithin hc]
    rfl
  | @whileNext b d scope c xs s s₁ t o s₂ u o' s' hc _ ho _ ihb ihl =>
    intro fuel
    have hb := ihb (fuel + u.passes)
    have hl := ihl fuel
    simp only [Task.run, Stmt.exec] at hb hl ⊢
    rw [Trace.passes_act, Trace.passes_pass, Trace.passes_append,
      show fuel + (t.passes + u.passes + 1) = fuel + u.passes + t.passes + 1 by omega,
      repeatWhile]
    simp only [Condition.check_of_checkWithin hc, hb, ho]
    -- The passes behind were made by a loop that was given fewer of them.
    exact repeatWhile_of_le (by omega) hl
  | @whileExit b d scope c xs s s₁ t o s' o' hc _ ho ihb =>
    intro fuel
    have hb := ihb fuel
    simp only [Task.run, Stmt.exec] at hb ⊢
    rw [Trace.passes_act, Trace.passes_pass, ← Nat.add_assoc, repeatWhile]
    simp only [Condition.check_of_checkWithin hc, hb, ho]
  -- `:for`
  | forFail he =>
    intro fuel
    simp only [Task.run, Stmt.exec, Session.within_vars, he]
    rfl
  | forEach he _ ih =>
    intro fuel
    simp only [Task.run, Stmt.exec, Session.within_vars, he]
    exact ih fuel
  | eachEnd => intro fuel; rfl
  | @eachNext b d scope name xs v values s t o s₁ u o' s' _ ho _ ihb ihl =>
    intro fuel
    have hb := ihb (fuel + u.passes)
    have hl := ihl fuel
    simp only [Task.run] at hb hl ⊢
    rw [Trace.passes_act, Trace.passes_append, Nat.add_comm t.passes, ← Nat.add_assoc, repeatFor]
    dsimp only [Session.within] at hb ⊢
    simp only [hb, ho]
    exact hl
  | eachExit _ ho ihb =>
    intro fuel
    have hb := ihb fuel
    simp only [Task.run] at hb ⊢
    rw [Trace.passes_act, repeatFor]
    dsimp only [Session.within] at hb ⊢
    simp only [hb, ho]
  -- `:if`
  | chooseNone => intro fuel; rfl
  | chooseElse _ ih => exact ih
  | chooseFail hc =>
    intro fuel
    simp only [Task.run, Stmt.exec, Stmt.execFirst, Condition.check_of_checkWithin hc]
    rfl
  | chooseHere hc _ ih =>
    intro fuel
    simp only [Task.run, Stmt.exec, Stmt.execFirst, Condition.check_of_checkWithin hc]
    exact ih fuel
  | chooseNext hc _ ih =>
    intro fuel
    simp only [Task.run, Stmt.exec, Stmt.execFirst, Condition.check_of_checkWithin hc]
    exact ih fuel
  -- Commands with unknown names, on a machine with any copy
  | notCallable hc =>
    intro k fuel
    rw [expand.eq_def]
    simp [hc]
  | tooDeep hc =>
    intro k fuel
    simp [expand, hc]
  | notExpanded hc he =>
    intro k fuel
    simp [expand, hc, he]
  | native hc he _ ih =>
    intro k fuel
    simp only [expand, Session.within_commands, hc, he, Trace.passes_attempt]
    exact Run.withBudget_within (ih fuel)
  | chain hc he _ ih =>
    intro k fuel
    simp only [expand, Session.within_commands, hc, he, Trace.passes_attempt]
    exact ih k fuel
  | expanded hc he _ ih =>
    intro k fuel
    simp only [expand, Session.within_commands, hc, he, Trace.passes_attempt]
    have hb := Run.withBudget_within (k := k) (ih fuel)
    simp only [Task.run] at hb
    simp [runBody, hb, Run.ofSession, absorb_within]
  -- Handlers
  | done => intro fuel; rfl
  | report _ ih => exact ih
  | reportError _ ih => exact ih
  | setVariable _ ih => exact ih
  | askBudget _ ih => exact ih
  | runNothing hx _ ih =>
    intro fuel
    have hn := ih fuel
    simp only [Task.run, Native.exec, Native.perform, hx] at hn ⊢
    exact hn
  | @runScript b d scope text next x s t o s₁ u o' s' hx _ _ ihb ihn =>
    intro fuel
    have hb := ihb (fuel + u.passes)
    have hn := ihn fuel
    simp only [Task.run, Native.exec, Native.perform, hx] at hb hn ⊢
    rw [Trace.passes_append, Nat.add_comm t.passes, ← Nat.add_assoc, hb]
    exact hn

/-- In particular on a machine with the right copy, for names too. -/
theorem Task.Ends.run {b passes : Nat} {scope : Scope} {task : Task} {s s' : Session}
    {o : Outcome} (h : task.Ends b scope s passes o s') (fuel : Nat) :
    task.run b scope ⟨fuel + passes, s.within b⟩ = (some o, ⟨fuel, s'.within b⟩) := by
  cases task with
  | call name argument => exact h b fuel
  | _ => exact h fuel

/-! ### Adequacy

What is left is to take the copies out again. -/

/-- The sessions of a run keep their copy of the budget. Each rule leaves it where it was, or puts
it back. -/
theorem Runs.budget_eq {b d : Nat} {scope : Scope} {task : Task} {s s' : Session} {t : Trace}
    {o : Outcome} (h : Runs b d scope task s t o s') : s'.budget = s.budget := by
  induction h with
  | simple => exact Command.run_budget ..
  | hook => rfl
  | whileFail hc => exact Condition.budget_of_checkWithin hc
  | whileEnd hc => exact Condition.budget_of_checkWithin hc
  | whileNext hc _ _ _ ihb ihl => exact ihl.trans (ihb.trans (Condition.budget_of_checkWithin hc))
  | whileExit hc _ _ ihb => exact ihb.trans (Condition.budget_of_checkWithin hc)
  | chooseFail hc => exact Condition.budget_of_checkWithin hc
  | chooseHere hc _ ih => exact ih.trans (Condition.budget_of_checkWithin hc)
  | chooseNext hc _ ih => exact ih.trans (Condition.budget_of_checkWithin hc)
  | expanded _ _ _ ih => exact (absorb_budget ..).trans ih
  | cons _ _ ih₁ ih₂ => exact ih₂.trans ih₁
  | eachNext _ _ _ ih₁ ih₂ => exact ih₂.trans ih₁
  | runScript _ _ _ ih₁ ih₂ => exact ih₂.trans ih₁
  | stop _ _ ih | eachExit _ _ ih | forEach _ _ ih | runNothing _ _ ih => exact ih
  | unknown _ ih | block _ ih | chooseElse _ ih | report _ ih | reportError _ ih => exact ih
  | setVariable _ ih | askBudget _ ih | native _ _ _ ih | chain _ _ _ ih => exact ih
  | nil | forFail | eachEnd | chooseNone | notCallable | tooDeep | notExpanded | done => rfl

/-- A task has one outcome at most, and leaves one session after one number of passes: the function
that runs it has no choice. -/
theorem Runs.functional {b d : Nat} {scope : Scope} {task : Task} {s s₁ s₂ : Session}
    {t₁ t₂ : Trace} {o₁ o₂ : Outcome} (h₁ : Runs b d scope task s t₁ o₁ s₁)
    (h₂ : Runs b d scope task s t₂ o₂ s₂) : o₁ = o₂ ∧ s₁ = s₂ ∧ t₁.passes = t₂.passes := by
  have e₁ := h₁.ends.run t₂.passes
  have e₂ := h₂.ends.run t₁.passes
  rw [Nat.add_comm, e₁] at e₂
  simp only [Prod.mk.injEq, Option.some.injEq, Machine.mk.injEq] at e₂
  obtain ⟨ho, hpasses, hs⟩ := e₂
  refine ⟨ho, ?_, hpasses.symm⟩
  have within := congrArg (Session.within s.budget) hs
  rwa [Session.within_within, Session.within_within, Session.within_of_eq h₁.budget_eq,
    Session.within_of_eq h₂.budget_eq] at within

/-- **The rules describe the functions.** Within a budget, a task has an outcome exactly if it runs
to it by the rules, and its trace holds as many passes as fuel was burnt. The depth is free, because
it is written into the trace and decides nothing. The sessions are those of the machines as they
are, with whatever copy of the budget they hold. -/
theorem withBudget_run_iff {b : Nat} (d : Nat) {scope : Scope} (task : Task) {m m' : Machine}
    {o : Outcome} : Run.withBudget b (task.run b scope) m = (some o, m') ↔
      ∃ t, Runs b d scope task m.session t o m'.session ∧ m.fuel = m'.fuel + t.passes := by
  constructor
  · intro h
    have hd : Described b d scope task m o m' := described_withBudget Task.described_run h
    obtain ⟨t, ht, hf⟩ := hd.runs m.session.budget
    rw [Session.within_self, ← hd.budget, Session.within_self] at ht
    exact ⟨t, ht, hf⟩
  · rintro ⟨t, ht, hf⟩
    have hw := Run.withBudget_within (k := m.session.budget) (ht.ends.run m'.fuel)
    have hs : m'.session.within m.session.budget = m'.session := Session.within_of_eq ht.budget_eq
    rwa [Session.within_self, hs, ← hf] at hw

end ExScript
