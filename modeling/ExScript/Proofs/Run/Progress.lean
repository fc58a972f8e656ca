import ExScript.Proofs.Run.Adequacy
import ExScript.Proofs.Run.Point
import Mathlib.Data.Set.Finite.Lattice

/-!
# Only a `:while` can run for ever

The functions that run statements are total, and they pay for it with fuel: each pass of a `:while`
burns one unit, and a run that finds none left stops short without an outcome. This module says that
the price is the right one. Nothing else can keep a run going, although user commands may call
themselves and each other, may be defined anew while they run, and have texts of any size.

What a run that does not end comes to is said with its points (`Proofs/Run/Point.lean`): without an
outcome there is no derivation in `Runs` that could be taken apart.

Every run settles: with any number `n` it either ends within `n` passes, or it gets to a `:while`
whose condition holds after exactly `n` of them. The proof goes down the budget, for user commands,
inside of it down the structure of the statements, and inside of that down the items of a `:for` and
the number `n` for a `:while`. There is no measure on texts in it: a user command is expanded with a
smaller budget, however large the tree is that its text gives.

## Why the number is there

That a run ends or goes on for ever could be said without a number, but not proved by induction: of
a sequence it would have to be known whether its first statement ends, and that is not decidable.
With a number it can be asked of the first statement what it comes to within `n` passes, and of the
others what they come to within the passes that are left. In the same way the functions ask with
their fuel, so settling is what ties the two together: `n` passes are wanted exactly if `n` units of
fuel are too few.

The other half is that passes on the way to a point are passes of the whole run
(`Reaches.passes_lt`). It needs that a run has one outcome only: a point behind a statement that has
ended is on the way of the run only if the statement did not end in another way as well. That is
`Runs.functional`, which comes from the functions.

## What is not said

There is no way to tell from a script whether a `:while` in it comes to an end, and nothing here
says how many passes it takes. Hooks and handlers are covered: a hook is one step, and what a
handler asks for is finite, although it may run scripts, which settle.

## Main definitions

* `Point.Settles` — a run ends within some passes, or wants another one

## Main results

* `Point.settles` — every run settles
* `Reaches.passes_lt` — a run that ends makes every pass that is wanted on the way
* `Point.runs_on_only_in_while` — what becomes of a run with some fuel, in terms of its points
-/

namespace ExScript

/-! ### Runs settle

A run with a run inside of it has two ways to settle. The one inside may want a pass too many, and
then the one around it has got there too. Or the one inside ends, and the passes that it did not use
are left for what follows. `Settles.start` says this once for all tasks. -/

namespace Point

/-- A run ends within `n` passes, or gets to a `:while` that wants one more after them. -/
def Settles (p : Point) (n : Nat) : Prop :=
  (∃ t o s', p.Ends t o s' ∧ t.passes ≤ n) ∨
    ∃ t q, Reaches p t q ∧ q.WantsPass ∧ t.passes = n

variable {p q : Point} {t : Trace} {o : Outcome} {s' : Session} {n k : Nat}

theorem Settles.ends (h : p.Ends t o s') (ht : t.passes ≤ n) : p.Settles n :=
  .inl ⟨t, o, s', h, ht⟩

/-- A run settles if one that it starts does, and if it goes on to settle where that one ends. -/
theorem Settles.start (h : Starts p t q) (hn : k + t.passes = n) (hq : q.Settles k)
    (hend : ∀ {u o s'}, q.Ends u o s' → u.passes ≤ k → p.Settles n) : p.Settles n := by
  rcases hq with ⟨u, o, s', hends, hu⟩ | ⟨u, r, hreach, hwants, hu⟩
  · exact hend hends hu
  · refine .inr ⟨t ++ u, r, .next h hreach, hwants, ?_⟩
    rw [Trace.passes_append]
    omega

/-- A run that ends where one that it starts ends. -/
theorem Settles.last (h : Starts p t q) (ht : t.passes = 0) (hq : q.Settles n)
    (hend : ∀ {u o s'}, q.Ends u o s' → ∃ o' s'', p.Ends (t ++ u) o' s'') : p.Settles n := by
  refine .start h (by omega) hq fun hu hun => ?_
  obtain ⟨o', s'', hp⟩ := hend hu
  refine .ends hp ?_
  rw [Trace.passes_append]
  omega

end Point

section Settling

variable {b d : Nat} {scope : Scope} {s : Session}

/-- A `:while` is the only one that uses up the number: each pass takes one away, so the induction
is on it, whatever the body does to the condition. -/
theorem settles_whileLoop {c : Condition} {xs : List Stmt}
    (hbody : ∀ scope s n, Point.Settles ⟨b, d, scope, .body xs, s⟩ n) (n : Nat) :
    ∀ s, Point.Settles ⟨b, d, scope, .stmt (.whileLoop c xs), s⟩ n := by
  induction n using Nat.strongRecOn with
  | ind n ih =>
    intro s
    rcases hc : c.checkWithin b scope s with ⟨⟨e⟩ | ⟨_ | _⟩, s₁⟩
    · exact .ends (Runs.whileFail hc) (Nat.zero_le n)
    · exact .ends (Runs.whileEnd hc) (Nat.zero_le n)
    · cases n with
      | zero => exact .inr ⟨[], _, .refl _, ⟨c, xs, s₁, rfl, hc⟩, rfl⟩
      | succ n =>
        -- The pass is paid for; what is left is for the body and the passes behind it.
        refine .start (.whilePass hc) rfl (hbody (scope.enter .loop) s₁ n) fun {t o s₂} ht htn => ?_
        cases ho : o.inLoop with
        | exit o' =>
          refine .ends (Runs.whileExit hc ht ho) ?_
          rw [Trace.passes_act, Trace.passes_pass]
          omega
        | next =>
          have hpasses : n - t.passes + Trace.passes (.act s :: .pass :: t) = n + 1 := by
            rw [Trace.passes_act, Trace.passes_pass]
            omega
          refine .start (.whileAgain hc ht ho) hpasses (ih _ (by omega) s₂)
            fun {u o' s'} hu hun => ?_
          refine .ends (Runs.whileNext hc ht ho hu) ?_
          rw [Trace.passes_act, Trace.passes_pass, Trace.passes_append]
          omega

/-- The list of a `:for` is evaluated once, in front of the first pass. So its passes are not
counted, and the induction is on the values that are left. -/
theorem settles_each {name : String} {xs : List Stmt}
    (hbody : ∀ scope s n, Point.Settles ⟨b, d, scope, .body xs, s⟩ n) (values : List Value) :
    ∀ s n, Point.Settles ⟨b, d, scope, .each name xs values, s⟩ n := by
  induction values with
  | nil => exact fun s n => .ends Runs.eachEnd (Nat.zero_le n)
  | cons v values ih =>
    intro s n
    refine .start .eachPass rfl (hbody _ _ n) fun {t o s₁} ht htn => ?_
    cases ho : o.inLoop with
    | exit o' => exact .ends (Runs.eachExit ht ho) htn
    | next =>
      have hpasses : n - t.passes + Trace.passes (.act s :: t) = n := by
        rw [Trace.passes_act]
        omega
      refine .start (.eachNext ht ho) hpasses (ih s₁ _) fun {u o' s'} hu hun => ?_
      refine .ends (Runs.eachNext ht ho hu) ?_
      rw [Trace.passes_act, Trace.passes_append]
      omega

mutual

/-- Every statement settles, if the user commands that it uses do. -/
theorem Stmt.settles (hcall : ∀ d scope name argument s n,
    Point.Settles ⟨b, d, scope, .call name argument, s⟩ n) :
    (x : Stmt) → ∀ d scope s n, Point.Settles ⟨b, d, scope, .stmt x, s⟩ n
  | .simple c => fun d scope s n => by
    refine .ends Runs.simple ?_
    rw [Trace.passes_act, Outcome.passes_origins]
    exact Nat.zero_le n
  | .hook h => fun d scope s n => by
    refine .ends Runs.hook ?_
    rw [Trace.passes_act, Outcome.passes_origins]
    exact Nat.zero_le n
  | .unknown range name argument => fun d scope s n =>
    .last .unknown rfl (hcall d scope name argument s n) fun h => ⟨_, _, Runs.unknown h⟩
  | .block xs => fun d scope s n =>
    .last .block rfl (Stmt.settles_body hcall xs d scope s n) fun h => ⟨_, _, Runs.block h⟩
  | .whileLoop c xs => fun d scope s n => settles_whileLoop (Stmt.settles_body hcall xs d) n s
  | .forLoop name e xs => fun d scope s n => by
    cases he : itemsOf e s.vars with
    | error err => exact .ends (Runs.forFail he) (Nat.zero_le n)
    | ok values =>
      have each : Point.Settles ⟨b, d, scope, .each name xs values, s⟩ n :=
        settles_each (Stmt.settles_body hcall xs d) values s n
      exact .last (.forEach he) rfl each fun h => ⟨_, _, Runs.forEach he h⟩
  | .choose branches otherwise => Stmt.settles_choose hcall branches
    (Stmt.settles_otherwise hcall otherwise)

/-- Statements one after the other share the passes. -/
theorem Stmt.settles_body (hcall : ∀ d scope name argument s n,
    Point.Settles ⟨b, d, scope, .call name argument, s⟩ n) :
    (xs : List Stmt) → ∀ d scope s n, Point.Settles ⟨b, d, scope, .body xs, s⟩ n
  | [] => fun _ _ _ n => .ends Runs.nil (Nat.zero_le n)
  | x :: xs => fun d scope s n => by
    refine .start .first rfl (Stmt.settles hcall x d scope s n) fun {t o s₁} ht htn => ?_
    by_cases ho : o = .finished
    · subst ho
      have hpasses : n - t.passes + t.passes = n := by omega
      have others := Stmt.settles_body hcall xs d scope s₁ (n - t.passes)
      refine .start (.rest ht) hpasses others fun {u o' s'} hu hun => ?_
      refine .ends (Runs.cons ht hu) ?_
      rw [Trace.passes_append]
      omega
    · exact .ends (Runs.stop ht ho) htn

theorem Stmt.settles_otherwise (hcall : ∀ d scope name argument s n,
    Point.Settles ⟨b, d, scope, .call name argument, s⟩ n) :
    (otherwise : Option (List Stmt)) →
      ∀ d scope s n, Point.Settles ⟨b, d, scope, .stmt (.choose [] otherwise), s⟩ n
  | none => fun _ _ _ n => .ends Runs.chooseNone (Nat.zero_le n)
  | some xs => fun d _ s n =>
    .last .chooseElse rfl (Stmt.settles_body hcall xs d _ s n) fun h => ⟨_, _, Runs.chooseElse h⟩

theorem Stmt.settles_choose (hcall : ∀ d scope name argument s n,
    Point.Settles ⟨b, d, scope, .call name argument, s⟩ n) {otherwise : Option (List Stmt)} :
    (branches : List (Condition × List Stmt)) →
      (∀ d scope s n, Point.Settles ⟨b, d, scope, .stmt (.choose [] otherwise), s⟩ n) →
      ∀ d scope s n, Point.Settles ⟨b, d, scope, .stmt (.choose branches otherwise), s⟩ n
  | [], hother => hother
  | (c, xs) :: branches, hother => fun d scope s n => by
    rcases hc : c.checkWithin b scope s with ⟨⟨e⟩ | ⟨_ | _⟩, s₁⟩
    · exact .ends (Runs.chooseFail hc) (Nat.zero_le n)
    · have others := Stmt.settles_choose hcall branches hother d scope s₁ n
      exact .last (.chooseNext hc) rfl others fun h => ⟨_, _, Runs.chooseNext hc h⟩
    · have body := Stmt.settles_body hcall xs d (scope.enter .conditional) s₁ n
      exact .last (.chooseHere hc) rfl body fun h => ⟨_, _, Runs.chooseHere hc h⟩

end

/-- What a handler asks for is a finite tree, whatever answers it gets. -/
theorem settles_handler (hstmt : ∀ x d scope s n, Point.Settles ⟨b, d, scope, .stmt x, s⟩ n)
    (handler : Native) : ∀ s n, Point.Settles ⟨b, d, scope, .handler handler, s⟩ n := by
  induction handler with
  | done => exact fun s n => .ends Runs.done (Nat.zero_le n)
  | report text next ih =>
    exact fun s n => .last .report rfl (ih _ n) fun h => ⟨_, _, Runs.report h⟩
  | reportError cause next ih =>
    exact fun s n => .last .reportError rfl (ih _ n) fun h => ⟨_, _, Runs.reportError h⟩
  | setVariable name v next ih =>
    exact fun s n => .last .setVariable rfl (ih _ n) fun h => ⟨_, _, Runs.setVariable h⟩
  | askBudget next ih =>
    exact fun s n => .last .askBudget rfl (ih b s n) fun h => ⟨_, _, Runs.askBudget h⟩
  | run text next ih =>
    intro s n
    cases hx : Script.parseCommand? text with
    | none => exact .last (.runNothing hx) rfl (ih none s n) fun h => ⟨_, _, Runs.runNothing hx h⟩
    | some x =>
      refine .start (.runScript hx) rfl (hstmt x d .root s n) fun {t o s₁} ht htn => ?_
      have hpasses : n - t.passes + t.passes = n := by omega
      refine .start (.runNext hx ht) hpasses (ih (some o) s₁ _) fun {u o' s'} hu hun => ?_
      refine .ends (Runs.runScript hx ht hu) ?_
      rw [Trace.passes_append]
      omega

/-- Every use of a name settles. The induction is on the budget and on nothing else. -/
theorem settles_call (b : Nat) : ∀ d scope name argument s n,
    Point.Settles ⟨b, d, scope, .call name argument, s⟩ n := by
  induction b with
  | zero =>
    intro d scope name argument s n
    cases hc : s.commands.isCallable name with
    | false => exact .ends (Runs.notCallable hc) (Nat.zero_le n)
    | true => exact .ends (Runs.tooDeep hc) (Nat.zero_le n)
  | succ b ih =>
    intro d scope name argument s n
    cases hc : s.commands.isCallable name with
    | false => exact .ends (Runs.notCallable hc) (Nat.zero_le n)
    | true =>
      cases he : s.commands.expansion name argument with
      | error e => exact .ends (Runs.notExpanded hc he) (Nat.zero_le n)
      | ok expansion =>
        cases expansion with
        | handler handler =>
          have settled : Point.Settles ⟨b, d + 1, scope, .handler handler, s⟩ n :=
            settles_handler (Stmt.settles ih) handler s n
          exact .last (.native hc he) rfl settled fun h => ⟨_, _, Runs.native hc he h⟩
        | command next argument' =>
          exact .last (.chain hc he) rfl (ih _ _ _ _ s n) fun h => ⟨_, _, Runs.chain hc he h⟩
        | body x =>
          have settled := Stmt.settles ih x (d + 1) scope s n
          exact .last (.expanded hc he) rfl settled fun h => ⟨_, _, Runs.expanded hc he h⟩

end Settling

/-- **Every run settles**: whatever the number of passes, it ends within them or wants another. -/
theorem Point.settles (p : Point) (n : Nat) : p.Settles n := by
  obtain ⟨b, d, scope, task, s⟩ := p
  have statements := Stmt.settles (settles_call b)
  cases task with
  | stmt x => exact statements x d scope s n
  | body xs => exact Stmt.settles_body (settles_call b) xs d scope s n
  | each name xs values => exact settles_each (Stmt.settles_body (settles_call b) xs d) values s n
  | call name argument => exact settles_call b d scope name argument s n
  | handler handler => exact settles_handler statements handler s n

/-! ### Runs that end

The way to a point is a part of the run. This is a matter of the derivation, which is taken apart as
the rule for the point says. Where a rule of `Starts` has a run in front of the point, it has to be
the one in the derivation, and it is, because there is no other. -/

/-- If a run ends then the runs that it starts end as well, and all their passes are its own. -/
theorem Starts.ends {p q : Point} {t u : Trace} {o : Outcome} {s' : Session} (h : Starts p t q)
    (hp : p.Ends u o s') :
    ∃ v o' s'', q.Ends v o' s'' ∧ t.passes + v.passes ≤ u.passes := by
  cases h with
  | unknown =>
    cases hp with
    | unknown hr => exact ⟨_, _, _, hr, by simp⟩
  -- Sequences
  | block =>
    cases hp with
    | block hr => exact ⟨_, _, _, hr, by simp⟩
  | first =>
    cases hp with
    | cons hx hxs => exact ⟨_, _, _, hx, by simp⟩
    | stop hx ho => exact ⟨_, _, _, hx, by simp⟩
  | rest hx =>
    cases hp with
    | cons hx' hxs =>
      obtain ⟨-, rfl, hpasses⟩ := hx.functional hx'
      exact ⟨_, _, _, hxs, by simp [hpasses]⟩
    | stop hx' ho => exact absurd (hx.functional hx').1.symm ho
  -- `:while`: the condition came out true, so the rules for the other two cases do not apply
  | whilePass hc =>
    cases hp with
    | whileFail hc' | whileEnd hc' => cases hc.symm.trans hc'
    | whileNext hc' hb ho hl =>
      cases hc.symm.trans hc'
      exact ⟨_, _, _, hb, by simp; omega⟩
    | whileExit hc' hb ho =>
      cases hc.symm.trans hc'
      exact ⟨_, _, _, hb, by simp; omega⟩
  | whileAgain hc hb ho =>
    cases hp with
    | whileFail hc' | whileEnd hc' => cases hc.symm.trans hc'
    | whileNext hc' hb' ho' hl =>
      cases hc.symm.trans hc'
      obtain ⟨rfl, rfl, hpasses⟩ := hb.functional hb'
      exact ⟨_, _, _, hl, by simp; omega⟩
    | whileExit hc' hb' ho' =>
      cases hc.symm.trans hc'
      obtain ⟨rfl, -, -⟩ := hb.functional hb'
      cases ho.symm.trans ho'
  -- `:for`
  | forEach he =>
    cases hp with
    | forFail he' => cases he.symm.trans he'
    | forEach he' hr =>
      cases he.symm.trans he'
      exact ⟨_, _, _, hr, by simp⟩
  | eachPass =>
    cases hp with
    | eachNext hb ho hl => exact ⟨_, _, _, hb, by simp⟩
    | eachExit hb ho => exact ⟨_, _, _, hb, by simp⟩
  | eachNext hb ho =>
    cases hp with
    | eachNext hb' ho' hl =>
      obtain ⟨rfl, rfl, hpasses⟩ := hb.functional hb'
      exact ⟨_, _, _, hl, by simp [hpasses]⟩
    | eachExit hb' ho' =>
      obtain ⟨rfl, -, -⟩ := hb.functional hb'
      cases ho.symm.trans ho'
  -- `:if`
  | chooseElse =>
    cases hp with
    | chooseElse hr => exact ⟨_, _, _, hr, by simp⟩
  | chooseHere hc =>
    cases hp with
    | chooseFail hc' | chooseNext hc' => cases hc.symm.trans hc'
    | chooseHere hc' hr =>
      cases hc.symm.trans hc'
      exact ⟨_, _, _, hr, by simp⟩
  | chooseNext hc =>
    cases hp with
    | chooseFail hc' | chooseHere hc' => cases hc.symm.trans hc'
    | chooseNext hc' hr =>
      cases hc.symm.trans hc'
      exact ⟨_, _, _, hr, by simp⟩
  -- Commands with unknown names: a name is expanded to one thing
  | native hc he =>
    cases hp with
    | notCallable hc' => cases hc.symm.trans hc'
    | notExpanded _ he' | chain _ he' | expanded _ he' => cases he.symm.trans he'
    | native _ he' hr =>
      cases he.symm.trans he'
      exact ⟨_, _, _, hr, by simp⟩
  | chain hc he =>
    cases hp with
    | notCallable hc' => cases hc.symm.trans hc'
    | notExpanded _ he' | native _ he' | expanded _ he' => cases he.symm.trans he'
    | chain _ he' hr =>
      cases he.symm.trans he'
      exact ⟨_, _, _, hr, by simp⟩
  | expanded hc he =>
    cases hp with
    | notCallable hc' => cases hc.symm.trans hc'
    | notExpanded _ he' | native _ he' | chain _ he' => cases he.symm.trans he'
    | expanded _ he' hr =>
      cases he.symm.trans he'
      exact ⟨_, _, _, hr, by simp⟩
  -- Handlers
  | report =>
    cases hp with
    | report hr => exact ⟨_, _, _, hr, by simp⟩
  | reportError =>
    cases hp with
    | reportError hr => exact ⟨_, _, _, hr, by simp⟩
  | setVariable =>
    cases hp with
    | setVariable hr => exact ⟨_, _, _, hr, by simp⟩
  | askBudget =>
    cases hp with
    | askBudget hr => exact ⟨_, _, _, hr, by simp⟩
  | runNothing hx =>
    cases hp with
    | runNothing _ hr => exact ⟨_, _, _, hr, by simp⟩
    | runScript hx' => cases hx.symm.trans hx'
  | runScript hx =>
    cases hp with
    | runNothing hx' => cases hx.symm.trans hx'
    | runScript hx' hr hn =>
      cases hx.symm.trans hx'
      exact ⟨_, _, _, hr, by simp⟩
  | runNext hx hr =>
    cases hp with
    | runNothing hx' => cases hx.symm.trans hx'
    | runScript hx' hr' hn =>
      cases hx.symm.trans hx'
      obtain ⟨rfl, rfl, hpasses⟩ := hr.functional hr'
      exact ⟨_, _, _, hn, by simp [hpasses]⟩

/-- A `:while` that wants a pass and ends has made it. -/
theorem Point.WantsPass.passes_pos {p : Point} {t : Trace} {o : Outcome} {s' : Session}
    (h : p.WantsPass) (hp : p.Ends t o s') : 0 < t.passes := by
  obtain ⟨b, d, scope, task, s⟩ := p
  obtain ⟨c, xs, s₁, rfl, hc⟩ := h
  cases hp with
  | whileFail hc' | whileEnd hc' => cases hc.symm.trans hc'
  | whileNext hc' hb ho hl | whileExit hc' hb ho =>
    rw [Trace.passes_act, Trace.passes_pass]
    exact Nat.succ_pos _

/-- **A run that ends makes every pass that is wanted on the way.** -/
theorem Reaches.passes_lt {p q : Point} {t u : Trace} {o : Outcome} {s' : Session}
    (h : Reaches p t q) (hq : q.WantsPass) (hp : p.Ends u o s') : t.passes < u.passes := by
  induction h generalizing u o s' with
  | refl p => exact hq.passes_pos hp
  | next hstart hreach ih =>
    obtain ⟨v, o', s'', hends, hle⟩ := hstart.ends hp
    have later := ih hq hends
    rw [Trace.passes_append]
    omega

/-! ### Fuel

Now points are put on machines. That a run stops short is found out by asking how it settles with as
many passes as there is fuel: if it ended within them, there would be an outcome. -/

namespace Point

variable (p : Point)

/-- With some fuel a point runs to an outcome exactly if its run ends so, and what is burnt is one
unit for each pass. -/
theorem run_eq_some_iff {fuel : Nat} {o : Outcome} {m' : Machine} :
    p.run fuel = (some o, m') ↔ ∃ t, p.Ends t o m'.session ∧ fuel = m'.fuel + t.passes :=
  withBudget_run_iff p.depth p.task

/-- A run has fuel left exactly as long as no pass is wanted behind as many as there is fuel. From
the left the run settles, and from the right a pass that is wanted would have been made. -/
theorem run_eq_none_iff {fuel : Nat} :
    (p.run fuel).1 = none ↔ ∃ t q, Reaches p t q ∧ q.WantsPass ∧ t.passes = fuel := by
  constructor
  · intro hnone
    rcases p.settles fuel with ⟨t, o, s', hends, hle⟩ | hwants
    · have hsome : p.run fuel = (some o, ⟨fuel - t.passes, s'⟩) :=
        (run_eq_some_iff p).mpr ⟨t, hends, by dsimp only; omega⟩
      rw [hsome] at hnone
      cases hnone
    · exact hwants
  · rintro ⟨t, q, hreach, hwants, rfl⟩
    rcases hrun : p.run t.passes with ⟨_ | o, m'⟩
    · rfl
    · obtain ⟨u, hends, hfuel⟩ := (run_eq_some_iff p).mp hrun
      have later := hreach.passes_lt hwants hends
      omega

/-- **Only a `:while` can run for ever.** A run stops short exactly if a `:while` wants a pass when
all fuel was burnt, and burns one unit for each pass and no other. So a run in which the conditions
of `:while` statements are asked for finitely often ends with an outcome if there is fuel enough,
and one in which no `:while` comes up, also not from the text of a user command, ends with any fuel
and burns none. -/
theorem runs_on_only_in_while :
    (∀ fuel, (p.run fuel).1 = none ↔ ∃ t q, Reaches p t q ∧ q.WantsPass ∧ t.passes = fuel) ∧
      (∀ fuel o m', p.run fuel = (some o, m') ↔
        ∃ t, p.Ends t o m'.session ∧ fuel = m'.fuel + t.passes) ∧
      ({t | ∃ q, Reaches p t q ∧ q.AtWhile}.Finite → ∃ fuel o m', p.run fuel = (some o, m')) ∧
      ((∀ t q, Reaches p t q → ¬q.AtWhile) →
        ∀ fuel, ∃ o s', p.run fuel = (some o, ⟨fuel, s'⟩)) := by
  refine ⟨fun fuel => run_eq_none_iff p, fun fuel o m' => run_eq_some_iff p, ?_, ?_⟩
  -- A bound for the passes in front of each `:while` is a bound for the fuel that can be used up.
  · intro hfinite
    obtain ⟨bound, hbound⟩ := (hfinite.image Trace.passes).bddAbove
    rcases hrun : p.run (bound + 1) with ⟨_ | o, m'⟩
    · obtain ⟨t, q, hreach, hwants, hpasses⟩ := (run_eq_none_iff p).mp (congrArg Prod.fst hrun)
      have hle : t.passes ≤ bound := hbound ⟨t, ⟨q, hreach, hwants.atWhile⟩, rfl⟩
      omega
    · exact ⟨bound + 1, o, m', hrun⟩
  · intro hwhile fuel
    rcases p.settles 0 with ⟨t, o, s', hends, hle⟩ | ⟨t, q, hreach, hwants, -⟩
    · refine ⟨o, s', (run_eq_some_iff p).mpr ⟨t, hends, ?_⟩⟩
      dsimp only
      omega
    · exact absurd hwants.atWhile (hwhile t q hreach)

/-- The use of `A` in a session in which `A` stands for itself. -/
def selfNaming : Point :=
  ⟨maxExpansions, 0, .root, .call "A" "",
    { commands := Registry.empty.define "A" ⟨0, none⟩ "A" }⟩

/-- `A` only ever gets to itself, with a smaller budget. -/
theorem selfNaming_reaches {p q : Point} {t : Trace} (h : Reaches p t q)
    (hp : p.task = selfNaming.task ∧ p.session = selfNaming.session) :
    q.task = selfNaming.task ∧ q.session = selfNaming.session := by
  have hname : selfNaming.session.commands.expansion "A" "" = .ok (.command "A" "") := by
    rfl
  induction h with
  | refl p => exact hp
  | next hstart hreach ih =>
    obtain ⟨htask, hsession⟩ := hp
    cases hstart with
    | chain hc he =>
      cases htask
      cases hsession
      cases hname.symm.trans he
      exact ih ⟨rfl, rfl⟩
    | native hc he | expanded hc he =>
      cases htask
      cases hsession
      cases hname.symm.trans he
    | _ => cases htask

/-- Without a `:while` not even a user command that stands for itself can run on. -/
theorem runs_on_only_in_while_selfNaming :
    (∀ t q, Reaches selfNaming t q → ¬q.AtWhile) ∧
      ∃ o s', selfNaming.run 0 = (some o, ⟨0, s'⟩) := by
  have nowhere : ∀ t q, Reaches selfNaming t q → ¬q.AtWhile := by
    rintro t q hreach ⟨c, xs, htask⟩
    cases htask.symm.trans (selfNaming_reaches hreach ⟨rfl, rfl⟩).1
  exact ⟨nowhere, (runs_on_only_in_while selfNaming).2.2.2 nowhere 0⟩

end Point

end ExScript
