import ExScript.Proofs.Run.Cause
import ExScript.Proofs.Run.Scripted

/-!
# Errors are shown once

Who shows an error depends on where it arises. An error in the text of a user command is shown where
the text was run and goes no further; an error that gets to the top of a script is shown there; and
the failure for lack of budget goes through user commands unseen, although it rings the bell where
it is found. Between these places errors travel through loops, choices and chains of user commands.

The account is kept by what is still to be shown. At any time the errors that were shown, followed
by the one that is on its way up, are the errors that arose, in the same order (`Shows`). A finished
statement leaves nothing on its way.

Runs here are those of scripts, so there are no hooks and no handlers: these can show what they
like.

## What could go wrong

An error could be shown twice, by a user command and again at the top; or by nobody, if it was
dropped on its way through a loop; or in another order than they arose. It could also be an error
that did not arise at all. The trace decides what arose: each rule of `Runs` in which something
fails that is not a nested statement puts its cause there (`Moment.origin`), and handing on an error
puts nothing there. So the trace is not a second record of what was shown, and the two can be
compared.

The bell is counted with it. It is rung at the top for every failure, and once more where the budget
runs out, which `Outcome.bells` remembers until the failure gets there. This is why the causes have
to be told apart (`Proofs/Run/Cause.lean`): if anything else failed with this error, its bell would
be missing.

## Main results

* `Runs.shows` — the account of any run
* `runScript_iff` — running a script, as a relation with a trace
* `runScript_shows` — a script shows each error once
-/

namespace ExScript

/-! ### The account

What is shown is a list of events, and errors and bells among them are counted each on their own.
Where in between they stand, and what the messages are, does not matter. -/

/-- The errors that are shown among some events. -/
def errorsOf (events : List Event) : List Error :=
  events.filterMap fun
    | .error cause => some cause
    | _ => none

@[simp] theorem errorsOf_nil : errorsOf [] = [] := rfl

@[simp] theorem errorsOf_append (events news : List Event) :
    errorsOf (events ++ news) = errorsOf events ++ errorsOf news :=
  List.filterMap_append

@[simp] theorem errorsOf_error (e : Error) : errorsOf [.error e] = [e] := rfl

@[simp] theorem errorsOf_bell : errorsOf [.bell] = [] := rfl

/-- The error that is on its way up when something ends so. -/
def Outcome.pending : Outcome → List Error
  | failed e => [e]
  | _ => []

/-- How often the bell was rung for an outcome, before it gets to the top of a script. -/
def Outcome.bells : Outcome → Nat
  | failed .expansionTooDeep => 1
  | _ => 0

/-- Something that holds no statements fails with its own error: it arises and is on its way. -/
theorem Outcome.causes_origins (o : Outcome) : o.origins.causes = o.pending := by
  cases o <;> rfl

theorem Outcome.bells_of_ne {o : Outcome} (h : o ≠ .failed .expansionTooDeep) : o.bells = 0 := by
  rw [bells.eq_def]
  split
  · exact absurd rfl h
  · rfl

/-- From one session to the other the user is shown the errors with these causes, except for the one
that is on its way up, and hears the bell as often as the outcome asks for. -/
def Shows (s s' : Session) (causes : List Error) (o : Outcome) : Prop :=
  ∃ news, s'.events = s.events ++ news ∧ errorsOf news ++ o.pending = causes ∧
    news.count .bell = o.bells

namespace Shows

variable {s s' s'' : Session} {causes causes' : List Error} {o o' : Outcome}

theorem refl (s : Session) : Shows s s [] .finished :=
  ⟨[], by simp, rfl, rfl⟩

/-- Something that ends with nothing on its way, and something behind it. -/
theorem trans (h : Shows s s' causes o) (h' : Shows s' s'' causes' o') (hpending : o.pending = [])
    (hbells : o.bells = 0) : Shows s s'' (causes ++ causes') o' := by
  obtain ⟨news, hevents, herrors, hcount⟩ := h
  obtain ⟨news', hevents', herrors', hcount'⟩ := h'
  refine ⟨news ++ news', by simp [hevents', hevents], ?_, ?_⟩
  · rw [hpending, List.append_nil] at herrors
    rw [errorsOf_append, List.append_assoc, herrors, herrors']
  · rw [List.count_append, hcount, hcount', hbells, Nat.zero_add]

/-- The outcome matters only for what is on its way and for the bell. -/
theorem outcome (h : Shows s s' causes o) (hpending : o.pending = o'.pending)
    (hbells : o.bells = o'.bells) : Shows s s' causes o' := by
  rwa [Shows, hpending, hbells] at h

/-- A step with messages only, which may fail with an error of its own. -/
theorem of_effect (h : Effect s s') (ho : o ≠ .failed .expansionTooDeep) :
    Shows s s' o.pending o := by
  obtain ⟨texts, hevents⟩ := h.reports
  refine ⟨texts.map .report, hevents, ?_, ?_⟩
  · have none : errorsOf (texts.map .report) = [] := by
      simp [errorsOf]
    rw [none, List.nil_append]
  · rw [Outcome.bells_of_ne ho, List.count_eq_zero]
    simp

/-- A step in front of something. -/
theorem after (h : Effect s s') (h' : Shows s' s'' causes o) : Shows s s'' causes o := by
  have step : Shows s s' [] .finished := of_effect h (by simp)
  simpa using step.trans h' rfl rfl

/-- A failure in front of which nothing was done. -/
theorem failed {e : Error} (he : e ≠ .expansionTooDeep) (s : Session) :
    Shows s s [e] (.failed e) :=
  of_effect (.refl s) (by simpa using he)

end Shows

/-- A condition without a hook fails only with what an expression fails with. -/
theorem Condition.ne_tooDeep_of_checkWithin {b : Nat} {c : Condition} {scope : Scope}
    {s s' : Session} {e : Error} (hc : c.AllHooks fun _ => False)
    (h : c.checkWithin b scope s = (.error e, s')) : e ≠ .expansionTooDeep := by
  cases c with
  | hook hk => exact hc.elim
  | expression x =>
    obtain ⟨-, hvalue⟩ := Condition.expression_checkWithin h
    rintro rfl
    exact x.eval_ne_tooDeep s.vars (eq_error_of_map hvalue.symm)

/-! Between a body and the loop around it outcomes are translated (`Outcome.inLoop`), and at the top
once more (`Outcome.toExcept`). No error is lost there, because an outcome that lets a loop go on is
no failure, and one that ends it ends it as it is. -/

theorem Outcome.pending_of_next {o : Outcome} (h : o.inLoop = .next) :
    o.pending = [] ∧ o.bells = 0 := by
  cases o <;> cases h <;> exact ⟨rfl, rfl⟩

theorem Outcome.pending_of_exit {o o' : Outcome} (h : o.inLoop = .exit o') :
    o.pending = o'.pending ∧ o.bells = o'.bells := by
  cases o <;> cases h <;> exact ⟨rfl, rfl⟩

theorem Outcome.pending_of_ok {o : Outcome} (h : o.toExcept = .ok ()) :
    o.pending = [] ∧ o.bells = 0 := by
  cases o <;> cases h <;> exact ⟨rfl, rfl⟩

/-- What is on its way out of the text of a user command is shown, unless the budget ran out. -/
theorem Shows.absorb {s s' : Session} {causes : List Error} {o : Outcome}
    (h : Shows s s' causes o) :
    Shows s (absorb o s').2 causes (absorb o s').1 := by
  by_cases ho : o = .failed .expansionTooDeep
  · subst ho
    exact h
  · have hbells := Outcome.bells_of_ne ho
    cases o with
    | failed e =>
      have hne : e ≠ .expansionTooDeep := by simpa using ho
      obtain ⟨news, hevents, herrors, hcount⟩ := h
      rw [absorb_failed hne]
      refine ⟨news ++ [.error e], by simp [hevents], ?_, ?_⟩
      · rw [errorsOf_append, errorsOf_error]
        simpa [Outcome.pending] using herrors
      · rw [List.count_append, hcount, hbells]
        rfl
    | finished => exact h
    | leaveLoop => exact h.outcome rfl rfl
    | nextPass => exact h.outcome rfl rfl

/-! ### Runs -/

/-- **The account of a run**: the errors that were shown and the one that is on its way up are those
that arose. The induction is on the rules. In a sequence and in a loop what is in front has nothing
on its way, otherwise the rule would be another one; a user command is the only place where an error
on its way becomes one that was shown. -/
theorem Runs.shows {b d : Nat} {scope : Scope} {task : Task} {s s' : Session} {t : Trace}
    {o : Outcome} (h : Runs b d scope task s t o s') (hs : s.commands.OnlyScripts)
    (hx : task.AllHooks fun _ => False) : Shows s s' t.causes o := by
  induction h with
  | @simple _ _ scope c s =>
    rw [Trace.causes_act, Outcome.causes_origins]
    exact .of_effect (c.run_effect scope s) (c.run_ne_tooDeep scope s)
  | hook => exact hx.elim
  | unknown _ ih => exact ih hs trivial
  | block _ ih => exact ih hs hx
  | nil => exact .refl _
  | cons hrun _ ihx ihxs =>
    rw [Trace.causes_append]
    exact (ihx hs hx.1).trans (ihxs (hrun.onlyScripts hs) hx.2) rfl rfl
  | stop _ _ ih => exact ih hs hx.1
  | whileFail hc =>
    have hne := Condition.ne_tooDeep_of_checkWithin hx.1 hc
    exact .after (Condition.effect_of_checkWithin hc) (.failed hne _)
  | whileEnd hc => exact .after (Condition.effect_of_checkWithin hc) (.refl _)
  | whileNext hc hrun ho _ ihb ihl =>
    have effect := Condition.effect_of_checkWithin hc
    have hs₁ := effect.scripts hs
    obtain ⟨hpending, hbells⟩ := Outcome.pending_of_next ho
    rw [Trace.causes_act, Trace.causes_pass, Trace.causes_append]
    exact .after effect ((ihb hs₁ hx.2).trans (ihl (hrun.onlyScripts hs₁) hx) hpending hbells)
  | whileExit hc _ ho ihb =>
    have effect := Condition.effect_of_checkWithin hc
    obtain ⟨hpending, hbells⟩ := Outcome.pending_of_exit ho
    exact .after effect ((ihb (effect.scripts hs) hx.2).outcome hpending hbells)
  | @forFail _ _ _ _ e _ s _ he =>
    refine .failed ?_ s
    rintro rfl
    exact itemsOf_ne_tooDeep e s.vars he
  | forEach _ _ ih => exact ih hs hx
  | eachEnd => exact .refl _
  | eachNext hrun ho _ ihb ihl =>
    obtain ⟨hpending, hbells⟩ := Outcome.pending_of_next ho
    rw [Trace.causes_act, Trace.causes_append]
    have body := (ihb hs hx).trans (ihl (hrun.onlyScripts hs) hx) hpending hbells
    exact .after (.silent rfl rfl) body
  | eachExit _ ho ihb =>
    obtain ⟨hpending, hbells⟩ := Outcome.pending_of_exit ho
    exact .after (.silent rfl rfl) ((ihb hs hx).outcome hpending hbells)
  | chooseNone => exact .refl _
  | chooseElse _ ih => exact ih hs hx.2
  | chooseFail hc =>
    have hne := Condition.ne_tooDeep_of_checkWithin hx.1.1 hc
    exact .after (Condition.effect_of_checkWithin hc) (.failed hne _)
  | chooseHere hc _ ih =>
    have effect := Condition.effect_of_checkWithin hc
    exact .after effect (ih (effect.scripts hs) hx.1.2.1)
  | chooseNext hc _ ih =>
    have effect := Condition.effect_of_checkWithin hc
    exact .after effect (ih (effect.scripts hs) ⟨hx.1.2.2, hx.2⟩)
  | notCallable => exact .failed (by simp) _
  | @tooDeep _ _ _ _ s => exact ⟨[.bell], by simp, rfl, rfl⟩
  | @notExpanded _ _ _ name argument s _ _ he =>
    refine .failed ?_ s
    rintro rfl
    exact s.commands.expansion_ne_tooDeep name argument he
  | native _ he => exact absurd he hs.expansion_ne_handler
  | chain _ _ _ ih => exact ih hs trivial
  | expanded _ he _ ih =>
    obtain ⟨text, hparse⟩ := Registry.parseCommand?_of_expansion he
    exact (ih hs (Script.allHooks_of_parseCommand? _ hparse)).absorb
  | done | report | reportError | setVariable | askBudget | runNothing | runScript => exact hx.elim

/-! ### Scripts -/

/-- Running a script as a relation: a text that cannot be read is an error that arises there, and
the error that a run ends with is shown at the top. -/
inductive RunsScript (text : String) (s : Session) : Trace → Except Error Unit → Session → Prop where
  | unreadable {e} :
    Script.parse text = .error e →
      RunsScript text s [.origin e] (.error e) ((s.tell (.error e)).tell .bell)
  | ended {body t o s'} :
    Script.parse text = .ok body → Runs maxExpansions 0 .root (.body body) s t o s' →
      o.toExcept = .ok () → RunsScript text s t (.ok ()) s'
  | failed {body t e s'} :
    Script.parse text = .ok body → Runs maxExpansions 0 .root (.body body) s t (.failed e) s' →
      RunsScript text s t (.error e) ((s'.tell (.error e)).tell .bell)

/-- The relation describes the function. -/
theorem runScript_iff {m m' : Machine} {text : String} {r : Except Error Unit} :
    m.runScript text = (some r, m') ↔
      ∃ t, RunsScript text m.session t r m'.session ∧ m.fuel = m'.fuel + t.passes := by
  have adequate {body : List Stmt} {o : Outcome} {m' : Machine} :
      Run.withBudget maxExpansions (Stmt.execAll (expand maxExpansions) body .root) m =
          (some o, m') ↔
        ∃ t, Runs maxExpansions 0 .root (.body body) m.session t o m'.session ∧
          m.fuel = m'.fuel + t.passes :=
    withBudget_run_iff 0 (.body body)
  constructor
  · intro h
    rw [Machine.runScript] at h
    split at h
    next e hparse =>
      cases h
      exact ⟨_, .unreadable hparse, rfl⟩
    next body hparse =>
      rw [Machine.runStatements] at h
      split at h
      · cases h
      next o m₁ hrun =>
        obtain ⟨t, ht, hf⟩ := adequate.mp hrun
        cases o with
        | failed e =>
          cases h
          exact ⟨t, .failed hparse ht, hf⟩
        | _ =>
          cases h
          exact ⟨t, .ended hparse ht rfl, hf⟩
  · rintro ⟨t, ht, hf⟩
    obtain ⟨fuel, s'⟩ := m'
    cases ht with
    | unreadable hparse =>
      have hfuel : m.fuel = fuel := hf
      simp only [Machine.runScript, hparse, Machine.fail, hfuel]
      rfl
    | @ended body t o _ hparse hrun ho =>
      have hrun' : Run.withBudget maxExpansions (Stmt.execAll (expand maxExpansions) body .root) m =
          (some o, ⟨fuel, s'⟩) :=
        adequate.mpr ⟨t, hrun, hf⟩
      simp only [Machine.runScript, hparse, Machine.runStatements, hrun', ho]
    | @failed body t e s₁ hparse hrun =>
      have hrun' : Run.withBudget maxExpansions (Stmt.execAll (expand maxExpansions) body .root) m =
          (some (.failed e), ⟨fuel, s₁⟩) :=
        adequate.mpr ⟨t, hrun, hf⟩
      simp only [Machine.runScript, hparse, Machine.runStatements, hrun', Outcome.toExcept,
        Machine.fail]
      rfl

/-! With the relation, all that is left is what happens at the top. -/

/-- How often a script rings the bell. -/
def bellsOf : Except Error Unit → Nat
  | .ok () => 0
  | .error .expansionTooDeep => 2
  | .error _ => 1

/-- What happens to an error at the top of a script: it is shown, and the bell is rung. -/
theorem Shows.fail {s s' : Session} {causes : List Error} {e : Error}
    (h : Shows s s' causes (.failed e)) :
    ∃ news, ((s'.tell (.error e)).tell .bell).events = s.events ++ news ∧ errorsOf news = causes ∧
      causes.getLast? = some e ∧ news.count .bell = bellsOf (.error e) := by
  obtain ⟨news, hevents, herrors, hcount⟩ := h
  refine ⟨news ++ [.error e] ++ [.bell], by simp [hevents], ?_, ?_, ?_⟩
  · rw [errorsOf_append, errorsOf_append, errorsOf_error, errorsOf_bell, List.append_nil]
    exact herrors
  · rw [← herrors]
    exact List.getLast?_concat
  · have hbells : (Outcome.failed e).bells + 1 = bellsOf (.error e) := by
      cases e <;> rfl
    rw [List.count_append, List.count_append, hcount, ← hbells]
    rfl

/-- **A script shows each error once.** The errors that are shown during a run are those that arose,
in the same order, whether a user command took them in or they ended the script. A script fails with
the last of them only. The bell is rung once when it fails, twice if it fails because expansions are
nested too deep, and not at all otherwise. -/
theorem runScript_shows {m m' : Machine} {text : String} {r : Except Error Unit}
    (hs : m.session.commands.OnlyScripts) (h : m.runScript text = (some r, m')) :
    (∃ t, RunsScript text m.session t r m'.session) ∧
      ∀ t, RunsScript text m.session t r m'.session →
        ∃ news, m'.session.events = m.session.events ++ news ∧
          errorsOf news = t.causes ∧
          (∀ e, r = .error e → t.causes.getLast? = some e) ∧
          news.count .bell = bellsOf r := by
  obtain ⟨t₀, ht₀, -⟩ := runScript_iff.mp h
  refine ⟨⟨t₀, ht₀⟩, fun t ht => ?_⟩
  generalize m'.session = s' at ht ⊢
  cases ht with
  | @unreadable e hparse =>
    have hne : e ≠ .expansionTooDeep := by
      rintro rfl
      exact Script.parse_ne_tooDeep text hparse
    obtain ⟨news, hevents, herrors, hlast, hcount⟩ := (Shows.failed hne m.session).fail
    refine ⟨news, hevents, herrors, ?_, hcount⟩
    rintro e' ⟨⟩
    exact hlast
  | @ended body t o _ hparse hrun ho =>
    obtain ⟨news, hevents, herrors, hcount⟩ := hrun.shows hs (Script.allHooks_of_parse _ hparse)
    obtain ⟨hpending, hbells⟩ := Outcome.pending_of_ok ho
    rw [hpending, List.append_nil] at herrors
    rw [hbells] at hcount
    refine ⟨news, hevents, herrors, ?_, hcount⟩
    rintro e ⟨⟩
  | @failed body t e s₁ hparse hrun =>
    have hshows := hrun.shows hs (Script.allHooks_of_parse _ hparse)
    obtain ⟨news, hevents, herrors, hlast, hcount⟩ := hshows.fail
    refine ⟨news, hevents, herrors, ?_, hcount⟩
    rintro e' ⟨⟩
    exact hlast

/-- A machine in which `A` stands for something that fails. -/
def failingCommand : Machine :=
  ⟨0, { commands := Registry.empty.define "A" ⟨0, none⟩ "unlet x" }⟩

/-- The failure of `A` is taken in and the one behind it is not. -/
theorem runScript_shows_failingCommand :
    ∃ (t : Trace) (news : List Event),
      (failingCommand.runScript "A|Nope").2.session.events =
          failingCommand.session.events ++ news ∧
        errorsOf news = t.causes ∧ t.causes.getLast? = some (.notACommand "Nope") ∧
        news.count .bell = 1 := by
  have hs : failingCommand.session.commands.OnlyScripts :=
    Registry.OnlyScripts.empty.define "A" _ _
  have hresult : (failingCommand.runScript "A|Nope").1 = some (.error (.notACommand "Nope")) := by
    decide +kernel
  have hrun : failingCommand.runScript "A|Nope" =
      (some (.error (.notACommand "Nope")), (failingCommand.runScript "A|Nope").2) := by
    rw [← hresult]
  obtain ⟨⟨t, ht⟩, shows⟩ := runScript_shows hs hrun
  obtain ⟨news, hevents, herrors, hlast, hcount⟩ := shows t ht
  exact ⟨t, news, hevents, herrors, hlast _ rfl, hcount⟩

end ExScript
