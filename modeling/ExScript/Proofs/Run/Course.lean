import ExScript.Proofs.Run.Report
import ExScript.Proofs.Run.Step
import Mathlib.Logic.Relation

/-!
# The course of a run

The machine of `Proofs/Run/Step.lean` takes runs in single steps, and the rules of `Runs` describe
those that end. Here the two are shown to agree: a task ends under the rules exactly if the machine
comes from its beginning to its end, whatever is still to be done behind it.

From the rules to the machine the proof is an induction on the rules, with any stack behind the
task. Back from the machine, what counts is what a configuration still comes to under the rules; a
move does not change that, so it is carried from the end of a run to its beginning.

## Which of the two to use

The rules are for what a run comes to as a whole, and the machine is for what is true in between:
that nothing is lost before a `:quit`, that the cursor is inside the buffer all along, that what was
shown stays shown. Such statements are invariants of the machine (`Steps.invariant`), proved for one
step at a time, and they hold of scripts that run for ever, of which the rules say nothing. What
makes them statements about the functions is the second result below: a script that was run to its
end is a row of steps, and its last session is the one that the function gives.

The machine carries no fuel and no trace. A move that runs a pass is a move like any other, so how
many passes there were is lost; nobody asks for it here.

## Why the stack is there

In the rules a run inside of another one is a premise. In the machine it is in front, and what comes
behind it is on the stack. So the induction on the rules has to leave the stack alone, whatever is
on it, and this is all that has to be strengthened. The way back is harder to begin: a configuration
in the middle has a task that is under way and several that are waiting, and no single rule is about
that. `Config.Ends` says it with as many derivations as there are tasks on the stack.

## Main results

* `leads_iff_runs` — the machine and the rules agree on runs that end
* `Machine.steps_of_runScript` — a script that ends is a row of steps
-/

namespace ExScript

/-- Whether moves lead from one configuration to another. -/
def Leads : Config → Config → Prop :=
  Relation.ReflTransGen fun c c' => ∃ d, Move c d c'

namespace Leads

variable {c c' c'' : Config} {s : Session} {sequels : List Sequel}

theorem refl : Leads c c :=
  Relation.ReflTransGen.refl

theorem trans (h : Leads c c') (h' : Leads c' c'') : Leads c c'' :=
  Relation.ReflTransGen.trans h h'

theorem start {site : Site} {task : Task} (h : Leads (.turn s (task.start site s) sequels) c) :
    Leads ⟨.run site task, sequels, s⟩ c :=
  Relation.ReflTransGen.head ⟨_, .start⟩ h

theorem resume {o : Outcome} {q : Sequel} (h : Leads (.turn s (q.resume s o) sequels) c) :
    Leads ⟨.ended o, q :: sequels, s⟩ c :=
  Relation.ReflTransGen.head ⟨_, .resume⟩ h

theorem steps (h : Leads c c') : ∃ ds, Steps c ds c' := by
  induction h with
  | refl => exact ⟨[], .refl⟩
  | tail _ hmove ih =>
    obtain ⟨d, hmove⟩ := hmove
    obtain ⟨ds, hds⟩ := ih
    exact ⟨ds ++ [d], .snoc hds (.move hmove)⟩

end Leads

/-! ### From the rules to the machine

Each rule is one move to start, then what its premises say, and one move behind each of them. -/

/-- A task that ends under the rules ends in the machine, and what is to be done behind it is left
as it was. -/
theorem Runs.leads {b d : Nat} {scope : Scope} {task : Task} {s s' : Session} {t : Trace}
    {o : Outcome} (h : Runs b d scope task s t o s') (sequels : List Sequel) :
    Leads ⟨.run ⟨b, d, scope⟩ task, sequels, s⟩ ⟨.ended o, sequels, s'⟩ := by
  induction h generalizing sequels with
  | simple | hook | nil | eachEnd | chooseNone | done => exact .start .refl
  | unknown _ ih => exact .start (ih _)
  | block _ ih => exact .start (ih _)
  | cons _ _ ih ih' => exact .start ((ih _).trans (.resume (ih' _)))
  -- An outcome that is handed on takes what was put off from the stack.
  | @stop b d scope x xs s t o s' _ ho ih =>
    refine .start ((ih _).trans (.resume ?_))
    cases o with
    | finished => exact absurd rfl ho
    | leaveLoop | nextPass | failed => exact .refl
  | whileFail hc | whileEnd hc | chooseFail hc =>
    refine .start ?_
    simp only [Config.turn, Task.start, hc, Deed.apply]
    exact .refl
  -- Between two passes the loop is on the stack, and it is what resumes.
  | whileNext hc _ ho _ ih ih' =>
    refine .start ?_
    simp only [Config.turn, Task.start, hc, Deed.apply]
    refine (ih _).trans (.resume ?_)
    simp only [Config.turn, Sequel.resume, ho]
    exact ih' _
  | whileExit hc _ ho ih =>
    refine .start ?_
    simp only [Config.turn, Task.start, hc, Deed.apply]
    refine (ih _).trans (.resume ?_)
    simp only [Config.turn, Sequel.resume, ho]
    exact .refl
  | forFail he =>
    refine .start ?_
    simp only [Config.turn, Task.start, he]
    exact .refl
  | forEach he _ ih =>
    refine .start ?_
    simp only [Config.turn, Task.start, he]
    exact ih _
  | eachNext _ ho _ ih ih' =>
    refine .start ((ih _).trans (.resume ?_))
    simp only [Config.turn, Sequel.resume, ho]
    exact ih' _
  | eachExit _ ho ih =>
    refine .start ((ih _).trans (.resume ?_))
    simp only [Config.turn, Sequel.resume, ho]
    exact .refl
  | chooseElse _ ih => exact .start (ih _)
  | chooseHere hc _ ih | chooseNext hc _ ih =>
    refine .start ?_
    simp only [Config.turn, Task.start, hc, Deed.apply]
    exact ih _
  -- Commands with unknown names
  | notCallable hcall | tooDeep hcall =>
    refine .start ?_
    simp only [Config.turn, Task.start, hcall]
    exact .refl
  | notExpanded hcall he =>
    refine .start ?_
    simp only [Config.turn, Task.start, hcall, he]
    exact .refl
  | native hcall he _ ih | chain hcall he _ ih =>
    refine .start ?_
    simp only [Config.turn, Task.start, hcall, he]
    exact ih _
  | expanded hcall he _ ih =>
    refine .start ?_
    simp only [Config.turn, Task.start, hcall, he]
    exact (ih _).trans (.resume .refl)
  | report _ ih | reportError _ ih | setVariable _ ih | askBudget _ ih => exact .start (ih _)
  | runNothing hp _ ih =>
    refine .start ?_
    simp only [Config.turn, Task.start, hp]
    exact ih _
  | runScript hp _ _ ih ih' =>
    refine .start ?_
    simp only [Config.turn, Task.start, hp]
    exact (ih _).trans (.resume (ih' _))

/-! ### From the machine to the rules

What a configuration comes to is read from the top of the stack to the bottom: each sequel makes
another outcome and another session of what it is given. -/

/-- How a control comes to its end under the rules. -/
def Control.Ends (o : Outcome) (s' : Session) : Control → Session → Prop
  | .idle, _ => False
  | .run site task, s => ∃ t, Runs site.budget site.depth site.scope task s t o s'
  | .ended o', s => o' = o ∧ s = s'

/-- How sequels come to their end under the rules, behind something that ended with `o`. -/
def RestEnds (o' : Outcome) (s' : Session) : List Sequel → Outcome → Session → Prop
  | [], o, s => o = o' ∧ s = s'
  | q :: sequels, o, s => ∃ o₁ s₁,
      (q.resume s o).next.Ends o₁ s₁ ((q.resume s o).deed.apply s) ∧ RestEnds o' s' sequels o₁ s₁

/-- How a configuration comes to the end of its script under the rules. -/
def Config.Ends (o : Outcome) (s' : Session) (c : Config) : Prop :=
  ∃ o₁ s₁, c.control.Ends o₁ s₁ c.session ∧ RestEnds o s' c.sequels o₁ s₁

section Back

variable {site : Site} {s s₁ s' : Session} {o₁ o o' : Outcome}

/-- What is put off by a task comes before what was put off already. -/
theorem restEnds_append {first rest : List Sequel} :
    RestEnds o' s' (first ++ rest) o s ↔
      ∃ o₁ s₁, RestEnds o₁ s₁ first o s ∧ RestEnds o' s' rest o₁ s₁ := by
  induction first generalizing o s with
  | nil => simp [RestEnds]
  | cons q first ih =>
    simp only [List.cons_append, RestEnds, ih]
    constructor
    · rintro ⟨o₁, s₁, hq, o₂, s₂, hf, hr⟩
      exact ⟨o₂, s₂, ⟨o₁, s₁, hq, hf⟩, hr⟩
    · rintro ⟨o₂, s₂, ⟨o₁, s₁, hq, hf⟩, hr⟩
      exact ⟨o₁, s₁, hq, o₂, s₂, hf, hr⟩

/-- A task puts one thing off at most. -/
theorem restEnds_singleton {q : Sequel} :
    RestEnds o' s' [q] o s ↔ (q.resume s o).next.Ends o' s' ((q.resume s o).deed.apply s) := by
  simp [RestEnds]

/-- No sequel puts anything off. -/
theorem Sequel.sequels_resume (q : Sequel) (s : Session) (o : Outcome) :
    (q.resume s o).sequels = [] := by
  cases q with
  | body => cases o <;> rfl
  | passes | each => simp only [Sequel.resume]; split <;> rfl
  | absorb | handler => rfl

/-- The rules for the beginning of a body: whether its first statement finishes is only seen when it
ends. -/
theorem runs_body_cons {x : Stmt} {xs : List Stmt}
    (h : (Control.run site (.stmt x)).Ends o₁ s₁ s)
    (hrest : ((Sequel.body site xs).resume s₁ o₁).next.Ends o s'
      (((Sequel.body site xs).resume s₁ o₁).deed.apply s₁)) :
    ∃ t, Runs site.budget site.depth site.scope (.body (x :: xs)) s t o s' := by
  obtain ⟨t, ht⟩ := h
  cases o₁ with
  | finished =>
    obtain ⟨u, hu⟩ := hrest
    exact ⟨_, .cons ht hu⟩
  | leaveLoop | nextPass | failed =>
    obtain ⟨rfl, rfl⟩ := hrest
    exact ⟨_, .stop ht (by simp)⟩

/-- What a task begins with comes to the same as the task. This is the way back for the first move
of a task, and the cases are those of the function: the derivations for what it puts off are the
premises of the rule, in the order of the rule. -/
theorem Task.runs_of_start {task : Task}
    (h : (task.start site s).next.Ends o₁ s₁ ((task.start site s).deed.apply s))
    (hrest : RestEnds o s' (task.start site s).sequels o₁ s₁) :
    ∃ t, Runs site.budget site.depth site.scope task s t o s' := by
  revert h hrest
  fun_cases Task.start site s task with
  -- Statements that hold no others
  | case1 c =>
    rintro ⟨rfl, rfl⟩ ⟨rfl, rfl⟩
    exact ⟨_, .simple⟩
  | case2 h =>
    rintro ⟨rfl, rfl⟩ ⟨rfl, rfl⟩
    exact ⟨_, .hook⟩
  | case3 range name argument =>
    rintro ⟨t, ht⟩ ⟨rfl, rfl⟩
    exact ⟨t, .unknown ht⟩
  | case4 xs =>
    rintro ⟨t, ht⟩ ⟨rfl, rfl⟩
    exact ⟨t, .block ht⟩
  -- `:while`, whose condition fails, does not hold, or holds
  | case5 c xs e hc =>
    rintro ⟨rfl, rfl⟩ ⟨rfl, rfl⟩
    exact ⟨_, .whileFail (Prod.ext hc rfl)⟩
  | case6 c xs hc =>
    rintro ⟨rfl, rfl⟩ ⟨rfl, rfl⟩
    exact ⟨_, .whileEnd (Prod.ext hc rfl)⟩
  | case7 c xs hc =>
    rintro ⟨t, ht⟩ hrest
    have hc : c.checkWithin site.budget site.scope s = (.ok true, _) := Prod.ext hc rfl
    rw [restEnds_singleton, Sequel.resume] at hrest
    split at hrest
    next ho =>
      obtain ⟨u, hu⟩ := hrest
      exact ⟨_, .whileNext hc ht ho hu⟩
    next ho =>
      obtain ⟨rfl, rfl⟩ := hrest
      exact ⟨_, .whileExit hc ht ho⟩
  -- `:for`, whose list cannot be evaluated, or can
  | case8 name e xs err he =>
    rintro ⟨rfl, rfl⟩ ⟨rfl, rfl⟩
    exact ⟨_, .forFail he⟩
  | case9 name e xs values he =>
    rintro ⟨t, ht⟩ ⟨rfl, rfl⟩
    exact ⟨_, .forEach he ht⟩
  -- `:if`
  | case10 =>
    rintro ⟨rfl, rfl⟩ ⟨rfl, rfl⟩
    exact ⟨_, .chooseNone⟩
  | case11 xs =>
    rintro ⟨t, ht⟩ ⟨rfl, rfl⟩
    exact ⟨_, .chooseElse ht⟩
  | case12 c xs branches otherwise e hc =>
    rintro ⟨rfl, rfl⟩ ⟨rfl, rfl⟩
    exact ⟨_, .chooseFail (Prod.ext hc rfl)⟩
  | case13 c xs branches otherwise hc =>
    rintro ⟨t, ht⟩ ⟨rfl, rfl⟩
    exact ⟨_, .chooseNext (Prod.ext hc rfl) ht⟩
  | case14 c xs branches otherwise hc =>
    rintro ⟨t, ht⟩ ⟨rfl, rfl⟩
    exact ⟨_, .chooseHere (Prod.ext hc rfl) ht⟩
  -- Statements, and values of a `:for`, one after the other
  | case15 =>
    rintro ⟨rfl, rfl⟩ ⟨rfl, rfl⟩
    exact ⟨_, .nil⟩
  | case16 x xs =>
    intro h hrest
    exact runs_body_cons h (restEnds_singleton.1 hrest)
  | case17 name xs =>
    rintro ⟨rfl, rfl⟩ ⟨rfl, rfl⟩
    exact ⟨_, .eachEnd⟩
  | case18 name xs v values =>
    rintro ⟨t, ht⟩ hrest
    rw [restEnds_singleton, Sequel.resume] at hrest
    split at hrest
    next ho =>
      obtain ⟨u, hu⟩ := hrest
      exact ⟨_, .eachNext ht ho hu⟩
    next ho =>
      obtain ⟨rfl, rfl⟩ := hrest
      exact ⟨_, .eachExit ht ho⟩
  -- Commands with unknown names
  | case19 name argument hcall =>
    rintro ⟨rfl, rfl⟩ ⟨rfl, rfl⟩
    exact ⟨_, .notCallable (by simpa using hcall)⟩
  | case20 name argument hcall hb =>
    rintro ⟨rfl, rfl⟩ ⟨rfl, rfl⟩
    rw [hb]
    exact ⟨_, .tooDeep (by simpa using hcall)⟩
  | case21 name argument hcall budget hb e he =>
    rintro ⟨rfl, rfl⟩ ⟨rfl, rfl⟩
    rw [hb]
    exact ⟨_, .notExpanded (by simpa using hcall) he⟩
  | case22 name argument hcall budget hb inside n he =>
    rintro ⟨t, ht⟩ ⟨rfl, rfl⟩
    rw [hb]
    exact ⟨_, .native (by simpa using hcall) he ht⟩
  | case23 name argument hcall budget hb inside next argument' he =>
    rintro ⟨t, ht⟩ ⟨rfl, rfl⟩
    rw [hb]
    exact ⟨_, .chain (by simpa using hcall) he ht⟩
  | case24 name argument hcall budget hb inside x he =>
    rintro ⟨t, ht⟩ hrest
    obtain ⟨rfl, rfl⟩ := restEnds_singleton.1 hrest
    rw [hb]
    exact ⟨_, .expanded (by simpa using hcall) he ht⟩
  -- Handlers
  | case25 =>
    rintro ⟨rfl, rfl⟩ ⟨rfl, rfl⟩
    exact ⟨_, .done⟩
  | case26 text next =>
    rintro ⟨t, ht⟩ ⟨rfl, rfl⟩
    exact ⟨t, .report ht⟩
  | case27 cause next =>
    rintro ⟨t, ht⟩ ⟨rfl, rfl⟩
    exact ⟨t, .reportError ht⟩
  | case28 name v next =>
    rintro ⟨t, ht⟩ ⟨rfl, rfl⟩
    exact ⟨t, .setVariable ht⟩
  | case29 next =>
    rintro ⟨t, ht⟩ ⟨rfl, rfl⟩
    exact ⟨t, .askBudget ht⟩
  | case30 text next hp =>
    rintro ⟨t, ht⟩ ⟨rfl, rfl⟩
    exact ⟨t, .runNothing hp ht⟩
  | case31 text next x hp =>
    rintro ⟨t, ht⟩ hrest
    obtain ⟨u, hu⟩ := restEnds_singleton.1 hrest
    exact ⟨_, .runScript hp ht hu⟩

/-- **What a configuration comes to is what a move leaves of it.** This is the step from the end of
a run towards its beginning. -/
theorem Move.ends {c c' : Config} {d : Deed} (h : Move c d c') (hends : c'.Ends o s') :
    c.Ends o s' := by
  obtain ⟨o₁, s₁, hcontrol, hrest⟩ := hends
  cases h with
  | start =>
    obtain ⟨o₂, s₂, hfirst, hrest⟩ := restEnds_append.1 hrest
    exact ⟨o₂, s₂, Task.runs_of_start hcontrol hfirst, hrest⟩
  | @resume o q sequels s =>
    rw [Config.turn, q.sequels_resume] at hrest
    exact ⟨o, s, ⟨rfl, rfl⟩, o₁, s₁, hcontrol, hrest⟩

/-- And so for any number of moves, the last one first. -/
theorem Leads.ends {c c' : Config} (h : Leads c c') (hends : c'.Ends o s') : c.Ends o s' := by
  induction h using Relation.ReflTransGen.head_induction_on with
  | refl => exact hends
  | head hmove _ ih =>
    obtain ⟨d, hmove⟩ := hmove
    exact hmove.ends ih

end Back

/-- **The machine and the rules agree.** The machine comes from the beginning of a task to its end
exactly if the task ends so under the rules. -/
theorem leads_iff_runs {site : Site} {task : Task} {s s' : Session} {o : Outcome} :
    Leads ⟨.run site task, [], s⟩ ⟨.ended o, [], s'⟩ ↔
      ∃ t, Runs site.budget site.depth site.scope task s t o s' := by
  constructor
  · intro h
    obtain ⟨o₁, s₁, hruns, rfl, rfl⟩ := h.ends ⟨o, s', ⟨rfl, rfl⟩, rfl, rfl⟩
    exact hruns
  · rintro ⟨t, ht⟩
    exact ht.leads []

/-! ### Scripts

Around the moves of a script there is one step in which it is read and one in which it ends. A
script that cannot be read is a single step. -/

/-- A script that could be read and came to an end, in steps. -/
theorem Runs.steps {text : String} {body : List Stmt} {s s' : Session} {t : Trace} {o : Outcome}
    (hparse : Script.parse text = .ok body)
    (h : Runs maxExpansions 0 .root (.body body) s t o s') :
    ∃ ds, Steps (.idle s) ds (.idle (o.conclude s')) := by
  obtain ⟨ds, hds⟩ := (h.leads []).steps
  exact ⟨_, .snoc (.cons (.read hparse) hds) .finish⟩

/-- **Running a script to its end is a row of steps**, from where no script is run to where no
script is run again, and the session is the one that the function leaves. -/
theorem Machine.steps_of_runScript {m m' : Machine} {text : String} {r : Except Error Unit}
    (h : m.runScript text = (some r, m')) :
    ∃ ds, Steps (.idle m.session) ds (.idle m'.session) := by
  obtain ⟨t, ht, -⟩ := runScript_iff.mp h
  generalize m'.session = s' at ht ⊢
  cases ht with
  | unreadable hparse => exact ⟨_, .snoc .refl (.refuse hparse)⟩
  | @ended body _ o _ hparse hrun ho =>
    have hconclude : o.conclude s' = s' := by
      cases o with
      | failed => cases ho
      | finished | leaveLoop | nextPass => rfl
    exact hconclude ▸ hrun.steps hparse
  | failed hparse hrun => exact hrun.steps hparse

end ExScript
