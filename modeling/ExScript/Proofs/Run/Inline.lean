import ExScript.Proofs.Run.Depth
import ExScript.Proofs.Run.Report
import ExScript.Proofs.Script.Plain

/-!
# A user command is a name for its text

A script that is nothing but the name of a user command without arguments does what the text of the
user command does as a script. The two come about in different ways. The text is read and run at the
top; the name is read as a command that is not known, expanded, and the text is then run with a
budget that is smaller by one, inside of an expansion that shows an error and takes it in.

Two things can be told apart. An expansion that comes up at the very end of the budget is one too
deep if the text stands behind a name, so the attempts to expand names have to stay away from it.
And what fails in the text is not an error of the name: it is shown, but the bell is left alone,
unless the text is again nothing but a command with an unknown name. Running out of budget is the
only failure that would get through, and that only happens at an attempt beyond the budget.

## Main definitions

* `Registry.Names` — a name of a user command without arguments stands for a text

## Main results

* `Runs.narrow_of_within` — a run with a smaller budget that is large enough
* `Runs.attempt_of_tooDeep` — where the budget runs out, there was an attempt beyond it
* `runScript_name` — the name and the text as scripts
-/

namespace ExScript

variable {b d : Nat} {scope : Scope} {task : Task} {s s' : Session} {t : Trace} {o : Outcome}

/-! ### The same run elsewhere

The text is run as a script and inside of an expansion: with another number of expansions around it
and with a smaller budget. The first is not known to anything that runs. The second is, but only
where the budget runs out and to hooks, and there are none in a text. -/

/-- How many expansions there are around a run does not matter to it: the depth is written into the
trace and is used for nothing else. Of the trace only the passes are kept. -/
theorem Runs.atDepth (h : Runs b d scope task s t o s') (d' : Nat) :
    ∃ t', Runs b d' scope task s t' o s' ∧ t'.passes = t.passes := by
  have run : Run.withBudget b (task.run b scope) ⟨t.passes, s⟩ = (some o, ⟨0, s'⟩) :=
    (withBudget_run_iff d task).mpr ⟨t, h, by simp⟩
  obtain ⟨t', ht', hpasses⟩ := (withBudget_run_iff d' task).mp run
  exact ⟨t', ht', by simpa using hpasses.symm⟩

/-- A smaller budget changes nothing if no attempt is beyond it. -/
theorem Runs.narrow_of_within {large : Nat} (h : Runs large d scope task s t o s')
    (hs : s.commands.OnlyScripts) (hx : task.AllHooks Hook.IgnoresBudget) (hb : b ≤ large)
    (hwithin : t.Within (d + b)) : Runs b d scope task s t o s' := by
  rcases h.narrow hs hx hb with ⟨-, hr⟩ | ⟨t₁, name, s₁, t₂, rfl, -, -⟩
  · exact hr
  · have hle : d + b + 1 ≤ d + b := hwithin (d + b + 1) (by simp [Trace.depths, Moment.depth?])
    omega

/-! ### Where the budget runs out

The failure for want of budget is followed back to where it arose. It goes through everything that
is around it without a change, so an outcome that is this failure was this failure one level further
in; and where there is no further in, it is either an attempt without any budget or the error of
something that is not an expansion, which never has this cause. -/

theorem Outcome.eq_of_exit_tooDeep {o o' : Outcome} (h : o.inLoop = .exit o')
    (ho : o' = .failed .expansionTooDeep) : o = .failed .expansionTooDeep := by
  subst ho
  cases o <;> cases h
  rfl

theorem Outcome.eq_of_absorb_tooDeep {o : Outcome} {s : Session}
    (h : (absorb o s).1 = .failed .expansionTooDeep) : o = .failed .expansionTooDeep := by
  rw [absorb.eq_def] at h
  split at h
  · rfl
  · cases h
  · cases h

/-- **A run fails for want of budget only at an attempt beyond it.** The number does not change on
the way in, because an expansion adds to the depth what it takes from the budget. -/
theorem Runs.attempt_of_tooDeep (h : Runs b d scope task s t o s') (hs : s.commands.OnlyScripts)
    (hx : task.AllHooks fun _ => False) (ho : o = .failed .expansionTooDeep) :
    d + b + 1 ∈ t.depths := by
  induction h with
  | @simple _ _ scope c s => exact absurd ho (c.run_ne_tooDeep scope s)
  | hook => exact hx.elim
  | unknown _ ih => exact ih hs trivial ho
  | block _ ih => exact ih hs hx ho
  | cons hrun _ _ ih =>
    rw [Trace.depths_append]
    exact List.mem_append_right _ (ih (hrun.onlyScripts hs) hx.2 ho)
  | stop _ _ ih => exact ih hs hx.1 ho
  | whileFail hc =>
    cases ho
    exact absurd rfl (Condition.ne_tooDeep_of_checkWithin hx.1 hc)
  | @whileNext b d _ _ _ _ _ t _ _ u _ _ hc hrun _ _ _ ihl =>
    have hs₁ := (Condition.effect_of_checkWithin hc).scripts hs
    have later := ihl (hrun.onlyScripts hs₁) hx ho
    show d + b + 1 ∈ Trace.depths (t ++ u)
    rw [Trace.depths_append]
    exact List.mem_append_right _ later
  | whileExit hc _ hexit ihb =>
    have hs₁ := (Condition.effect_of_checkWithin hc).scripts hs
    exact ihb hs₁ hx.2 (Outcome.eq_of_exit_tooDeep hexit ho)
  | @forFail _ _ _ _ e _ s _ he =>
    cases ho
    exact absurd he (itemsOf_ne_tooDeep e s.vars)
  | forEach _ _ ih => exact ih hs hx ho
  | @eachNext b d _ _ _ _ _ _ t _ _ u _ _ hrun _ _ _ ihl =>
    have later := ihl (hrun.onlyScripts hs) hx ho
    show d + b + 1 ∈ Trace.depths (t ++ u)
    rw [Trace.depths_append]
    exact List.mem_append_right _ later
  | eachExit _ hexit ihb => exact ihb hs hx (Outcome.eq_of_exit_tooDeep hexit ho)
  | chooseElse _ ih => exact ih hs hx.2 ho
  | chooseFail hc =>
    cases ho
    exact absurd rfl (Condition.ne_tooDeep_of_checkWithin hx.1.1 hc)
  | chooseHere hc _ ih => exact ih ((Condition.effect_of_checkWithin hc).scripts hs) hx.1.2.1 ho
  | chooseNext hc _ ih =>
    exact ih ((Condition.effect_of_checkWithin hc).scripts hs) ⟨hx.1.2.2, hx.2⟩ ho
  | tooDeep => exact List.mem_cons_self
  | @notExpanded _ _ _ name argument s _ _ he =>
    cases ho
    exact absurd he (s.commands.expansion_ne_tooDeep name argument)
  | native _ he => exact absurd he hs.expansion_ne_handler
  | @chain b d _ _ _ _ _ _ _ _ _ _ _ _ ih =>
    have inner := ih hs trivial ho
    rw [show d + 1 + b + 1 = d + (b + 1) + 1 by omega] at inner
    exact List.mem_cons_of_mem _ inner
  | @expanded b d _ _ _ _ _ _ _ _ _ he _ ih =>
    obtain ⟨text, hparse⟩ := Registry.parseCommand?_of_expansion he
    have inner := ih hs (Script.allHooks_of_parseCommand? _ hparse) (Outcome.eq_of_absorb_tooDeep ho)
    rw [show d + 1 + b + 1 = d + (b + 1) + 1 by omega] at inner
    exact List.mem_cons_of_mem _ inner
  | done | report | reportError | setVariable | askBudget | runNothing | runScript => exact hx.elim
  | nil | whileEnd | eachEnd | chooseNone | notCallable => cases ho

/-! ### Texts as statements -/

/-- A script that can be read and has any statements is one statement: its only one, or the block
of all of them. -/
theorem Script.parseCommand?_of_parse {text : String} {body : List Stmt}
    (h : parse text = .ok body) (hbody : body ≠ []) :
    ∃ x, parseCommand? text = some x ∧ (body = [x] ∨ x = .block body) := by
  rw [parseCommand?, h]
  rcases body with _ | ⟨x, _ | ⟨y, rest⟩⟩
  · exact absurd rfl hbody
  · exact ⟨x, rfl, .inl rfl⟩
  · exact ⟨_, rfl, .inr rfl⟩

/-! A sequence of one statement is the statement, which is used in both directions: a script that is
only a name is a sequence, and so is a text that is read as a script and not as a command. -/

theorem Runs.of_single {x : Stmt} (h : Runs b d scope (.body [x]) s t o s') :
    Runs b d scope (.stmt x) s t o s' := by
  cases h with
  | cons hx hnil =>
    cases hnil
    rwa [List.append_nil]
  | stop hx ho => exact hx

theorem Runs.single {x : Stmt} (h : Runs b d scope (.stmt x) s t o s') :
    Runs b d scope (.body [x]) s t o s' := by
  by_cases ho : o = .finished
  · subst ho
    rw [← List.append_nil t]
    exact .cons h .nil
  · exact .stop h ho

/-! ### Names

What has to be true of a name for all this. That there are no placeholders is asked for because the
text is not changed then; that there are no arguments, because the name is written without. -/

/-- A name is that of a user command without arguments, and the text that it stands for holds no
placeholders. -/
structure Registry.Names (registry : Registry) (name text : String) : Prop where
  isName : Script.IsName name.toList
  bound : ∃ c, registry.get? name = some c ∧ c.arity = ⟨0, some 0⟩ ∧ c.replacement = .script text
  plain : Placeholder.substitute text "" = text

namespace Registry.Names

variable {registry : Registry} {name text : String}

/-- A name of a user command can be called: it begins with a capital letter, and it is bound. -/
theorem isCallable (h : registry.Names name text) : registry.isCallable name = true := by
  obtain ⟨c, hc, -, -⟩ := h.bound
  have capital := h.isName.startsUppercase
  obtain ⟨first, rest, hname, -⟩ := h.isName
  rw [hname, Keyword.startsUppercase] at capital
  have bound : registry.contains name = true := by
    rw [contains, Table.contains, show registry.table.get? name = some c from hc]
    rfl
  simp [Registry.isCallable, hname, capital, bound]

/-- Without an argument and without placeholders the text is what is run. -/
theorem goal_eq (h : registry.Names name text) : registry.goal name "" = .ok (.script text) := by
  obtain ⟨c, hc, harity, htext⟩ := h.bound
  have noArguments : trimmed "" = "" := by decide
  have allowed : Arity.check ⟨0, some 0⟩ "" = .ok () := by decide
  rw [goal, hc]
  simp only [UserCommand.goal, noArguments, harity, allowed, htext, h.plain]

/-- A text that holds a statement is not blank. An expansion asks for this before it reads the
text. -/
theorem notBlank {x : Stmt} (hx : Script.parseCommand? text = some x) :
    (Text.trim text.toList).isEmpty = false := by
  rw [List.isEmpty_eq_false_iff]
  intro htrim
  rw [Script.parseCommand?_of_blank (Text.isBlank_of_trim_eq_nil htrim)] at hx
  cases hx

/-- The text hands over if all it holds is another name. -/
theorem expansion_unknown (h : registry.Names name text) {range : LineRange}
    {next argument : String} (hx : Script.parseCommand? text = some (.unknown range next argument)) :
    registry.expansion name "" = .ok (.command next argument) := by
  simp only [expansion, h.goal_eq, notBlank hx, hx]
  rfl

/-- Otherwise it is run. -/
theorem expansion_body (h : registry.Names name text) {x : Stmt}
    (hx : Script.parseCommand? text = some x)
    (hunknown : ∀ range next argument, x ≠ .unknown range next argument) :
    registry.expansion name "" = .ok (.body x) := by
  simp only [expansion, h.goal_eq, notBlank hx, hx]
  cases x with
  | unknown range next argument => exact absurd rfl (hunknown range next argument)
  | _ => rfl

end Registry.Names

/-! ### What a name does -/

section Names

variable {name text : String} {body : List Stmt}

/-- A name whose text is a single command with an unknown name does what that command does. -/
theorem Registry.Names.runs_unknown {range : LineRange} {next argument : String}
    (hname : s.commands.Names name text)
    (hparse : Script.parse text = .ok [.unknown range next argument])
    (h : Runs b (d + 1) scope (.body [.unknown range next argument]) s t o s') :
    Runs (b + 1) d scope (.call name "") s (.attempt name (d + 1) s :: t) o s' := by
  have hx : Script.parseCommand? text = some (.unknown range next argument) := by
    rw [Script.parseCommand?, hparse]
  cases h.of_single with
  | unknown run => exact .chain hname.isCallable (hname.expansion_unknown hx) run

/-- A name with any other text runs it and takes in what it ends with. -/
theorem Registry.Names.runs_body (hname : s.commands.Names name text)
    (hparse : Script.parse text = .ok body) (hbody : body ≠ [])
    (hunknown : ∀ range next argument, body ≠ [.unknown range next argument])
    (h : Runs b (d + 1) scope (.body body) s t o s') :
    Runs (b + 1) d scope (.call name "") s (.attempt name (d + 1) s :: t) (absorb o s').1
      (absorb o s').2 := by
  obtain ⟨x, hx, rfl | rfl⟩ := Script.parseCommand?_of_parse hparse hbody
  · have expansion : s.commands.expansion name "" = .ok (.body x) := by
      refine hname.expansion_body hx ?_
      rintro range next argument rfl
      exact hunknown range next argument rfl
    exact .expanded hname.isCallable expansion h.of_single
  · have expansion : s.commands.expansion name "" = .ok (.body (.block body)) :=
      hname.expansion_body hx fun _ _ _ => Stmt.noConfusion
    exact .expanded hname.isCallable expansion (.block h)

/-! ### The name and the text as scripts -/

/-- What becomes of a machine at the top of a script that ends so. -/
def Machine.endScript (m : Machine) : Outcome → Option (Except Error Unit) × Machine
  | .failed e => (some (.error e), m.fail e)
  | _ => (some (.ok ()), m)

/-- What the rules say of the statements is what running the text as a script comes to. -/
theorem Machine.runScript_of_runs {m : Machine} {fuel : Nat} (hparse : Script.parse text = .ok body)
    (h : Runs maxExpansions 0 .root (.body body) m.session t o s')
    (hfuel : m.fuel = fuel + t.passes) : m.runScript text = Machine.endScript ⟨fuel, s'⟩ o := by
  cases o with
  | failed e => exact runScript_iff.mpr ⟨t, .failed hparse h, hfuel⟩
  | _ => exact runScript_iff.mpr ⟨t, .ended hparse h rfl, hfuel⟩

/-- A script that can be read was run by the rules, and ended as the top of a script ends. -/
theorem RunsScript.exists_runs {r : Except Error Unit} (h : RunsScript text s t r s')
    (hparse : Script.parse text = .ok body) :
    ∃ o s₁, Runs maxExpansions 0 .root (.body body) s t o s₁ ∧
      ∀ fuel, Machine.endScript ⟨fuel, s₁⟩ o = (some r, ⟨fuel, s'⟩) := by
  cases h with
  | unreadable hparse' => cases hparse.symm.trans hparse'
  | @ended _ _ o _ hparse' hrun ho =>
    cases hparse.symm.trans hparse'
    refine ⟨o, s', hrun, fun fuel => ?_⟩
    cases o with
    | failed e => cases ho
    | _ => rfl
  | failed hparse' hrun =>
    cases hparse.symm.trans hparse'
    exact ⟨_, _, hrun, fun fuel => rfl⟩

/-- Unless the budget ran out, taking in what a text ends with leaves what the text leaves at the
top of a script, but for the bell. -/
theorem Machine.absorb_of_endScript {m m' : Machine} {r : Except Error Unit}
    (ho : o ≠ .failed .expansionTooDeep) (h : m.endScript o = (some r, m')) :
    (absorb o m.session).1 = .finished ∧
      (r = .ok () → m'.session = (absorb o m.session).2) ∧
        ∀ e, r = .error e → m'.session = (absorb o m.session).2.tell .bell := by
  obtain ⟨hr, hm⟩ := Prod.mk.inj h
  have session := (congrArg Machine.session hm).symm
  cases o with
  | failed e =>
    have hne : e ≠ .expansionTooDeep := by simpa using ho
    cases hr
    rw [absorb_failed hne]
    refine ⟨rfl, ?_, fun _ _ => session⟩
    rintro ⟨⟩
  | _ =>
    cases hr
    refine ⟨rfl, fun _ => session, ?_⟩
    rintro _ ⟨⟩

/-- **A user command is a name for its text.** Let a name stand for a text that holds statements,
and let the text come to an end as a script without an attempt at the end of the budget. If it is a
single command with an unknown name, the name does the same as a script. Otherwise the name always
succeeds, and it leaves the session that the text leaves, down to the messages and errors that were
shown; only the bell that the text rings when it fails is missing. -/
theorem runScript_name {m m' : Machine} {r : Except Error Unit}
    (hs : m.session.commands.OnlyScripts) (hname : m.session.commands.Names name text)
    (hparse : Script.parse text = .ok body) (hbody : body ≠ [])
    (hrun : m.runScript text = (some r, m')) (ht : RunsScript text m.session t r m'.session)
    (hdepth : ∀ k ∈ t.depths, k ≤ maxExpansions - 1) :
    ((∃ range next argument, body = [.unknown range next argument]) →
        m.runScript name = (some r, m')) ∧
      ((∀ range next argument, body ≠ [.unknown range next argument]) →
        ∃ s₁, m.runScript name = (some (.ok ()), ⟨m'.fuel, s₁⟩) ∧
          (r = .ok () → m'.session = s₁) ∧ ∀ e, r = .error e → m'.session = s₁.tell .bell) := by
  obtain ⟨o, s₁, hruns, hend⟩ := ht.exists_runs hparse
  have hfuel : m.fuel = m'.fuel + t.passes := by
    obtain ⟨t₀, ht₀, hfuel⟩ := runScript_iff.mp hrun
    obtain ⟨o₀, s₀, hruns₀, -⟩ := ht₀.exists_runs hparse
    rw [hfuel, (hruns₀.functional hruns).2.2]
  -- The text runs with a budget that is smaller by one, inside of an expansion, as at the top.
  obtain ⟨u, hu, hpasses⟩ : ∃ u, Runs (maxExpansions - 1) 1 .root (.body body) m.session u o s₁ ∧
      u.passes = t.passes := by
    have hooks := Script.allHooks_of_parse Hook.IgnoresBudget hparse
    have within : t.Within (0 + (maxExpansions - 1)) := by
      rwa [Nat.zero_add]
    exact (hruns.narrow_of_within hs hooks (Nat.sub_le _ _) within).atDepth 1
  -- The name itself is a script of one command, whose trace has one more attempt and no more
  -- passes.
  have hcall : ∀ {o' s₂}, Runs maxExpansions 0 .root (.call name "") m.session
      (.attempt name 1 m.session :: u) o' s₂ →
        m.runScript name = Machine.endScript ⟨m'.fuel, s₂⟩ o' := by
    intro o' s₂ h
    refine Machine.runScript_of_runs (Script.parse_name hname.isName) (.single (.unknown h)) ?_
    rw [hfuel, Trace.passes_attempt, hpasses]
  constructor
  · rintro ⟨range, next, argument, rfl⟩
    rw [hcall (hname.runs_unknown hparse hu), hend]
  · intro hunknown
    -- The only failure that would get through is excluded by where attempts were made.
    have hdeep : o ≠ .failed .expansionTooDeep := by
      rintro rfl
      have attempt := hruns.attempt_of_tooDeep hs (Script.allHooks_of_parse _ hparse) rfl
      have hle := hdepth _ attempt
      omega
    have named := hcall (hname.runs_body hparse hbody hunknown hu)
    obtain ⟨finished, same, silent⟩ := Machine.absorb_of_endScript hdeep (hend m'.fuel)
    rw [finished] at named
    exact ⟨_, named, same, silent⟩

end Names

/-- A machine in which `A` stands for something that asks to quit and then fails. -/
def quittingCommand : Machine :=
  ⟨0, { commands := Registry.empty.define "A" ⟨0, some 0⟩ "quit|Nope" }⟩

/-- The text fails and rings the bell, and `A` succeeds without; in all else they do the same. -/
theorem runScript_name_quittingCommand :
    ∃ s₁, quittingCommand.runScript "A" = (some (.ok ()), ⟨0, s₁⟩) ∧
      (quittingCommand.runScript "quit|Nope").1 = some (.error (.notACommand "Nope")) ∧
      (quittingCommand.runScript "quit|Nope").2.session = s₁.tell .bell := by
  have hs : quittingCommand.session.commands.OnlyScripts :=
    Registry.OnlyScripts.empty.define "A" _ _
  have hname : quittingCommand.session.commands.Names "A" "quit|Nope" :=
    ⟨⟨'A', [], rfl, by decide, by simp⟩, ⟨_, rfl, rfl, rfl⟩, by decide +kernel⟩
  have hparse : Script.parse "quit|Nope" = .ok [.simple (.quit ""), .unknown {} "Nope" ""] := by
    have row : Script.statements "quit|Nope".toList = ["quit".toList, "Nope".toList] := by
      decide +kernel
    have first : Script.readLine "quit".toList = .ok (.plain (.simple (.quit ""))) := rfl
    have second : Script.readLine "Nope".toList = .ok (.plain (.unknown {} "Nope" "")) :=
      Script.readLine_name ⟨'N', "ope".toList, rfl, by decide, List.all_eq_true.mp rfl⟩
    rw [Script.parse, row]
    simp only [Script.ofStatements, Script.Draft.steps, Script.Draft.step, first, second]
    rfl
  have hquit : Runs maxExpansions 0 .root (.stmt (.simple (.quit ""))) quittingCommand.session _
      .finished _ :=
    .simple
  have unbound : (Command.run .root quittingCommand.session (.quit "")).2.commands.isCallable
      "Nope" = false := by
    decide +kernel
  have hruns : Runs maxExpansions 0 .root (.body [.simple (.quit ""), .unknown {} "Nope" ""])
      quittingCommand.session _ _ _ :=
    .cons hquit (.stop (.unknown (.notCallable unbound)) Outcome.noConfusion)
  have hrun := Machine.runScript_of_runs (m := quittingCommand) hparse hruns rfl
  obtain ⟨-, succeeds⟩ := runScript_name hs hname hparse (List.cons_ne_nil _ _) hrun
    (.failed hparse hruns) fun k hk => absurd hk List.not_mem_nil
  obtain ⟨s₁, hok, -, hbell⟩ := succeeds (by simp)
  rw [hrun]
  exact ⟨s₁, hok, rfl, hbell _ rfl⟩

end ExScript
