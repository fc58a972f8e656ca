import ExScript.Proofs.Run.Calm

/-!
# The same run elsewhere

A statement is told where it stands, and the only ones that make use of it are `:break` and
`:continue`, which are signals inside of a loop and errors outside of all loops. So a run on which
neither of them has its turn is the same wherever its statements stand.

Two machines that are at the same task in different places take the same steps as long as these
steps are calm, and what they put off until later is again the same up to places. Statements of the
embedding program are told more about their place, so there are none of them in such a task. A
handler is told nothing but how many expansions are left.

## Why not by the signals alone

A signal is not the only difference that a place makes: outside of loops a `:break` is an error,
which is shown and ends the script. So a run in one place may go on where in the other it has
failed. To compare outcomes only, and leave signals aside, would not be enough. What is required is
that neither command *has its turn*, and that is a property of a run and not of the text, since
names are expanded on the way.

The comparison is a simulation in both directions. In the one direction each step here is a step
there, because it is calm. In the other a step there has a step here that goes with it: some step
here can be taken, that one is calm, so it has one there that goes with it, and there is only one
there (`Move.functional`). So it is enough to know of one of the two places that it is calm.

## Main definitions

* `Config.Alike` — the same configuration, up to what stands around

## Main results

* `Task.start_alike`, `Config.Alike.move` — a calm step is the same elsewhere
* `Config.Agrees.place` — where a calm task is run does not matter
-/

namespace ExScript

/-! ### The same, up to places

Budget and depth stay what they are; only the scope is free. Deeds carry a scope as well, so that
they are compared by what they do. -/

/-- A task in which there are no statements of the embedding program. -/
def Task.NoHooks : Task → Prop
  | .handler _ => True
  | task => task.AllHooks fun _ => False

/-- The same sequel, up to what stands around it. -/
inductive Sequel.Alike : Sequel → Sequel → Prop where
  | body {b d scope scope' xs} :
    Task.NoHooks (.body xs) → Alike (.body ⟨b, d, scope⟩ xs) (.body ⟨b, d, scope'⟩ xs)
  | passes {b d scope scope' c xs} :
    Task.NoHooks (.stmt (.whileLoop c xs)) →
      Alike (.passes ⟨b, d, scope⟩ c xs) (.passes ⟨b, d, scope'⟩ c xs)
  | each {b d scope scope' name xs values} :
    Task.NoHooks (.body xs) →
      Alike (.each ⟨b, d, scope⟩ name xs values) (.each ⟨b, d, scope'⟩ name xs values)
  | absorb : Alike .absorb .absorb
  | handler {b d scope scope' next} :
    Alike (.handler ⟨b, d, scope⟩ next) (.handler ⟨b, d, scope'⟩ next)

/-- The same control, up to what stands around it. -/
inductive Control.Alike : Control → Control → Prop where
  | run {b d scope scope' task} :
    Task.NoHooks task → Alike (.run ⟨b, d, scope⟩ task) (.run ⟨b, d, scope'⟩ task)
  | ended {o} : Alike (.ended o) (.ended o)

/-- The same step, up to what stands around it. -/
structure Turn.Alike (t t' : Turn) : Prop where
  /-- One of the deeds is a signal if the other is. -/
  isSignal : t'.deed.isSignal = t.deed.isSignal
  /-- They do the same to every session. -/
  apply (s : Session) : t'.deed.apply s = t.deed.apply s
  next : t.next.Alike t'.next
  sequels : List.Forall₂ Sequel.Alike t.sequels t'.sequels

/-- The same configuration, up to what stands around. -/
structure Config.Alike (c c' : Config) : Prop where
  control : c.control.Alike c'.control
  sequels : List.Forall₂ Sequel.Alike c.sequels c'.sequels
  session : c'.session = c.session

/-- Expressions know nothing of scopes. -/
theorem Condition.checkWithin_of_noHooks {c : Condition} (hc : c.AllHooks fun _ => False) (b : Nat)
    (scope scope' : Scope) : c.checkWithin b scope = c.checkWithin b scope' := by
  cases c with
  | expression e => rfl
  | hook h => exact hc.elim

/-- A command that gives no signals does the same everywhere. -/
theorem Command.run_of_not_isSignal {c : Command} {scope scope' : Scope}
    (h : (Deed.command c scope).isSignal = false) (s : Session) :
    c.run scope' s = c.run scope s := by
  cases c with
  | breakLoop | continueLoop => cases h
  | _ => rfl

/-- A condition that is an expression is asked. -/
theorem Turn.Alike.ask {b d : Nat} {scope : Scope} (scope' : Scope) {c : Condition}
    {next next' : Control} {qs qs' : List Sequel} (hc : c.AllHooks fun _ => False)
    (hnext : next.Alike next') (hqs : List.Forall₂ Sequel.Alike qs qs') :
    Turn.Alike ⟨.ask c ⟨b, d, scope⟩, next, qs⟩ ⟨.ask c ⟨b, d, scope'⟩, next', qs'⟩ := by
  have same := Condition.checkWithin_of_noHooks hc b scope' scope
  exact ⟨rfl, fun s => congrArg Prod.snd (congrFun same s), hnext, hqs⟩

/-! ### Single steps -/

/-- **A step that is calm is the same elsewhere.** The cases are those of the function. In each of
them what decides about the step is known to be the same in both places: the condition, the list, or
what the registry says of a name. -/
theorem Task.start_alike {b d : Nat} {scope : Scope} (scope' : Scope) {s : Session} {task : Task}
    (hx : task.NoHooks) (hcalm : (task.start ⟨b, d, scope⟩ s).deed.isSignal = false) :
    (task.start ⟨b, d, scope⟩ s).Alike (task.start ⟨b, d, scope'⟩ s) := by
  have check {c : Condition} (hc : c.AllHooks fun _ => False) :=
    Condition.checkWithin_of_noHooks hc b scope' scope
  revert hx hcalm
  fun_cases Task.start ⟨b, d, scope⟩ s task with
  -- A command is the only task for which it has to be known that the step is calm.
  | case1 c =>
    intro _ hcalm
    have same (s : Session) : c.run scope' s = c.run scope s :=
      Command.run_of_not_isSignal hcalm s
    refine ⟨?_, fun s => congrArg Prod.snd (same s), ?_, .nil⟩
    · cases c <;> rfl
    · show Control.Alike _ (.ended (c.run scope' s).1)
      rw [same]
      exact .ended
  | case2 h => exact fun hx => hx.elim
  | case3 => exact fun _ _ => ⟨rfl, fun _ => rfl, .run trivial, .nil⟩
  | case4 => exact fun hx _ => ⟨rfl, fun _ => rfl, .run hx, .nil⟩
  | case5 c xs e hc =>
    intro hx _
    simp only [Task.start, check hx.1, hc]
    exact .ask scope' hx.1 .ended .nil
  | case6 c xs hc =>
    intro hx _
    simp only [Task.start, check hx.1, hc]
    exact .ask scope' hx.1 .ended .nil
  | case7 c xs hc =>
    intro hx _
    simp only [Task.start, check hx.1, hc]
    exact .ask scope' hx.1 (.run hx.2) (.cons (.passes hx) .nil)
  | case8 name e xs err he =>
    intro _ _
    simp only [Task.start, he]
    exact ⟨rfl, fun _ => rfl, .ended, .nil⟩
  | case9 name e xs values he =>
    intro hx _
    simp only [Task.start, he]
    exact ⟨rfl, fun _ => rfl, .run hx, .nil⟩
  | case10 | case15 | case17 | case25 => exact fun _ _ => ⟨rfl, fun _ => rfl, .ended, .nil⟩
  | case11 => exact fun hx _ => ⟨rfl, fun _ => rfl, .run hx.2, .nil⟩
  | case12 c xs branches otherwise e hc =>
    intro hx _
    simp only [Task.start, check hx.1.1, hc]
    exact .ask scope' hx.1.1 .ended .nil
  | case13 c xs branches otherwise hc =>
    intro hx _
    simp only [Task.start, check hx.1.1, hc]
    exact .ask scope' hx.1.1 (.run ⟨hx.1.2.2, hx.2⟩) .nil
  | case14 c xs branches otherwise hc =>
    intro hx _
    simp only [Task.start, check hx.1.1, hc]
    exact .ask scope' hx.1.1 (.run hx.1.2.1) .nil
  | case16 => exact fun hx _ => ⟨rfl, fun _ => rfl, .run hx.1, .cons (.body hx.2) .nil⟩
  | case18 => exact fun hx _ => ⟨rfl, fun _ => rfl, .run hx, .cons (.each hx) .nil⟩
  | case19 name argument hcall =>
    intro _ _
    simp only [Task.start, hcall]
    exact ⟨rfl, fun _ => rfl, .ended, .nil⟩
  | case20 name argument hcall hb =>
    intro _ _
    cases hb
    simp only [Task.start, hcall]
    exact ⟨rfl, fun _ => rfl, .ended, .nil⟩
  | case21 name argument hcall budget hb e he =>
    intro _ _
    cases hb
    simp only [Task.start, hcall, he]
    exact ⟨rfl, fun _ => rfl, .ended, .nil⟩
  | case22 name argument hcall budget hb inside n he =>
    intro _ _
    cases hb
    simp only [Task.start, hcall, he]
    exact ⟨rfl, fun _ => rfl, .run trivial, .nil⟩
  | case23 name argument hcall budget hb inside next argument' he =>
    intro _ _
    cases hb
    simp only [Task.start, hcall, he]
    exact ⟨rfl, fun _ => rfl, .run trivial, .nil⟩
  | case24 name argument hcall budget hb inside x he =>
    intro _ _
    cases hb
    -- What the name stands for was read from a text, so there are no hooks in it.
    obtain ⟨text, hparse⟩ := Registry.parseCommand?_of_expansion he
    have hx : Task.NoHooks (.stmt x) := Script.allHooks_of_parseCommand? _ hparse
    simp only [Task.start, hcall, he]
    exact ⟨rfl, fun _ => rfl, .run hx, .cons .absorb .nil⟩
  | case26 | case27 | case28 | case29 =>
    exact fun _ _ => ⟨rfl, fun _ => rfl, .run trivial, .nil⟩
  | case30 text next hp =>
    intro _ _
    simp only [Task.start, hp]
    exact ⟨rfl, fun _ => rfl, .run trivial, .nil⟩
  | case31 text next x hp =>
    intro _ _
    have hx : Task.NoHooks (.stmt x) := Script.allHooks_of_parseCommand? _ hp
    simp only [Task.start, hp]
    exact ⟨rfl, fun _ => rfl, .run hx, .cons .handler .nil⟩

/-- Behind the end of a task no place is asked for. -/
theorem Sequel.resume_alike {q q' : Sequel} (h : q.Alike q') (s : Session) (o : Outcome) :
    (q.resume s o).Alike (q'.resume s o) := by
  cases h with
  | body hx =>
    cases o with
    | finished => exact ⟨rfl, fun _ => rfl, .run hx, .nil⟩
    | _ => exact ⟨rfl, fun _ => rfl, .ended, .nil⟩
  | passes hx | each hx =>
    simp only [resume]
    split
    · exact ⟨rfl, fun _ => rfl, .run hx, .nil⟩
    · exact ⟨rfl, fun _ => rfl, .ended, .nil⟩
  | absorb => exact ⟨rfl, fun _ => rfl, .ended, .nil⟩
  | handler => exact ⟨rfl, fun _ => rfl, .run trivial, .nil⟩

theorem Turn.Alike.turn {t t' : Turn} {qs qs' : List Sequel} {s : Session} (h : t.Alike t')
    (hqs : List.Forall₂ Sequel.Alike qs qs') : (Config.turn s t qs).Alike (Config.turn s t' qs') :=
  ⟨h.next, List.rel_append h.sequels hqs, h.apply s⟩

/-! ### Rows of steps -/

namespace Config

variable {c c' c₁ c₁' : Config} {d : Deed}

theorem Alike.symm (h : c.Alike c') : c'.Alike c := by
  have control {x y : Control} (h : x.Alike y) : y.Alike x := by
    cases h with
    | run hx => exact .run hx
    | ended => exact .ended
  have sequel {q q' : Sequel} (h : q.Alike q') : q'.Alike q := by
    cases h with
    | body hx => exact .body hx
    | passes hx => exact .passes hx
    | each hx => exact .each hx
    | absorb => exact .absorb
    | handler => exact .handler
  exact ⟨control h.control, (h.sequels.imp fun _ _ => sequel).flip, h.session.symm⟩

/-- Where one of two configurations can take a step the other one can. -/
theorem Alike.exists_move (h : c.Alike c') (hmove : Move c' d c₁') : ∃ d c₁, Move c d c₁ := by
  obtain ⟨control, sequels, session⟩ := c
  obtain ⟨hcontrol, hsequels, rfl⟩ := h
  cases hmove with
  | start =>
    cases hcontrol with
    | run => exact ⟨_, _, .start⟩
  | resume =>
    cases hcontrol with
    | ended =>
      cases hsequels with
      | cons => exact ⟨_, _, .resume⟩

/-- **A calm step can be taken elsewhere.** -/
theorem Alike.move (h : c.Alike c') (hmove : Move c d c₁) (hd : d.isSignal = false) :
    ∃ d' c₁', Move c' d' c₁' ∧ d'.isSignal = false ∧ c₁.Alike c₁' := by
  obtain ⟨control, sequels, session⟩ := c'
  obtain ⟨hcontrol, hsequels, rfl⟩ := h
  cases hmove with
  | start =>
    cases hcontrol with
    | @run _ _ _ scope' _ hx =>
      have same := Task.start_alike scope' hx hd
      exact ⟨_, _, .start, same.isSignal.trans hd, same.turn hsequels⟩
  | resume =>
    cases hcontrol with
    | ended =>
      cases hsequels with
      | cons hq hqs =>
        exact ⟨_, _, .resume, Sequel.isSignal_resume .., (Sequel.resume_alike hq _ _).turn hqs⟩

/-- What is reached here is reached elsewhere. -/
theorem Alike.leads (h : c.Alike c') (hcalm : c.Calm) (hleads : Leads c c₁) :
    ∃ c₁', Leads c' c₁' ∧ c₁.Alike c₁' := by
  induction hleads with
  | refl => exact ⟨c', .refl, h⟩
  | tail hleads hmove ih =>
    obtain ⟨d, hmove⟩ := hmove
    obtain ⟨c₂', hleads', halike⟩ := ih
    obtain ⟨d', c₃', hmove', -, halike⟩ := halike.move hmove (hcalm hleads hmove)
    exact ⟨c₃', hleads'.tail ⟨d', hmove'⟩, halike⟩

/-- What is reached elsewhere is reached here, if the steps here are calm. -/
theorem Alike.leads_back (h : c.Alike c') (hcalm : c.Calm) (hleads : Leads c' c₁') :
    ∃ c₁, Leads c c₁ ∧ c₁.Alike c₁' := by
  induction hleads with
  | refl => exact ⟨c, .refl, h⟩
  | tail _ hmove' ih =>
    obtain ⟨d', hmove'⟩ := hmove'
    obtain ⟨c₂, hleads, halike⟩ := ih
    -- a step here, which is calm, and can be taken elsewhere; there is only one step there
    obtain ⟨d, c₃, hmove⟩ := halike.exists_move hmove'
    obtain ⟨d₃, c₃', hmove₃, -, halike⟩ := halike.move hmove (hcalm hleads hmove)
    obtain ⟨-, rfl⟩ := hmove'.functional hmove₃
    exact ⟨c₃, hleads.tail ⟨d, hmove⟩, halike⟩

/-- A run that is calm here is calm elsewhere. -/
theorem Alike.calm (h : c.Alike c') (hcalm : c.Calm) : c'.Calm := by
  intro c₁' d' c₂' hleads' hmove'
  obtain ⟨c₁, hleads, halike⟩ := h.leads_back hcalm hleads'
  obtain ⟨d, c₂, hmove⟩ := halike.exists_move hmove'
  obtain ⟨d₂, c₃', hmove₂, hd₂, -⟩ := halike.move hmove (hcalm hleads hmove)
  obtain ⟨rfl, -⟩ := hmove'.functional hmove₂
  exact hd₂

/-- And it comes to the same end. -/
theorem Alike.ends (h : c.Alike c') (hcalm : c.Calm) {o : Outcome} {s : Session}
    (hleads : Leads c ⟨.ended o, [], s⟩) : Leads c' ⟨.ended o, [], s⟩ := by
  obtain ⟨⟨control, sequels, session⟩, hleads', hcontrol, hsequels, rfl⟩ := h.leads hcalm hleads
  cases hcontrol with
  | ended =>
    cases hsequels with
    | nil => exact hleads'

/-- **Where a calm task is run does not matter.** -/
theorem Agrees.place {b d : Nat} (scope scope' : Scope) {task : Task} (hx : task.NoHooks)
    (s : Session) :
    Agrees ⟨.run ⟨b, d, scope⟩ task, [], s⟩ ⟨.run ⟨b, d, scope'⟩ task, [], s⟩ := by
  have h : Alike ⟨.run ⟨b, d, scope⟩ task, [], s⟩ ⟨.run ⟨b, d, scope'⟩ task, [], s⟩ :=
    ⟨.run hx, .nil, rfl⟩
  exact ⟨⟨h.calm, h.symm.calm⟩, fun hcalm _ _ => ⟨h.ends hcalm, h.symm.ends (h.calm hcalm)⟩⟩

end Config

end ExScript
