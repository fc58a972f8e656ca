import ExScript.Proofs.Run.Course

/-!
# Runs without signals

Two commands are made for the loop that they stand in: `:break` and `:continue`. A run on which
neither of them has its turn is called *calm* here. It does not do to look for the two commands in
the tree, since user commands are expanded on the way; what counts is whether a step of the machine
runs one of them.

Calm runs are compared by rewriting configurations. Two configurations *agree* if one of them is
calm when the other is, and then they come to the same end. A configuration agrees with the one that
a calm step leads to, and what is done behind something can be exchanged for what agrees with it.
That is enough to follow a run through statements one behind the other, and nothing need be said
about single steps any more.

Agreeing speaks of runs that end and of being calm, and so of runs that do not end as well: one of
two configurations that agree comes to an end if the other does. It is an equivalence, and its
proofs are chains of `trans` in which each link is a step, forwards or backwards, or an exchange.

The definition has a trap in it. What is done behind something only matters as far as it is come to,
so an exchange there may use how the first part ended, and that it was calm. Without this a loop
could not be exchanged for another one: they do the same only behind a body that ended without a
signal.

## Main definitions

* `Config.Calm` — neither `:break` nor `:continue` has its turn on the way
* `Config.Agrees` — one configuration is as good as another
* `Task.IsQuiet` — there are no such commands among the statements, and no user commands either

## Main results

* `Config.Agrees.followedBy`, `Config.Agrees.behind` — what is done behind can be exchanged
* `Config.Agrees.append` — statements and others behind them
* `Config.Calm.of_isQuiet` — quiet statements are calm
-/

namespace ExScript

/-! ### Steps -/

/-- Whether the deed is a `:break` or a `:continue`, of which a loop takes notice. -/
def Deed.isSignal : Deed → Bool
  | .command .breakLoop _ => true
  | .command .continueLoop _ => true
  | _ => false

@[simp] theorem Sequel.isSignal_resume (q : Sequel) (s : Session) (o : Outcome) :
    (q.resume s o).deed.isSignal = false := by
  rcases q.deed_resume s o with h | h <;> rw [h] <;> rfl

/-- The machine has no choice. -/
theorem Move.functional {c c₁ c₂ : Config} {d₁ d₂ : Deed} (h₁ : Move c d₁ c₁) (h₂ : Move c d₂ c₂) :
    d₁ = d₂ ∧ c₁ = c₂ := by
  cases h₁ <;> cases h₂ <;> exact ⟨rfl, rfl⟩

/-- Where nothing is left to be done the machine stands still. -/
theorem not_move_ended {o : Outcome} {s : Session} {d : Deed} {c : Config} :
    ¬Move ⟨.ended o, [], s⟩ d c := by
  rintro ⟨⟩

namespace Config

/-- Whether neither a `:break` nor a `:continue` is run on the way from a configuration. -/
def Calm (c : Config) : Prop :=
  ∀ ⦃c' : Config⦄ ⦃d : Deed⦄ ⦃c'' : Config⦄, Leads c c' → Move c' d c'' → d.isSignal = false

/-- Whether one configuration is calm if the other is, and then they come to the same end. -/
structure Agrees (c c' : Config) : Prop where
  calm : c.Calm ↔ c'.Calm
  ends : c.Calm → ∀ o s, Leads c ⟨.ended o, [], s⟩ ↔ Leads c' ⟨.ended o, [], s⟩

namespace Agrees

variable {c c' c'' : Config}

theorem refl (c : Config) : c.Agrees c :=
  ⟨Iff.rfl, fun _ _ _ => Iff.rfl⟩

theorem symm (h : c.Agrees c') : c'.Agrees c :=
  ⟨h.calm.symm, fun hcalm o s => (h.ends (h.calm.mpr hcalm) o s).symm⟩

theorem trans (h : c.Agrees c') (h' : c'.Agrees c'') : c.Agrees c'' :=
  ⟨h.calm.trans h'.calm, fun hcalm o s =>
    (h.ends hcalm o s).trans (h'.ends (h.calm.mp hcalm) o s)⟩

end Agrees

section Steps

variable {c c' : Config} {d : Deed}

/-- What is on the way is calm too. -/
theorem Calm.leads (h : c.Calm) (hleads : Leads c c') : c'.Calm :=
  fun _ _ _ hleads' hmove => h (hleads.trans hleads') hmove

/-- Behind a step the same end is ahead as in front of it, because there is no other step. -/
theorem leads_of_move (h : Move c d c') {o : Outcome} {s : Session} :
    Leads c ⟨.ended o, [], s⟩ ↔ Leads c' ⟨.ended o, [], s⟩ := by
  refine ⟨fun hleads => ?_, fun hleads => Relation.ReflTransGen.head ⟨d, h⟩ hleads⟩
  rcases hleads.cases_head with rfl | ⟨c₁, ⟨d₁, hmove⟩, hrest⟩
  · exact absurd h not_move_ended
  · obtain ⟨-, rfl⟩ := h.functional hmove
    exact hrest

/-- **A configuration agrees with the next one**, if the step between them is calm. -/
theorem Agrees.move (h : Move c d c') (hd : d.isSignal = false) : c.Agrees c' := by
  refine ⟨⟨fun hcalm => hcalm.leads (.single ⟨d, h⟩), fun hcalm => ?_⟩,
    fun _ _ _ => leads_of_move h⟩
  intro c₁ d₁ c₂ hleads hmove
  rcases hleads.cases_head with rfl | ⟨c₃, ⟨d₃, hfirst⟩, hrest⟩
  · obtain ⟨rfl, -⟩ := h.functional hmove
    exact hd
  · obtain ⟨-, rfl⟩ := h.functional hfirst
    exact hcalm hrest hmove

/-! Three forms of this for the steps that there are. -/

theorem Agrees.start {site : Site} {task : Task} {qs : List Sequel} {s : Session}
    (hd : (task.start site s).deed.isSignal = false) :
    Agrees ⟨.run site task, qs, s⟩ (.turn s (task.start site s) qs) :=
  .move .start hd

theorem Agrees.start_eq {site : Site} {task : Task} {qs : List Sequel} {s : Session} {t : Turn}
    (h : task.start site s = t) (hd : t.deed.isSignal = false) :
    Agrees ⟨.run site task, qs, s⟩ (.turn s t qs) := by
  subst h
  exact .start hd

theorem Agrees.resume (o : Outcome) (q : Sequel) (qs : List Sequel) (s : Session) :
    Agrees ⟨.ended o, q :: qs, s⟩ (.turn s (q.resume s o) qs) :=
  .move .resume (q.isSignal_resume s o)

end Steps

/-! ### What is done behind something

With more at the bottom of the stack, a run is at first the run without it. Either it is still that,
or everything in front is done, and what follows is the run of what is behind. -/

/-- The configuration with more to be done behind it. -/
def followedBy (c : Config) (qs : List Sequel) : Config :=
  { c with sequels := c.sequels ++ qs }

theorem followedBy_turn (s : Session) (t : Turn) (sequels qs : List Sequel) :
    (turn s t sequels).followedBy qs = turn s t (sequels ++ qs) := by
  simp only [turn, followedBy, List.append_assoc]

variable {c c' : Config} {qs qs' : List Sequel}

theorem move_followedBy {d : Deed} (h : Move c d c') (qs : List Sequel) :
    Move (c.followedBy qs) d (c'.followedBy qs) := by
  cases h with
  | start =>
    rw [followedBy_turn]
    exact .start
  | resume =>
    rw [followedBy_turn]
    exact .resume

theorem leads_followedBy (h : Leads c c') (qs : List Sequel) :
    Leads (c.followedBy qs) (c'.followedBy qs) :=
  h.lift (fun c : Config => c.followedBy qs) fun _ _ ⟨d, hmove⟩ => ⟨d, move_followedBy hmove qs⟩

/-- A step with more to be done behind is a step without that, unless everything in front of it is
done. -/
theorem move_of_followedBy {d : Deed} (h : Move (c.followedBy qs) d c') :
    (∃ o s, c = ⟨.ended o, [], s⟩) ∨ ∃ c₁, Move c d c₁ ∧ c' = c₁.followedBy qs := by
  obtain ⟨control, sequels, s⟩ := c
  cases control with
  | idle => cases h
  | run site task =>
    have step : Move ⟨.run site task, sequels, s⟩ _ _ := .start
    obtain ⟨rfl, rfl⟩ := h.functional (move_followedBy step qs)
    exact .inr ⟨_, step, rfl⟩
  | ended o =>
    cases sequels with
    | nil => exact .inl ⟨o, s, rfl⟩
    | cons q sequels =>
      have step : Move ⟨.ended o, q :: sequels, s⟩ _ _ := .resume
      obtain ⟨rfl, rfl⟩ := h.functional (move_followedBy step qs)
      exact .inr ⟨_, step, rfl⟩

/-- What is reached is reached in front of what is done behind, or behind the end of that. -/
theorem leads_cases (h : Leads (c.followedBy qs) c') :
    (∃ c₁, Leads c c₁ ∧ c' = c₁.followedBy qs) ∨
      ∃ o s, Leads c ⟨.ended o, [], s⟩ ∧ Leads ⟨.ended o, qs, s⟩ c' := by
  induction h with
  | refl => exact .inl ⟨c, .refl, rfl⟩
  | tail _ hmove ih =>
    obtain ⟨d, hmove⟩ := hmove
    rcases ih with ⟨c₁, hleads, rfl⟩ | ⟨o, s, hleads, hbehind⟩
    · rcases move_of_followedBy hmove with ⟨o, s, rfl⟩ | ⟨c₂, hmove', rfl⟩
      · exact .inr ⟨o, s, hleads, .single ⟨d, hmove⟩⟩
      · exact .inl ⟨c₂, hleads.tail ⟨d, hmove'⟩, rfl⟩
    · exact .inr ⟨o, s, hleads, hbehind.tail ⟨d, hmove⟩⟩

/-- To come to the end with more behind is to come to an end without it, and from there to the
end. -/
theorem leads_ended_iff {o : Outcome} {s : Session} :
    Leads (c.followedBy qs) ⟨.ended o, [], s⟩ ↔
      ∃ o₁ s₁, Leads c ⟨.ended o₁, [], s₁⟩ ∧ Leads ⟨.ended o₁, qs, s₁⟩ ⟨.ended o, [], s⟩ := by
  constructor
  · intro h
    rcases leads_cases h with ⟨⟨control, sequels, s₁⟩, hleads, heq⟩ | hbehind
    · cases sequels with
      | nil =>
        cases heq
        exact ⟨o, s₁, hleads, .refl⟩
      | cons q sequels => cases heq
    · exact hbehind
  · rintro ⟨o₁, s₁, hleads, hbehind⟩
    exact (leads_followedBy hleads qs).trans hbehind

/-- In the same way being calm is split. -/
theorem calm_followedBy_iff :
    (c.followedBy qs).Calm ↔
      c.Calm ∧ ∀ o s, Leads c ⟨.ended o, [], s⟩ → Calm ⟨.ended o, qs, s⟩ := by
  constructor
  · intro h
    refine ⟨fun c₁ d c₂ hleads hmove => ?_, fun o s₁ hleads => ?_⟩
    · exact h (leads_followedBy hleads qs) (move_followedBy hmove qs)
    · exact h.leads (leads_followedBy hleads qs)
  · rintro ⟨hcalm, hbehind⟩ c₁ d c₂ hreached hmove
    rcases leads_cases hreached with ⟨c₃, hleads, rfl⟩ | ⟨o, s, hleads, hrest⟩
    · rcases move_of_followedBy hmove with ⟨o, s, rfl⟩ | ⟨c₄, hmove', -⟩
      · exact hbehind o s hleads .refl hmove
      · exact hcalm hleads hmove'
    · exact hbehind o s hleads hrest hmove

/-- **What is done behind something can be exchanged** for what agrees with it, as far as it is come
to. -/
theorem Agrees.followedBy (h : c.Agrees c')
    (hbehind : c.Calm → ∀ o s, Leads c ⟨.ended o, [], s⟩ →
      Agrees ⟨.ended o, qs, s⟩ ⟨.ended o, qs', s⟩) :
    (c.followedBy qs).Agrees (c'.followedBy qs') := by
  constructor
  · rw [calm_followedBy_iff, calm_followedBy_iff, h.calm]
    refine and_congr_right fun hcalm => forall₂_congr fun o s => ?_
    have hcalm := h.calm.mpr hcalm
    rw [← h.ends hcalm]
    exact forall_congr' fun hleads => (hbehind hcalm o s hleads).calm
  · intro hcalm o s
    obtain ⟨hcalm, hrest⟩ := calm_followedBy_iff.mp hcalm
    rw [leads_ended_iff, leads_ended_iff]
    refine exists₂_congr fun o₁ s₁ => ?_
    rw [← h.ends hcalm]
    refine and_congr_right fun hleads => ?_
    exact (hbehind hcalm o₁ s₁ hleads).ends (hrest o₁ s₁ hleads) o s

/-! ### Sequences

The links for statements one behind the other: the first is in front of the others (`cons`), behind
it they are next (`next`), or they are passed over (`passOver`). -/

namespace Agrees

variable {site : Site} {s : Session} {x : Stmt} {xs : List Stmt}

/-- What is done behind a task can be exchanged. -/
theorem behind {task : Task} (h : ∀ o s', Leads ⟨.run site task, [], s⟩ ⟨.ended o, [], s'⟩ →
      Agrees ⟨.ended o, qs, s'⟩ ⟨.ended o, qs', s'⟩) :
    Agrees ⟨.run site task, qs, s⟩ ⟨.run site task, qs', s⟩ :=
  (refl ⟨.run site task, [], s⟩).followedBy fun _ => h

theorem nil : Agrees ⟨.run site (.body []), qs, s⟩ ⟨.ended .finished, qs, s⟩ :=
  .start rfl

theorem cons :
    Agrees ⟨.run site (.body (x :: xs)), qs, s⟩ ⟨.run site (.stmt x), .body site xs :: qs, s⟩ :=
  .start rfl

theorem next :
    Agrees ⟨.ended .finished, .body site xs :: qs, s⟩ ⟨.run site (.body xs), qs, s⟩ :=
  .resume ..

theorem passOver {o : Outcome} (ho : o ≠ .finished) :
    Agrees ⟨.ended o, .body site xs :: qs, s⟩ ⟨.ended o, qs, s⟩ := by
  cases o with
  | finished => exact absurd rfl ho
  | leaveLoop | nextPass | failed => exact .resume ..

/-- **Statements and others behind them** are the first of them in front of the others. -/
theorem append (xs ys : List Stmt) (qs : List Sequel) (s : Session) :
    Agrees ⟨.run site (.body (xs ++ ys)), qs, s⟩
      ⟨.run site (.body xs), .body site ys :: qs, s⟩ := by
  induction xs generalizing s with
  | nil => exact (nil.trans next).symm
  | cons x xs ih =>
    refine cons.trans ((behind fun o s' _ => ?_).trans cons.symm)
    by_cases ho : o = .finished
    · subst ho
      exact next.trans ((ih s').trans next.symm)
    · exact (passOver ho).trans ((passOver ho).trans (passOver ho)).symm

/-- A statement alone. -/
theorem single : Agrees ⟨.run site (.body [x]), qs, s⟩ ⟨.run site (.stmt x), qs, s⟩ := by
  refine cons.trans (behind fun o s' _ => ?_)
  by_cases ho : o = .finished
  · subst ho
    exact next.trans nil
  · exact passOver ho

/-- A command in front of statements, if it has nothing to do with loops and finishes. -/
theorem command {c : Command} {s' : Session} (hc : (Deed.command c site.scope).isSignal = false)
    (hrun : c.run site.scope s = (.finished, s')) :
    Agrees ⟨.run site (.body (.simple c :: xs)), qs, s⟩ ⟨.run site (.body xs), qs, s'⟩ := by
  have run : Agrees ⟨.run site (.stmt (.simple c)), .body site xs :: qs, s⟩
      ⟨.ended (c.run site.scope s).1, .body site xs :: qs, (c.run site.scope s).2⟩ :=
    .start hc
  rw [hrun] at run
  exact cons.trans (run.trans next)

end Agrees

end Config

/-! ### Statements without the two commands

A property of the text that is enough for a run to be calm. It is far from necessary, because it has
no user commands in it; it is what can be decided by looking, so examples are checked with it. -/

/-- Whether a statement with this mark is calm on its own: it is neither a `:break` nor a
`:continue`, and no user command either, whose text could be one. -/
def Script.Mark.isQuiet : Script.Mark → Bool
  | .plain (.simple .breakLoop) => false
  | .plain (.simple .continueLoop) => false
  | .plain (.unknown _ _ _) => false
  | _ => true

/-- Whether all the statements of a task are quiet. -/
def Task.IsQuiet : Task → Prop
  | .stmt x => ∀ mark ∈ x.marks, mark.isQuiet = true
  | .body xs | .each _ xs _ => ∀ mark ∈ Stmt.marksOfAll xs, mark.isQuiet = true
  | .call _ _ | .handler _ => False

/-- Whether all the statements are quiet that are run next. -/
def Control.IsQuiet : Control → Prop
  | .run _ task => task.IsQuiet
  | .idle | .ended _ => True

/-- Whether all the statements are quiet that are run later. -/
def Sequel.IsQuiet : Sequel → Prop
  | .body _ xs => Task.IsQuiet (.body xs)
  | .passes _ c xs => Task.IsQuiet (.stmt (.whileLoop c xs))
  | .each _ name xs values => Task.IsQuiet (.each name xs values)
  | .absorb => True
  | .handler _ _ => False

/-- Whether a step is no signal and all the statements behind it are quiet. -/
structure Turn.IsQuiet (t : Turn) : Prop where
  deed : t.deed.isSignal = false
  next : t.next.IsQuiet
  sequels : ∀ q ∈ t.sequels, q.IsQuiet

/-- Whether all the statements of a configuration are quiet. -/
structure Config.IsQuiet (c : Config) : Prop where
  control : c.control.IsQuiet
  sequels : ∀ q ∈ c.sequels, q.IsQuiet

section Quiet

/-! A statement of a loop or a choice is listed between the marks where it begins and ends, and the
marks of its bodies are in between. -/

theorem Task.IsQuiet.of_whileLoop {c : Condition} {xs : List Stmt}
    (h : Task.IsQuiet (.stmt (.whileLoop c xs))) : Task.IsQuiet (.body xs) := by
  have hrest := (List.forall_mem_cons.mp h).2
  exact (List.forall_mem_append.mp hrest).1

theorem Task.IsQuiet.of_choose {c : Condition} {xs : List Stmt}
    {branches : List (Condition × List Stmt)} {otherwise : Option (List Stmt)}
    (h : Task.IsQuiet (.stmt (.choose ((c, xs) :: branches) otherwise))) :
    Task.IsQuiet (.body xs) ∧ Task.IsQuiet (.stmt (.choose branches otherwise)) := by
  have hrest := (List.forall_mem_cons.mp h).2
  obtain ⟨hfront, hend⟩ := List.forall_mem_append.mp hrest
  obtain ⟨hbranches, helse⟩ := List.forall_mem_append.mp hfront
  obtain ⟨hxs, hbranches⟩ := List.forall_mem_append.mp hbranches
  refine ⟨hxs, ?_⟩
  cases branches with
  | nil => exact List.forall_mem_append.mpr ⟨helse, hend⟩
  | cons branch branches =>
    have hlater := (List.forall_mem_cons.mp hbranches).2
    obtain ⟨hnext, hlater⟩ := List.forall_mem_append.mp hlater
    have whole := List.forall_mem_append.mpr
      ⟨List.forall_mem_append.mpr ⟨List.forall_mem_append.mpr ⟨hnext, hlater⟩, helse⟩, hend⟩
    exact List.forall_mem_cons.mpr ⟨rfl, whole⟩

/-- The first step of quiet statements is no signal and leads to quiet statements. -/
theorem Task.IsQuiet.start {task : Task} (h : task.IsQuiet) (site : Site) (s : Session) :
    (task.start site s).IsQuiet := by
  have nothing : ∀ q ∈ ([] : List Sequel), q.IsQuiet := List.forall_mem_nil _
  revert h
  fun_cases Task.start site s task with
  | case1 c =>
    intro h
    have hmark := h (.plain (.simple c)) List.mem_cons_self
    refine ⟨?_, trivial, nothing⟩
    cases c with
    | breakLoop | continueLoop => cases hmark
    | _ => rfl
  | case2 => exact fun _ => ⟨rfl, trivial, nothing⟩
  | case3 range name argument =>
    intro h
    have hmark := h (.plain (.unknown range name argument)) List.mem_cons_self
    cases hmark
  | case4 => exact fun h => ⟨rfl, h, nothing⟩
  | case5 | case6 | case8 | case10 | case12 | case15 | case17 =>
    exact fun _ => ⟨rfl, trivial, nothing⟩
  | case7 => exact fun h => ⟨rfl, h.of_whileLoop, List.forall_mem_singleton.mpr h⟩
  | case9 name e xs values he =>
    intro h
    have hrest := (List.forall_mem_cons.mp h).2
    exact ⟨rfl, (List.forall_mem_append.mp hrest).1, nothing⟩
  | case11 xs =>
    intro h
    have hfront := (List.forall_mem_append.mp h).1
    exact ⟨rfl, (List.forall_mem_cons.mp hfront).2, nothing⟩
  | case13 => exact fun h => ⟨rfl, h.of_choose.2, nothing⟩
  | case14 => exact fun h => ⟨rfl, h.of_choose.1, nothing⟩
  | case16 x xs =>
    intro h
    obtain ⟨hx, hxs⟩ := List.forall_mem_append.mp h
    exact ⟨rfl, hx, List.forall_mem_singleton.mpr hxs⟩
  | case18 => exact fun h => ⟨rfl, h, List.forall_mem_singleton.mpr h⟩
  | _ => exact False.elim

theorem Sequel.IsQuiet.resume {q : Sequel} (h : q.IsQuiet) (s : Session) (o : Outcome) :
    (q.resume s o).next.IsQuiet := by
  cases q with
  | body =>
    cases o with
    | finished => exact h
    | _ => trivial
  | passes | each =>
    rw [Sequel.resume]
    split
    · exact h
    · trivial
  | absorb => trivial
  | handler => exact h.elim

namespace Config

/-- A step of quiet statements is calm and leaves quiet statements. -/
theorem IsQuiet.move {c c' : Config} {d : Deed} (h : c.IsQuiet) (hmove : Move c d c') :
    d.isSignal = false ∧ c'.IsQuiet := by
  obtain ⟨hcontrol, hsequels⟩ := h
  cases hmove with
  | @start site task sequels s =>
    have first : (task.start site s).IsQuiet := Task.IsQuiet.start hcontrol site s
    exact ⟨first.deed, first.next, List.forall_mem_append.mpr ⟨first.sequels, hsequels⟩⟩
  | @resume o q sequels s =>
    obtain ⟨hq, hsequels⟩ := List.forall_mem_cons.mp hsequels
    refine ⟨q.isSignal_resume s o, hq.resume s o, ?_⟩
    rwa [turn, q.sequels_resume]

/-- **Statements are calm** without `:break`, `:continue` and user commands among them. -/
theorem Calm.of_isQuiet {site : Site} {task : Task} (h : task.IsQuiet) (s : Session) :
    Calm ⟨.run site task, [], s⟩ := by
  have quiet {c : Config} (hleads : Leads ⟨.run site task, [], s⟩ c) : c.IsQuiet := by
    induction hleads with
    | refl => exact ⟨h, List.forall_mem_nil _⟩
    | tail _ hmove ih =>
      obtain ⟨d, hmove⟩ := hmove
      exact (ih.move hmove).2
  exact fun c d c' hleads hmove => ((quiet hleads).move hmove).1

end Config

end Quiet

end ExScript
