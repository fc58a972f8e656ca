import ExScript.Proofs.Run.Scripted

/-!
# The budget bounds the depth exactly

A budget of expansions is handed on in two ways. A user command whose text is another command with
an unknown name passes it to that command; any other text is run with it put in the session, and is
given back what was there before. Names come up through blocks, loops and choices in any mixture,
and user commands may be defined anew while they run.

All of this amounts to one number. The depth of an attempt to expand a name is one more than the
number of expansions around it, and what a smaller budget changes is nothing at all as long as no
attempt is deeper than the budget. The first attempt that is deeper is where the run ends: it rings
the bell, and the failure goes through everything around it as if it were not there.

The induction compares the two budgets at all depths at once, since with each expansion both become
smaller by one. A run with the larger budget is followed up to the first attempt beyond the smaller
one, and what the smaller budget does from there on is known (`Cut`).

## What has to be assumed

Something that can ask for the budget can do something else with another one, before any attempt
fails. Handlers can ask, so there may be none in the registry; and hooks can, so those in the
statement may not make use of it (`Hook.IgnoresBudget`). Both are needed: a hook that ends a loop as
soon as the budget is small is a run that is neither the same nor cut short. What is read from a
text has no hooks.

Nothing is assumed of the texts of user commands, nor that they stay the same. A run may define a
user command, use it and define it anew, and the trace has the session of each attempt.

## Main results

* `Runs.narrow` — what a smaller budget makes of a run
* `exec_narrow` — the same for statements and their functions
-/

namespace ExScript

/-! ### Hooks that do not look at the budget

Of what a hook is shown, the budget may be replaced. That it leaves the budget alone is true of all
hooks. -/

/-- Whether what a hook does is the same with any budget. -/
def Hook.IgnoresBudget {α : Type} (h : Hook α) : Prop :=
  ∀ (sight : Sight) (budget : Nat), h.react { sight with budget } = h.react sight

theorem Hook.IgnoresBudget.runWithin_eq {α : Type} {h : Hook α} (hh : h.IgnoresBudget) (b b' : Nat)
    (scope : Scope) (s : Session) : h.runWithin b scope s = h.runWithin b' scope s := by
  obtain ⟨key, react⟩ := h
  have same : react (Hook.sight key scope (s.within b)) =
      react (Hook.sight key scope (s.within b')) :=
    hh (Hook.sight key scope (s.within b')) b
  simp only [Hook.runWithin, Hook.run, same]
  rcases react (Hook.sight key scope (s.within b')) with ⟨_ | text, a⟩ <;> rfl

theorem Condition.checkWithin_eq {c : Condition} (hc : c.AllHooks Hook.IgnoresBudget) (b b' : Nat)
    (scope : Scope) (s : Session) : c.checkWithin b scope s = c.checkWithin b' scope s := by
  cases c with
  | expression e => rfl
  | hook h =>
    have hh : h.IgnoresBudget := hc
    exact hh.runWithin_eq b b' scope s

/-! ### Runs that are cut short

A failure for want of budget is handed on by every task that has another one inside: statements
stop, loops exit, choices end, and a user command does not take it in. What was in front of it is in
front of it as before, and what would have followed is missing. So where a piece is cut short there
is a rule for the whole, and the lemmas below say what becomes of the trace. -/

/-- Whether no attempt to expand a name is deeper than a limit. -/
def Trace.Within (limit : Nat) (t : Trace) : Prop :=
  ∀ k ∈ t.depths, k ≤ limit

namespace Trace.Within

variable {limit : Nat} {t u : Trace}

theorem nil : Trace.Within limit [] := by
  intro k hk
  cases hk

theorem append (ht : t.Within limit) (hu : u.Within limit) : Trace.Within limit (t ++ u) := by
  intro k hk
  rw [depths_append, List.mem_append] at hk
  exact hk.elim (ht k) (hu k)

theorem act {s : Session} (ht : t.Within limit) : Trace.Within limit (.act s :: t) := ht

theorem pass (ht : t.Within limit) : Trace.Within limit (.pass :: t) := ht

theorem origin {e : Error} (ht : t.Within limit) : Trace.Within limit (.origin e :: t) := ht

theorem attempt {name : String} {depth : Nat} {s : Session} (hd : depth ≤ limit)
    (ht : t.Within limit) : Trace.Within limit (.attempt name depth s :: t) := by
  intro k hk
  rcases List.mem_cons.mp hk with rfl | hk
  · exact hd
  · exact ht k hk

theorem origins (o : Outcome) : Trace.Within limit o.origins := by
  cases o <;> exact nil

end Trace.Within

/-- A budget cuts a run with this trace short: the run goes as far as the first attempt beyond the
limit, and there it fails. -/
def Cut (limit b d : Nat) (scope : Scope) (task : Task) (s : Session) (t : Trace) : Prop :=
  ∃ (t₁ : Trace) (name : String) (s₁ : Session) (t₂ : Trace),
    t = t₁ ++ .attempt name (limit + 1) s₁ :: t₂ ∧ t₁.Within limit ∧
      Runs b d scope task s (t₁ ++ [.attempt name (limit + 1) s₁, .origin .expansionTooDeep])
        (.failed .expansionTooDeep) (s₁.tell .bell)

variable {limit b d : Nat} {scope : Scope} {task : Task} {s s' : Session} {t : Trace} {o : Outcome}

/-- A run that is cut short cuts short what is around it, if the failure goes through. -/
theorem Cut.wrap {b₁ d₁ : Nat} {scope₁ : Scope} {task₁ : Task} {s₁ : Session} {before : Trace}
    (h : Cut limit b₁ d₁ scope₁ task₁ s₁ t) (hbefore : before.Within limit)
    (hruns : ∀ {t s'}, Runs b₁ d₁ scope₁ task₁ s₁ t (.failed .expansionTooDeep) s' →
      Runs b d scope task s (before ++ t) (.failed .expansionTooDeep) s') :
    Cut limit b d scope task s (before ++ t) := by
  obtain ⟨t₁, name, s₂, t₂, rfl, hwithin, hr⟩ := h
  refine ⟨before ++ t₁, name, s₂, t₂, by simp, hbefore.append hwithin, ?_⟩
  rw [List.append_assoc]
  exact hruns hr

/-- What would have followed is not reached. -/
theorem Cut.behind (h : Cut limit b d scope task s t) (u : Trace) :
    Cut limit b d scope task s (t ++ u) := by
  obtain ⟨t₁, name, s₁, t₂, rfl, hwithin, hr⟩ := h
  exact ⟨t₁, name, s₁, t₂ ++ u, by simp, hwithin, hr⟩

/-- Without any budget left the first attempt is beyond the limit. -/
theorem Cut.tooDeep {name argument : String} (hc : s.commands.isCallable name = true) (t : Trace) :
    Cut d 0 d scope (.call name argument) s (.attempt name (d + 1) s :: t) :=
  ⟨[], name, s, t, rfl, .nil, .tooDeep hc⟩

/-- What a budget makes of a run with another one: the same run, or one that is cut short. -/
def Narrowed (limit b d : Nat) (scope : Scope) (task : Task) (s : Session) (t : Trace) (o : Outcome)
    (s' : Session) : Prop :=
  t.Within limit ∧ Runs b d scope task s t o s' ∨ Cut limit b d scope task s t

section Narrowed

variable {b₁ d₁ : Nat} {scope₁ : Scope} {task₁ : Task} {s₁ s₁' : Session} {o₁ : Outcome}
  {before u : Trace}

/-- A run with only one run inside of it. -/
theorem Narrowed.wrap (h : Narrowed limit b₁ d₁ scope₁ task₁ s₁ t o₁ s₁')
    (hbefore : before.Within limit)
    (hsame : Runs b₁ d₁ scope₁ task₁ s₁ t o₁ s₁' → Runs b d scope task s (before ++ t) o s')
    (hcut : ∀ {t s'}, Runs b₁ d₁ scope₁ task₁ s₁ t (.failed .expansionTooDeep) s' →
      Runs b d scope task s (before ++ t) (.failed .expansionTooDeep) s') :
    Narrowed limit b d scope task s (before ++ t) o s' := by
  rcases h with ⟨ht, hr⟩ | h
  · exact .inl ⟨hbefore.append ht, hsame hr⟩
  · exact .inr (h.wrap hbefore hcut)

/-- A run inside of another one that goes on behind it. -/
theorem Narrowed.bind (h : Narrowed limit b₁ d₁ scope₁ task₁ s₁ t o₁ s₁')
    (hbefore : before.Within limit)
    (hnext : Trace.Within limit (before ++ t) → Runs b₁ d₁ scope₁ task₁ s₁ t o₁ s₁' →
      Narrowed limit b d scope task s (before ++ t ++ u) o s')
    (hcut : ∀ {t s'}, Runs b₁ d₁ scope₁ task₁ s₁ t (.failed .expansionTooDeep) s' →
      Runs b d scope task s (before ++ t) (.failed .expansionTooDeep) s') :
    Narrowed limit b d scope task s (before ++ t ++ u) o s' := by
  rcases h with ⟨ht, hr⟩ | h
  · exact hnext (hbefore.append ht) hr
  · exact .inr ((h.wrap hbefore hcut).behind u)

end Narrowed

/-- **What a smaller budget makes of a run.** The induction is on the run with the larger budget; a
piece of it that is cut short cuts short everything around it. -/
theorem Runs.narrow {large : Nat} (h : Runs large d scope task s t o s')
    (hs : s.commands.OnlyScripts) (hx : task.AllHooks Hook.IgnoresBudget) (hb : b ≤ large) :
    Narrowed (d + b) b d scope task s t o s' := by
  induction h generalizing b with
  -- Statements that hold no others
  | simple => exact .inl ⟨.act (.origins _), .simple⟩
  | @hook large d scope h s =>
    have hh : h.IgnoresBudget := hx
    rw [hh.runWithin_eq large b]
    exact .inl ⟨.act (.origins _), .hook⟩
  | unknown _ ih => exact (ih hs trivial hb).wrap .nil .unknown .unknown
  -- Sequences
  | block _ ih => exact (ih hs hx hb).wrap .nil .block .block
  | nil => exact .inl ⟨.nil, .nil⟩
  | cons hrun _ ihx ihxs =>
    refine (ihx hs hx.1 hb).bind .nil (fun ht hr => ?_) fun hr => .stop hr (by simp)
    exact (ihxs (hrun.onlyScripts hs) hx.2 hb).wrap ht (.cons hr) (.cons hr)
  | stop _ ho ih =>
    exact (ih hs hx.1 hb).wrap .nil (fun hr => .stop hr ho) fun hr => .stop hr (by simp)
  -- `:while`
  | whileFail hc =>
    rw [Condition.checkWithin_eq hx.1 _ b] at hc
    exact .inl ⟨.act (.origin .nil), .whileFail hc⟩
  | whileEnd hc =>
    rw [Condition.checkWithin_eq hx.1 _ b] at hc
    exact .inl ⟨.act .nil, .whileEnd hc⟩
  | @whileNext _ d _ _ _ s _ _ _ _ _ _ _ hc hrun ho _ ihb ihl =>
    have hs₁ := (Condition.effect_of_checkWithin hc).scripts hs
    rw [Condition.checkWithin_eq hx.1 _ b] at hc
    have hbefore : Trace.Within (d + b) [.act s, .pass] := .act (.pass .nil)
    refine (ihb hs₁ hx.2 hb).bind hbefore (fun ht hr => ?_) fun hr => .whileExit hc hr rfl
    have hloop := ihl (hrun.onlyScripts hs₁) hx hb
    exact hloop.wrap ht (.whileNext hc hr ho) (.whileNext hc hr ho)
  | @whileExit _ d _ _ _ s _ _ _ _ _ hc _ ho ihb =>
    have hs₁ := (Condition.effect_of_checkWithin hc).scripts hs
    rw [Condition.checkWithin_eq hx.1 _ b] at hc
    have hbefore : Trace.Within (d + b) [.act s, .pass] := .act (.pass .nil)
    exact (ihb hs₁ hx.2 hb).wrap hbefore (fun hr => .whileExit hc hr ho) fun hr =>
      .whileExit hc hr rfl
  -- `:for`
  | forFail he => exact .inl ⟨.act (.origin .nil), .forFail he⟩
  | @forEach _ d _ _ _ _ s _ _ _ _ he _ ih =>
    have hbefore : Trace.Within (d + b) [.act s] := .act .nil
    exact (ih hs hx hb).wrap hbefore (.forEach he) (.forEach he)
  | eachEnd => exact .inl ⟨.nil, .eachEnd⟩
  | @eachNext _ d _ _ _ _ _ s _ _ _ _ _ _ hrun ho _ ihb ihl =>
    have hbefore : Trace.Within (d + b) [.act s] := .act .nil
    refine (ihb hs hx hb).bind hbefore (fun ht hr => ?_) fun hr => .eachExit hr rfl
    have hloop := ihl (hrun.onlyScripts hs) hx hb
    exact hloop.wrap ht (.eachNext hr ho) (.eachNext hr ho)
  | @eachExit _ d _ _ _ _ _ s _ _ _ _ _ ho ihb =>
    have hbefore : Trace.Within (d + b) [.act s] := .act .nil
    exact (ihb hs hx hb).wrap hbefore (fun hr => .eachExit hr ho) fun hr => .eachExit hr rfl
  -- `:if`
  | chooseNone => exact .inl ⟨.nil, .chooseNone⟩
  | chooseElse _ ih => exact (ih hs hx.2 hb).wrap .nil .chooseElse .chooseElse
  | chooseFail hc =>
    rw [Condition.checkWithin_eq hx.1.1 _ b] at hc
    exact .inl ⟨.act (.origin .nil), .chooseFail hc⟩
  | @chooseHere _ d _ _ _ _ _ s _ _ _ _ hc _ ih =>
    have hs₁ := (Condition.effect_of_checkWithin hc).scripts hs
    rw [Condition.checkWithin_eq hx.1.1 _ b] at hc
    have hbefore : Trace.Within (d + b) [.act s] := .act .nil
    exact (ih hs₁ hx.1.2.1 hb).wrap hbefore (.chooseHere hc) (.chooseHere hc)
  | @chooseNext _ d _ _ _ _ _ s _ _ _ _ hc _ ih =>
    have hs₁ := (Condition.effect_of_checkWithin hc).scripts hs
    rw [Condition.checkWithin_eq hx.1.1 _ b] at hc
    have hbefore : Trace.Within (d + b) [.act s] := .act .nil
    exact (ih hs₁ ⟨hx.1.2.2, hx.2⟩ hb).wrap hbefore (.chooseNext hc) (.chooseNext hc)
  -- Commands with unknown names: here the budget shows
  | notCallable hc => exact .inl ⟨.origin .nil, .notCallable hc⟩
  | tooDeep hc =>
    obtain rfl : b = 0 := by omega
    exact .inr (.tooDeep hc _)
  | notExpanded hc he =>
    cases b with
    | zero => exact .inr (.tooDeep hc _)
    | succ b => exact .inl ⟨.attempt (by omega) (.origin .nil), .notExpanded hc he⟩
  | native _ he => exact absurd he hs.expansion_ne_handler
  | @chain _ d _ name _ s _ _ _ _ _ hc he _ ih =>
    cases b with
    | zero => exact .inr (.tooDeep hc _)
    | succ b =>
      have hbefore : Trace.Within (d + (b + 1)) [.attempt name (d + 1) s] :=
        .attempt (by omega) .nil
      have inner := ih hs trivial (Nat.le_of_succ_le_succ hb)
      rw [show d + 1 + b = d + (b + 1) by omega] at inner
      exact inner.wrap hbefore (.chain hc he) (.chain hc he)
  | @expanded _ d _ name _ s _ _ _ _ hc he _ ih =>
    cases b with
    | zero => exact .inr (.tooDeep hc _)
    | succ b =>
      have hbefore : Trace.Within (d + (b + 1)) [.attempt name (d + 1) s] :=
        .attempt (by omega) .nil
      obtain ⟨text, hparse⟩ := Registry.parseCommand?_of_expansion he
      have inner := ih hs (Script.allHooks_of_parseCommand? _ hparse) (Nat.le_of_succ_le_succ hb)
      rw [show d + 1 + b = d + (b + 1) by omega] at inner
      exact inner.wrap hbefore (.expanded hc he) (.expanded hc he)
  | done | report | reportError | setVariable | askBudget | runNothing | runScript => exact hx.elim

/-! ### Statements -/

/-- **A budget bounds the depth of expansions exactly.** Take a run of a statement that ends, and a
smaller budget. If no attempt to expand a name is deeper than the smaller budget, the run is the
same with it: the outcome, the machine and what happens on the way. Otherwise it is the same up to
the first attempt that is deeper, which has the depth next to the budget; there the bell is rung
once, and the statement fails without any other change.

Hooks are code of the embedding program, which could ask for the budget; statements that are read
from a text hold none (`Script.allHooks_of_parse`). -/
theorem exec_narrow {b b' : Nat} (hb : b ≤ b') {x : Stmt} {scope : Scope} {m m' : Machine}
    {o : Outcome} (hs : m.session.commands.OnlyScripts) (hx : x.AllHooks Hook.IgnoresBudget)
    (h : Run.withBudget b' (x.exec (expand b') scope) m = (some o, m')) :
    (∃ t, Runs b' 0 scope (.stmt x) m.session t o m'.session) ∧
      ∀ t : Trace, Runs b' 0 scope (.stmt x) m.session t o m'.session →
        ((∀ k ∈ t.depths, k ≤ b) →
          Runs b 0 scope (.stmt x) m.session t o m'.session ∧
            Run.withBudget b (x.exec (expand b) scope) m = (some o, m')) ∧
        (¬(∀ k ∈ t.depths, k ≤ b) →
          ∃ (t₁ : Trace) (name : String) (s : Session) (t₂ : Trace),
            t = t₁ ++ .attempt name (b + 1) s :: t₂ ∧ (∀ k ∈ t₁.depths, k ≤ b) ∧
              Runs b 0 scope (.stmt x) m.session
                (t₁ ++ [.attempt name (b + 1) s, .origin .expansionTooDeep])
                (.failed .expansionTooDeep) (s.tell .bell) ∧
              Run.withBudget b (x.exec (expand b) scope) m =
                (some (.failed .expansionTooDeep), ⟨m.fuel - t₁.passes, s.tell .bell⟩)) := by
  obtain ⟨t₀, ht₀, hf₀⟩ := (withBudget_run_iff 0 (.stmt x)).mp h
  refine ⟨⟨t₀, ht₀⟩, fun t ht => ?_⟩
  have hf : m.fuel = m'.fuel + t.passes := by
    rw [hf₀, (ht₀.functional ht).2.2]
  have hn := ht.narrow hs hx hb
  rw [Nat.zero_add] at hn
  constructor
  · intro hwithin
    rcases hn with ⟨-, hr⟩ | ⟨t₁, name, s, t₂, rfl, -, -⟩
    · exact ⟨hr, (withBudget_run_iff 0 (.stmt x)).mpr ⟨t, hr, hf⟩⟩
    · have hle : b + 1 ≤ b := hwithin (b + 1) (by simp [Trace.depths, Moment.depth?])
      omega
  · intro hdeep
    rcases hn with ⟨hwithin, -⟩ | ⟨t₁, name, s, t₂, rfl, hwithin, hr⟩
    · exact absurd hwithin hdeep
    · refine ⟨t₁, name, s, t₂, rfl, hwithin, hr, ?_⟩
      refine (withBudget_run_iff 0 (.stmt x)).mpr ⟨_, hr, ?_⟩
      simp only [Trace.passes_append, Trace.passes_attempt, Trace.passes_origin,
        Trace.passes_nil] at hf ⊢
      omega

/-- A machine in which `A` stands for two uses of `B`, and `B` for a simple command. -/
def nestedCommands : Machine :=
  ⟨0, { commands := (Registry.empty.define "A" ⟨0, none⟩ "B|B").define "B" ⟨0, none⟩ "quit" }⟩

/-- With a budget of two `A` finishes, so with a budget of one it fails where `B` comes up. -/
theorem exec_narrow_nestedCommands :
    ∃ (t : Trace) (name : String) (s : Session),
      Runs 1 0 .root (.stmt (.unknown {} "A" "")) nestedCommands.session
        (t ++ [.attempt name 2 s, .origin .expansionTooDeep]) (.failed .expansionTooDeep)
        (s.tell .bell) := by
  have hs : nestedCommands.session.commands.OnlyScripts :=
    (Registry.OnlyScripts.empty.define "A" _ _).define "B" _ _
  have hx : (Stmt.unknown {} "A" "").AllHooks Hook.IgnoresBudget := trivial
  have two : Run.withBudget 2 ((Stmt.unknown {} "A" "").exec (expand 2) .root) nestedCommands =
      (some .finished, (Run.withBudget 2 ((Stmt.unknown {} "A" "").exec (expand 2) .root)
        nestedCommands).2) :=
    Prod.ext (by decide +kernel) rfl
  have one : (Run.withBudget 1 ((Stmt.unknown {} "A" "").exec (expand 1) .root)
      nestedCommands).1 = some (.failed .expansionTooDeep) := by
    decide +kernel
  obtain ⟨⟨t, ht⟩, narrow⟩ := exec_narrow (b := 1) (by decide) hs hx two
  obtain ⟨hsame, hcut⟩ := narrow t ht
  by_cases hwithin : ∀ k ∈ t.depths, k ≤ 1
  · have hfinished := (hsame hwithin).2
    rw [hfinished] at one
    cases one
  · obtain ⟨t₁, name, s, -, -, -, hr, -⟩ := hcut hwithin
    exact ⟨t₁, name, s, hr⟩

end ExScript
