import ExScript.Proofs.Result
import ExScript.Proofs.Run.Budget

/-!
# What one step of a script can do

Commands, hooks and conditions change variables, the buffer and files as they like. Two things they
can do to a session only in a narrow way: what they tell the user is messages, never errors or
bells, and user commands that they define stand for replacement texts. Both hold in any number of
steps (`Effect.trans`), so it is enough to look at single ones.

## What it is for

The two are the two ways in which a statement can work on something outside of itself. A message
that was an error would be one that nobody failed with, and the account of `Proofs/Run/Report.lean`,
where the errors shown are those that arose, would not come out even. A user command that was bound
to a handler would bring code that nothing is known of into a script that had none, and whatever is
said of scripts alone would hold for as long as nobody defines a user command.

`Effect` is weaker than what is true of any single command, and that is its point: it holds of all
of them, is closed under one after the other, and does not change if a command is changed in what it
does to variables, lines or files. What commands do to these is said in `Proofs/Run/Change.lean`.

## Main definitions

* `Registry.OnlyScripts` — no user command is bound to a handler
* `Effect` — what a step does to the registry and to what the user is told

## Main results

* `Command.run_effect`, `Hook.run_effect` — commands and hooks have no other effect
-/

namespace ExScript

/-! ### Registries

That there are only replacement texts is a property of each entry, so it survives what is done to
entries: one is added, one is taken away, or all are. -/

/-- Whether each user command stands for a replacement text. -/
def Registry.OnlyScripts (registry : Registry) : Prop :=
  ∀ name c, registry.get? name = some c → ∃ text, c.replacement = .script text

namespace Registry.OnlyScripts

variable {registry registry' : Registry}

theorem empty : Registry.empty.OnlyScripts := by
  intro name c h
  cases h

/-- What is defined by a script is a text, also where something else was defined under the name. -/
theorem define (h : registry.OnlyScripts) (name : String) (arity : Arity) (text : String) :
    (registry.define name arity text).OnlyScripts := by
  intro other c hc
  rw [Registry.define, Registry.insert, Registry.get?, Table.get?_insert] at hc
  split at hc
  · cases hc
    exact ⟨text, rfl⟩
  · exact h other c hc

theorem erase {name : String} (h : registry.OnlyScripts)
    (herase : registry.erase name = .ok registry') : registry'.OnlyScripts := by
  rw [Registry.erase] at herase
  split at herase
  · cases herase
    intro other c hc
    rw [Registry.get?, Table.get?_erase] at hc
    split at hc
    · cases hc
    · exact h other c hc
  · cases herase

end Registry.OnlyScripts

/-! ### Effects -/

/-- A session comes from another one by steps that bind no handlers and tell the user nothing but
messages. -/
structure Effect (s s' : Session) : Prop where
  /-- No handler was bound. -/
  scripts : s.commands.OnlyScripts → s'.commands.OnlyScripts
  /-- There are messages and nothing else behind what the user was told before. -/
  reports : ∃ texts : List String, s'.events = s.events ++ texts.map Event.report

namespace Effect

variable {s s' s'' : Session}

theorem refl (s : Session) : Effect s s :=
  ⟨id, [], by simp⟩

theorem trans (h : Effect s s') (h' : Effect s' s'') : Effect s s'' := by
  obtain ⟨texts, ht⟩ := h.reports
  obtain ⟨texts', ht'⟩ := h'.reports
  exact ⟨fun hs => h'.scripts (h.scripts hs), texts ++ texts', by simp [ht', ht]⟩

/-- A step that leaves the registry and what the user was told alone. -/
theorem silent (hcommands : s'.commands = s.commands) (hlog : s'.log = s.log) : Effect s s' :=
  ⟨fun hs => hcommands ▸ hs, [], by simp [Session.events, hlog]⟩

theorem report (s : Session) (text : String) : Effect s (s.tell (.report text)) :=
  ⟨id, [text], by simp⟩

/-- An attempt that fails has no effect. -/
theorem attempt {r : Except Error Session} (h : ∀ s', r = .ok s' → Effect s s') :
    Effect s (Command.attempt s r).2 := by
  cases r with
  | error e => exact refl s
  | ok s' => exact h s' rfl

end Effect

/-! ### Commands

The list of user commands, `:echo` and hooks are what gives messages; definitions are what adds to
the registry. Everything else is silent. -/

namespace Command

variable {s s' : Session}

theorem effect_of_writeBuffer {argument : String} (h : writeBuffer s argument = .ok s') :
    Effect s s' := by
  simp only [writeBuffer] at h
  split at h
  · cases h
  · cases h
    exact .silent rfl rfl

/-- Asking to quit behind something, for the commands that write first. -/
theorem effect_of_quit_map {r : Except Error Session} (hr : ∀ s', r = .ok s' → Effect s s')
    (h : r.map requestQuit = .ok s') : Effect s s' := by
  obtain ⟨s₁, hs₁, rfl⟩ := exists_of_map_eq_ok h
  exact (hr s₁ hs₁).trans (.silent rfl rfl)

/-- A definition either lists, which is one message for each row, or defines. -/
theorem effect_of_runDefinition {definition : Definition}
    (h : runDefinition s definition = .ok s') : Effect s s' := by
  cases definition with
  | list start =>
    have listed (rows : List String) (s : Session) :
        Effect s (rows.foldl (fun s row => s.tell (.report row)) s) := by
      induction rows generalizing s with
      | nil => exact .refl s
      | cons row rows ih => exact (Effect.report s row).trans (ih _)
    cases h
    exact listed _ s
  | define replace name arity text =>
    rw [runDefinition] at h
    split at h
    · cases h
    · cases h
      exact ⟨fun hs => hs.define name arity text, [], by simp [Session.events]⟩

theorem effect_of_runDeleteLines {range : LineRange} (h : runDeleteLines s range = .ok s') :
    Effect s s' := by
  rw [runDeleteLines] at h
  split at h
  · cases h
    exact .refl s
  · split at h
    · cases h
    · split at h
      · cases h
      · cases h
        exact .silent rfl rfl

theorem effect_of_runQuit {argument : String} (h : runQuit s argument = .ok s') : Effect s s' := by
  rw [runQuit] at h
  split at h
  · split at h
    · cases h
    · cases h
      exact .silent rfl rfl
  · cases h

theorem runUnassign_effect (s : Session) (argument : String) :
    Effect s (runUnassign s argument).2 := by
  rw [runUnassign]
  split
  · exact .refl s
  · split <;> exact .silent rfl rfl

/-- **Commands tell the user nothing but messages, and bind no handlers.** This includes those that
fail: their error is their outcome and not something that was shown. -/
theorem run_effect (c : Command) (scope : Scope) (s : Session) : Effect s (c.run scope s).2 := by
  cases c with
  | echo argument =>
    refine .attempt fun s' h => ?_
    obtain ⟨text, -, rfl⟩ := exists_of_map_eq_ok h
    exact .report s text
  | assign argument =>
    refine .attempt fun s' h => ?_
    obtain ⟨vars, -, rfl⟩ := exists_of_map_eq_ok h
    exact .silent rfl rfl
  | unassign argument => exact runUnassign_effect s argument
  | write argument => exact .attempt fun s' h => effect_of_writeBuffer h
  | quit argument => exact .attempt fun s' h => effect_of_runQuit h
  | writeQuit argument =>
    exact .attempt fun s' h => effect_of_quit_map (fun _ => effect_of_writeBuffer) h
  | exit argument =>
    refine .attempt fun s' h => ?_
    split at h
    · exact effect_of_quit_map (fun _ => effect_of_writeBuffer) h
    · cases h
      exact .silent rfl rfl
  | defineCommand argument =>
    refine .attempt fun s' h => ?_
    split at h
    · cases h
    · exact effect_of_runDefinition h
  | deleteCommand argument =>
    refine .attempt fun s' h => ?_
    obtain ⟨commands, hcommands, rfl⟩ := exists_of_map_eq_ok h
    exact ⟨fun hs => hs.erase hcommands, [], by simp [Session.events]⟩
  | clearCommands => exact ⟨fun _ => Registry.OnlyScripts.empty, [], by simp [run, Session.events]⟩
  | deleteLines range => exact .attempt fun s' h => effect_of_runDeleteLines h
  | breakLoop => exact .refl s
  | continueLoop => exact .refl s

end Command

/-! ### Hooks and conditions -/

/-- A hook counts its use and may leave a message. -/
theorem Hook.run_effect {α : Type} (h : Hook α) (scope : Scope) (s : Session) :
    Effect s (h.run scope s).2 := by
  rw [Hook.run]
  rcases h.react (Hook.sight h.key scope s) with ⟨_ | text, a⟩
  · exact .silent rfl rfl
  · have counted : Effect s { s with tallies := s.tallies.insert h.key (s.tally h.key + 1) } :=
      .silent rfl rfl
    exact counted.trans (.report _ text)

/-- Putting a budget in and taking it out tells the user nothing. -/
theorem Hook.runWithin_effect {α : Type} (b : Nat) (h : Hook α) (scope : Scope) (s : Session) :
    Effect s (h.runWithin b scope s).2 := by
  have start : Effect s (s.within b) := .silent rfl rfl
  exact (start.trans (h.run_effect scope _)).trans (.silent rfl rfl)

theorem Condition.effect_of_checkWithin {b : Nat} {c : Condition} {scope : Scope} {s s' : Session}
    {r : Except Error Bool} (h : c.checkWithin b scope s = (r, s')) : Effect s s' := by
  cases c with
  | expression e =>
    cases h
    exact .silent rfl rfl
  | hook hk =>
    have effect := hk.runWithin_effect b scope s
    have hrun : hk.runWithin b scope s = (r, s') := h
    rwa [hrun] at effect

/-- A condition that is an expression has no effect at all, and its value does not depend on the
budget. -/
theorem Condition.expression_checkWithin {b : Nat} {e : Expression} {scope : Scope}
    {s s' : Session} {r : Except Error Bool}
    (h : (Condition.expression e).checkWithin b scope s = (r, s')) :
    s' = s ∧ r = (e.eval s.vars).map Value.toBool := by
  cases h
  exact ⟨rfl, rfl⟩

end ExScript
