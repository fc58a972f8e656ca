import ExScript.Run.Expansion

/-!
# What a refused command has done

A command with an unknown name can be refused: the name cannot be called, the arguments are not what
was declared, or the replacement text is no script. The refusal need not come at once, because a
user command can hand over to another one and that to a third. But handing over does nothing by
itself, and where a text or a handler is run an error is taken in. So the errors that are left
divide in two: one says that the budget ran out, whatever was done before, and behind the others
nothing was done at all.

The induction is on the budget, which each link of a chain makes smaller.

## What is not covered

Nothing is said of a command whose budget ran out: a text may have been run up to the name that was
one too many, and all that it did is there. Nor is it said that a refusal comes from the command
that was written; in a chain it is the last link that is refused, and the error speaks of that one.
The registry may hold handlers here, of any kind: calling one counts as finished.

## Main results

* `Registry.expansion_refuses` — the errors of an expansion are refusals
* `expand_refused_unchanged` — a command that is refused leaves the machine as it was
-/

namespace ExScript

/-- The errors with which a command is refused before anything is run. -/
inductive Error.Refuses : Error → Prop where
  | notACommand (command : String) : Refuses (.notACommand command)
  | argumentRequired : Refuses .argumentRequired
  | trailingCharacters (arguments : String) : Refuses (.trailingCharacters arguments)

/-- Running out of budget is no refusal. -/
theorem Error.Refuses.ne_tooDeep {e : Error} (h : e.Refuses) : e ≠ .expansionTooDeep := by
  rintro rfl
  cases h

/-! ### Expansions

From the inside out: the number of arguments, the entry of the registry, the name, the text. -/

theorem Arity.check_refuses {arity : Arity} {arguments : String} {e : Error}
    (h : arity.check arguments = .error e) : e.Refuses := by
  rw [Arity.check] at h
  split at h
  · cases h
    exact .argumentRequired
  · split at h
    · cases h
      exact .trailingCharacters arguments
    · cases h

theorem UserCommand.goal_refuses {c : UserCommand} {arguments : String} {e : Error}
    (h : c.goal arguments = .error e) : e.Refuses := by
  rw [UserCommand.goal] at h
  split at h
  next hcheck =>
    cases h
    exact Arity.check_refuses hcheck
  next => split at h <;> cases h

theorem Registry.goal_refuses {registry : Registry} {name arguments : String} {e : Error}
    (h : registry.goal name arguments = .error e) : e.Refuses := by
  rw [Registry.goal] at h
  split at h
  · exact UserCommand.goal_refuses h
  · cases h
    exact .notACommand name

/-- An expansion fails only with a refusal. -/
theorem Registry.expansion_refuses {registry : Registry} {name argument : String} {e : Error}
    (h : registry.expansion name argument = .error e) : e.Refuses := by
  rw [Registry.expansion] at h
  split at h
  next hgoal =>
    cases h
    exact Registry.goal_refuses hgoal
  next => cases h
  next text _ =>
    split at h
    · cases h
      exact .notACommand name
    · split at h
      · cases h
        exact .notACommand text
      · cases h
      · cases h

/-! ### What is taken in -/

/-- An error that is not about the budget is shown and goes no further. -/
theorem absorb_failed {e : Error} (he : e ≠ .expansionTooDeep) (s : Session) :
    absorb (.failed e) s = (.finished, s.tell (.error e)) := by
  cases e <;> first | rfl | exact absurd rfl he

/-- A user command whose text was run finishes, unless the budget ran out. -/
theorem absorb_outcome (o : Outcome) (s : Session) :
    (absorb o s).1 = .finished ∨ (absorb o s).1 = .failed .expansionTooDeep := by
  rw [absorb.eq_def]
  split
  · exact .inr rfl
  · exact .inl rfl
  · exact .inl rfl

theorem runBody_outcome {budget : Nat} {body : Run} {m m' : Machine} {o : Outcome}
    (h : runBody budget body m = (some o, m')) :
    o = .finished ∨ o = .failed .expansionTooDeep := by
  rw [runBody] at h
  split at h
  · cases h
  · cases h
    exact absorb_outcome _ _

/-- A handler has no way to fail. -/
theorem runNative_outcome {budget : Nat} {exec : Stmt → Run} {handler : Native} {m m' : Machine}
    {o : Outcome} (h : runNative budget exec handler m = (some o, m')) : o = .finished := by
  rw [runNative, Run.withBudget, Native.exec] at h
  split at h
  next => cases h
  next =>
    cases h
    rfl

/-! ### Chains of user commands -/

/-- How a command with an unknown name can end. The third case is the only one in which a machine is
spoken of, and it is the one that a chain hands on as it is. -/
theorem expand_outcome {budget : Nat} {name argument : String} {scope : Scope} {m m' : Machine}
    {o : Outcome} (h : expand budget name argument scope m = (some o, m')) :
    o = .finished ∨ o = .failed .expansionTooDeep ∨
      ∃ e, e.Refuses ∧ o = .failed e ∧ m' = m := by
  induction budget generalizing name argument with
  | zero =>
    rw [expand] at h
    split at h
    · cases h
      exact .inr (.inr ⟨_, .notACommand _, rfl, rfl⟩)
    · cases h
      exact .inr (.inl rfl)
  | succ budget ih =>
    rw [expand] at h
    split at h
    · cases h
      exact .inr (.inr ⟨_, .notACommand _, rfl, rfl⟩)
    · split at h
      next e he =>
        cases h
        exact .inr (.inr ⟨e, Registry.expansion_refuses he, rfl, rfl⟩)
      next => exact .inl (runNative_outcome h)
      next => exact ih h
      next =>
        rcases runBody_outcome h with ho | ho
        · exact .inl ho
        · exact .inr (.inl ho)

/-- **A command that is refused has done nothing.** A command with an unknown name that comes to an
end finishes, is refused or ran out of budget; and if it was refused, be it behind a chain of user
commands, the machine is as it was before. -/
theorem expand_refused_unchanged {budget : Nat} {name argument : String} {scope : Scope}
    {m m' : Machine} {o : Outcome} (h : expand budget name argument scope m = (some o, m')) :
    (o = .finished ∨ ∃ e, o = .failed e ∧ (e.Refuses ∨ e = .expansionTooDeep)) ∧
      ∀ e, e.Refuses → o = .failed e → m' = m := by
  rcases expand_outcome h with rfl | rfl | ⟨e, he, rfl, hm⟩
  · exact ⟨.inl rfl, fun _ _ ho => by cases ho⟩
  · refine ⟨.inr ⟨_, rfl, .inr rfl⟩, fun e he ho => ?_⟩
    cases ho
    exact absurd rfl he.ne_tooDeep
  · exact ⟨.inr ⟨e, rfl, .inl he⟩, fun _ _ _ => hm⟩

/-- User commands of which `A` hands its arguments over to `B` and `B` to `C`, which takes none. -/
def forwardingCommands : Registry :=
  ((Registry.empty.define "A" ⟨0, none⟩ "B <args>").define "B" ⟨0, none⟩ "C <args>").define
    "C" ⟨0, some 0⟩ "quit"

/-- The argument is refused where the chain ends, and nobody has asked to quit. -/
theorem expand_refused_unchanged_forwarding :
    ∃ m', expand 3 "A" "x" .root ⟨0, { commands := forwardingCommands }⟩ =
        (some (.failed (.trailingCharacters "x")), m') ∧
      m' = ⟨0, { commands := forwardingCommands }⟩ := by
  have hresult : (expand 3 "A" "x" .root ⟨0, { commands := forwardingCommands }⟩).1 =
      some (.failed (.trailingCharacters "x")) := by
    decide +kernel
  have hrun : expand 3 "A" "x" .root ⟨0, { commands := forwardingCommands }⟩ =
      (some (.failed (.trailingCharacters "x")),
        (expand 3 "A" "x" .root ⟨0, { commands := forwardingCommands }⟩).2) := by
    rw [← hresult]
  exact ⟨_, hrun, (expand_refused_unchanged hrun).2 _ (.trailingCharacters "x") rfl⟩

end ExScript
