import ExScript.Run.Command

/-!
# Commands that fail

A simple command reads its argument, evaluates what stands in it and finds the lines of its range
before it does anything. So a command that fails leaves the session as it was, and a script can go
on behind it (in the text of a user command, for example) as if it had not been there.

`:unlet` is the exception. It is given several names and looks at each of them when it comes to it,
so if one of them cannot be taken away, those in front of it are gone and those behind it were not
looked at. Even then nothing but variables was touched.

This is about one command. A script that fails in the middle keeps what its commands in front of
that have done, and there is nothing that takes it back.

## Main definitions

* `Variables.eraseAll` — variables without those of several names
* `Command.Refusal` — why a name cannot be taken away

## Main results

* `Command.unassignIn_spec` — what an `:unlet` takes away, and where it stops
* `Command.run_failed` — what a command that fails leaves
-/

namespace ExScript

/-! ### Taking several variables away

Two names that differ in the mark of scope stand for one variable, so what is left is said of bare
names. In which order the names are given, and whether one is given twice, does not matter for it.
-/

namespace Variables

/-- Takes several variables away. -/
def eraseAll (vars : Variables) (names : List String) : Variables :=
  names.foldl erase vars

/-- What is left are the variables under other names. -/
theorem table_get?_eraseAll (vars : Variables) (names : List String) (key : String) :
    (vars.eraseAll names).table.get? key =
      if key ∈ names.map bareName then none else vars.table.get? key := by
  induction names generalizing vars with
  | nil => simp [eraseAll]
  | cons name names ih =>
    have first : (vars.erase name).table.get? key =
        if key = bareName name then none else vars.table.get? key :=
      Table.get?_erase ..
    rw [eraseAll, List.foldl_cons, ← eraseAll, ih, first, List.map_cons]
    by_cases hname : key = bareName name
    · simp [hname]
    · simp [hname]

/-- Whether a mark of scope stands in front of a name does not matter. -/
theorem get?_eraseAll (vars : Variables) (names : List String) (other : String) :
    (vars.eraseAll names).get? other =
      if bareName other ∈ names.map bareName then none else vars.get? other :=
  table_get?_eraseAll vars names (bareName other)

end Variables

namespace Command

/-! ### Names that cannot be taken away

What is wrong with a name is asked of the variables as they are when it is its turn. A name that is
given twice is there the first time and missing the second. -/

/-- Why an `:unlet` cannot take away the variable of a name: it is no name of a variable, or there
is no such variable and no `!` says that this does not matter. -/
inductive Refusal (force : Bool) (vars : Variables) (name : String) : Error → Prop where
  | illegal :
    Variables.isLegalName name.toList = false → Refusal force vars name (.illegalVariableName name)
  | missing :
    Variables.isLegalName name.toList → vars.get? name = none → force = false →
      Refusal force vars name (.noSuchVariable name)

/-- An `:unlet` takes away the variables of legal names, from the first one on. It stops only at a
name that cannot be taken away. -/
theorem unassignIn_spec (force : Bool) (vars : Variables) (names : List (List Char)) :
    ∃ done rest, names.map String.ofList = done ++ rest ∧
      (∀ name ∈ done, Variables.isLegalName name.toList) ∧
      (unassignIn force vars names).2 = vars.eraseAll done ∧
      ∀ e, (unassignIn force vars names).1 = some e →
        ∃ name more, rest = name :: more ∧ Refusal force (vars.eraseAll done) name e := by
  induction names generalizing vars with
  | nil => exact ⟨[], [], rfl, List.forall_mem_nil _, rfl, by rintro _ ⟨⟩⟩
  | cons name names ih =>
    rw [unassignIn]
    split
    next hlegal =>
      refine ⟨[], _, rfl, List.forall_mem_nil _, rfl, ?_⟩
      rintro _ ⟨⟩
      exact ⟨_, _, rfl, .illegal (by simpa using hlegal)⟩
    next hlegal =>
      have hlegal : Variables.isLegalName (String.ofList name).toList := by simpa using hlegal
      split
      next hmissing =>
        simp only [Variables.contains, Bool.and_eq_true, Bool.not_eq_true',
          Option.isSome_eq_false_iff, Option.isNone_iff_eq_none] at hmissing
        refine ⟨[], _, rfl, List.forall_mem_nil _, rfl, ?_⟩
        rintro _ ⟨⟩
        exact ⟨_, _, rfl, .missing hlegal hmissing.1 hmissing.2⟩
      next =>
        obtain ⟨done, rest, hnames, hdone, hvars, hstops⟩ := ih (vars.erase (String.ofList name))
        exact ⟨String.ofList name :: done, rest, by simp [hnames],
          List.forall_mem_cons.mpr ⟨hlegal, hdone⟩, hvars, hstops⟩

/-! ### All commands

The others work out a new session or an error, and only a new session takes the place of the old
one. -/

theorem attempt_failed {s s' : Session} {r : Except Error Session} {e : Error}
    (h : attempt s r = (.failed e, s')) : s' = s := by
  cases r with
  | ok s₁ => cases h
  | error e' =>
    cases h
    rfl

/-- How an `:unlet` fails: for want of a name, or at one of its names. -/
theorem runUnassign_failed {s s' : Session} {argument : String} {e : Error}
    (h : runUnassign s argument = (.failed e, s')) :
    ((splitBang argument).2 = [] ∧ e = .argumentRequired ∧ s' = s) ∨
      ∃ done name rest,
        (Text.words (splitBang argument).2).map String.ofList = done ++ name :: rest ∧
        Refusal (splitBang argument).1 s'.vars name e ∧
        s' = { s with vars := s.vars.eraseAll done } := by
  rw [runUnassign] at h
  split at h
  next hbang =>
    cases h
    exact .inl ⟨by rw [hbang], rfl, rfl⟩
  next force names _ hbang =>
    rw [hbang]
    split at h
    · cases h
    next e' vars hunassign =>
      cases h
      obtain ⟨done, rest, hnames, -, hvars, hstops⟩ :=
        unassignIn_spec force s.vars (Text.words names)
      rw [hunassign] at hvars hstops
      obtain ⟨name, more, rfl, hrefusal⟩ := hstops e rfl
      obtain rfl : vars = _ := hvars
      exact .inr ⟨done, name, more, hnames, hrefusal, rfl⟩

/-- **A command that fails has done nothing**, except for an `:unlet` that stops at one of several
names: then exactly the variables of the names in front of it are gone. -/
theorem run_failed {c : Command} {scope : Scope} {s s' : Session} {e : Error}
    (h : c.run scope s = (.failed e, s')) :
    ((∀ argument, c ≠ .unassign argument) → s' = s) ∧
    ∀ argument, c = .unassign argument →
      ((splitBang argument).2 = [] ∧ e = .argumentRequired ∧ s' = s) ∨
        ∃ done name rest vars,
          (Text.words (splitBang argument).2).map String.ofList = done ++ name :: rest ∧
          Refusal (splitBang argument).1 vars name e ∧
          s' = { s with vars } ∧
          ∀ other, vars.get? other =
            if Variables.bareName other ∈ done.map Variables.bareName then none
            else s.vars.get? other := by
  cases c with
  | unassign argument =>
    refine ⟨fun hne => absurd rfl (hne argument), ?_⟩
    rintro _ ⟨⟩
    rcases runUnassign_failed h with hnone | ⟨done, name, rest, hnames, hrefusal, rfl⟩
    · exact .inl hnone
    · exact .inr ⟨done, name, rest, _, hnames, hrefusal, rfl, s.vars.get?_eraseAll done⟩
  | clearCommands => cases h
  | breakLoop | continueLoop =>
    refine ⟨fun _ => ?_, by rintro _ ⟨⟩⟩
    rw [run] at h
    exact (congrArg Prod.snd h).symm
  | echo | assign | write | quit | writeQuit | exit | defineCommand | deleteCommand | deleteLines =>
    exact ⟨fun _ => attempt_failed h, by rintro _ ⟨⟩⟩

/-- A session with two variables. -/
def twoVariables : Session :=
  { vars := (Variables.empty.set "a" (.number 1)).set "c" (.number 3) }

/-- An `:unlet` of three names stops at the second one, which is not there. -/
theorem run_failed_secondName :
    ∃ s', run .root twoVariables (.unassign "a b c") = (.failed (.noSuchVariable "b"), s') ∧
      s'.vars.get? "a" = none ∧ s'.vars.get? "c" = some (.number 3) := by
  have houtcome : (run .root twoVariables (.unassign "a b c")).1 =
      .failed (.noSuchVariable "b") := by
    decide +kernel
  obtain ⟨⟨o, s'⟩, hrun⟩ : ∃ r, run .root twoVariables (.unassign "a b c") = r := ⟨_, rfl⟩
  rw [hrun] at houtcome
  obtain rfl : o = .failed (.noSuchVariable "b") := houtcome
  have hwords : (Text.words (splitBang "a b c").2).map String.ofList = ["a", "b", "c"] := by
    decide +kernel
  rcases (run_failed hrun).2 "a b c" rfl with
    ⟨-, ⟨⟩, -⟩ | ⟨done, name, rest, vars, hnames, hrefusal, rfl, hvars⟩
  rw [hwords] at hnames
  obtain rfl : name = "b" := by
    cases hrefusal
    rfl
  obtain rfl : done = ["a"] := by
    rcases done with _ | ⟨first, _ | ⟨second, _ | ⟨third, done⟩⟩⟩ <;> simp_all
  refine ⟨_, hrun, ?_, ?_⟩
  · rw [hvars "a"]
    exact if_pos (by decide)
  · rw [hvars "c", if_neg (by decide)]
    rfl

end Command

end ExScript
