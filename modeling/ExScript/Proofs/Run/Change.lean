import ExScript.Proofs.Result
import ExScript.Proofs.Run.Atomicity
import ExScript.Proofs.Run.Step

/-!
# What a deed can change

Of all that a session holds, the buffer, the files, the wish to quit, the user commands and the
variables are changed by few deeds, each in its own way. They are listed here once. A statement
about what becomes of one of them in the course of a run is a matter of going through the list, and
need not look at how a command reads its argument.

## How the list is used

An invariant of the machine has to be kept by every deed, and most deeds have nothing to do with it.
So `Deed.change` splits a deed into ten cases and not into one for each command, and in most of them
the goal is closed by a field of `Session.Alike`. What is kept in each case is what users of the
list have needed of it, and no more:

* lines are deleted from a line that is not zero on, which is all that a statement about the cursor
  needs;
* writing gives the buffer and the files that `Buffer.write` gives, and says whether to quit;
* quitting without writing needs force or an unmodified buffer, and this is what nothing is lost by;
* a user command is defined with the name and the text of a definition that could be read, and a
  variable is set under the name of an assignment that could be read, so both names have passed
  their checks.

The messages are left out, and so is the copy of the budget: `Session.Alike` does not look at them.
What is shown is a matter of `Proofs/Run/Display.lean`.

## Main definitions

* `Command.writeArgument?` — the commands that write the buffer
* `Change` — the changes that deeds can make

## Main results

* `Command.run_of_writeArgument` — what a command that writes does
* `Deed.change` — a deed makes one of these changes
-/

namespace ExScript

/-! ### Writing and quitting

Three commands write, each as a part of what it does, and what they have in common is more than what
tells them apart. So they are described by their argument and by whether they ask to quit. -/

namespace Command

/-- The argument of a command that writes the buffer in a session, before it does anything else.
`:xit` does so only if there is something to write. -/
def writeArgument? (s : Session) : Command → Option String
  | write argument => some argument
  | writeQuit argument => some argument
  | exit argument => if s.buffer.modified then some argument else none
  | _ => none

/-- Whether a command asks to quit if it succeeds. -/
def isQuitting : Command → Bool
  | quit _ => true
  | writeQuit _ => true
  | exit _ => true
  | _ => false

/-- Whether a command is a `:quit!`. -/
def isForcedQuit : Command → Bool
  | quit argument => (splitBang argument).1
  | _ => false

/-- The path in the argument of a command that writes, if there is one. -/
def pathOf? (argument : String) : Option String :=
  let path := (splitBang argument).2
  if path.isEmpty then none else some (String.ofList path)

/-- **A command that writes the buffer does that first**, and if it fails, nothing else. The wish to
quit comes with the success. -/
theorem run_of_writeArgument {c : Command} {s : Session} {argument : String}
    (h : c.writeArgument? s = some argument) (scope : Scope) :
    c.run scope s =
      attempt s ((s.buffer.write s.files (pathOf? argument)).map fun r =>
        { s with
          buffer := r.2.1
          files := r.2.2
          quitRequested := c.isQuitting || s.quitRequested }) := by
  have hwrite (argument : String) : writeBuffer s argument =
      (s.buffer.write s.files (pathOf? argument)).map fun r =>
        { s with buffer := r.2.1, files := r.2.2 } := by
    rw [writeBuffer, pathOf?]
    cases s.buffer.write s.files _ <;> rfl
  cases c with
  | write =>
    cases h
    rw [run, hwrite]
    rfl
  | writeQuit =>
    cases h
    rw [run, hwrite]
    cases s.buffer.write s.files _ <;> rfl
  | exit =>
    rw [writeArgument?] at h
    split at h
    next hmodified =>
      cases h
      rw [run, if_pos hmodified, hwrite]
      cases s.buffer.write s.files _ <;> rfl
    next => cases h
  | _ => cases h

end Command

/-! ### Changes

`Session.Alike` is the part of a session that the list is about. Telling the user something, putting
a budget in and counting the use of a hook all leave it as it is. -/

/-- Two sessions that differ at most in what is not looked at here. -/
structure Session.Alike (s s' : Session) : Prop where
  buffer : s'.buffer = s.buffer
  files : s'.files = s.files
  quitRequested : s'.quitRequested = s.quitRequested
  commands : s'.commands = s.commands
  vars : s'.vars = s.vars

namespace Session.Alike

variable {s s' s'' : Session}

theorem refl (s : Session) : s.Alike s :=
  ⟨rfl, rfl, rfl, rfl, rfl⟩

theorem trans (h : s.Alike s') (h' : s'.Alike s'') : s.Alike s'' :=
  ⟨h'.buffer.trans h.buffer, h'.files.trans h.files, h'.quitRequested.trans h.quitRequested,
    h'.commands.trans h.commands, h'.vars.trans h.vars⟩

theorem tell (s : Session) (e : Event) : s.Alike (s.tell e) :=
  ⟨rfl, rfl, rfl, rfl, rfl⟩

/-- The rows of a listing are told one by one. -/
theorem tellAll (s : Session) (rows : List String) :
    s.Alike (rows.foldl (fun s row => s.tell (.report row)) s) := by
  induction rows generalizing s with
  | nil => exact refl s
  | cons row rows ih => exact (tell s (.report row)).trans (ih _)

theorem within (s : Session) (budget : Nat) : s.Alike (s.within budget) :=
  ⟨rfl, rfl, rfl, rfl, rfl⟩

end Session.Alike

/-- What a deed can change of the buffer, the files, the wish to quit, the user commands and the
variables. -/
inductive Change (s : Session) : Deed → Session → Prop where
  /-- Most deeds: nothing that is looked at here. -/
  | none {d s'} : s.Alike s' → Change s d s'
  /-- Lines are deleted. -/
  | delete {range scope first last} :
    first ≠ 0 →
      Change s (.command (.deleteLines range) scope)
        { s with buffer := s.buffer.deleteLines first last }
  /-- The buffer is written, and the path may become its own. -/
  | write {c scope argument path buffer files} :
    c.writeArgument? s = some argument →
      s.buffer.write s.files (Command.pathOf? argument) = .ok (path, buffer, files) →
      Change s (.command c scope)
        { s with buffer, files, quitRequested := c.isQuitting || s.quitRequested }
  /-- Quitting is asked for without writing. -/
  | leave {c scope} :
    c.isForcedQuit ∨ s.buffer.modified = false →
      Change s (.command c scope) { s with quitRequested := true }
  | define {argument scope replace name arity text} :
    Definition.parse argument = .ok (.define replace name arity text) →
      Change s (.command (.defineCommand argument) scope)
        { s with commands := s.commands.define name arity text }
  | erase {argument scope commands} :
    s.commands.erase (trimmed argument) = .ok commands →
      Change s (.command (.deleteCommand argument) scope) { s with commands }
  | clear {scope} : Change s (.command .clearCommands scope) { s with commands := .empty }
  | set {argument scope name op source v} :
    Command.readAssignment argument = .ok (name, op, source) →
      Change s (.command (.assign argument) scope) { s with vars := s.vars.set name v }
  | unset {argument scope names} :
    (∀ name ∈ names, Variables.isLegalName name.toList) →
      Change s (.command (.unassign argument) scope) { s with vars := s.vars.eraseAll names }
  /-- A `:for` or a handler gives a variable a value. -/
  | bind {name v} : Change s (.assign name v) { s with vars := s.vars.set name v }

namespace Change

variable {s s' : Session} {d : Deed}

theorem refl (s : Session) (d : Deed) : Change s d s :=
  .none (.refl s)

/-- A command that either has its effect or fails without any. -/
theorem attempt {r : Except Error Session} (h : ∀ s', r = .ok s' → Change s d s') :
    Change s d (Command.attempt s r).2 := by
  cases r with
  | error e => exact refl s d
  | ok s' => exact h s' rfl

end Change

/-! ### Commands

One lemma for each command that changes something; those that only set a field need none. -/

namespace Command

variable {s s' : Session} {scope : Scope}

theorem change_of_writeArgument {c : Command} {argument : String}
    (h : c.writeArgument? s = some argument) :
    Change s (.command c scope) (c.run scope s).2 := by
  rw [run_of_writeArgument h]
  refine .attempt fun s' hs' => ?_
  obtain ⟨⟨path, buffer, files⟩, hwrite, rfl⟩ := exists_of_map_eq_ok hs'
  exact .write h hwrite

/-- A `:quit` that succeeds was forced, or there was nothing to lose. -/
theorem change_of_runQuit {argument : String} (h : runQuit s argument = .ok s') :
    Change s (.command (.quit argument) scope) s' := by
  rw [runQuit] at h
  split at h
  next force hbang =>
    split at h
    · cases h
    next hleave =>
      cases h
      refine .leave ?_
      cases force with
      | true => exact .inl (congrArg Prod.fst hbang)
      | false => exact .inr (by simpa using hleave)
  next => cases h

theorem change_of_runDefinition {argument : String} {definition : Definition}
    (hparse : Definition.parse argument = .ok definition)
    (h : runDefinition s definition = .ok s') :
    Change s (.command (.defineCommand argument) scope) s' := by
  cases definition with
  | list start =>
    cases h
    exact .none (.tellAll s _)
  | define replace name arity text =>
    rw [runDefinition] at h
    split at h
    · cases h
    · cases h
      exact .define hparse

theorem change_of_runDeleteLines {range : LineRange} (h : runDeleteLines s range = .ok s') :
    Change s (.command (.deleteLines range) scope) s' := by
  rw [runDeleteLines] at h
  split at h
  · cases h
    exact .refl s _
  · split at h
    · cases h
    · split at h
      · cases h
      next hfirst =>
        cases h
        exact .delete hfirst

theorem change_of_assignIn {argument : String} {vars : Variables}
    (h : assignIn s.vars argument = .ok vars) :
    Change s (.command (.assign argument) scope) { s with vars } := by
  rw [assignIn] at h
  split at h
  · cases h
  next hread =>
    split at h
    · cases h
    · split at h
      · cases h
      · obtain ⟨new, -, rfl⟩ := exists_of_map_eq_ok h
        exact .set hread

/-- An `:unlet` takes its names away one by one, and the ones in front of a failure are gone. They
were legal, since each was looked at before it was taken away. -/
theorem change_of_runUnassign (s : Session) (argument : String) :
    Change s (.command (.unassign argument) scope) (runUnassign s argument).2 := by
  rw [runUnassign]
  split
  · exact .refl s _
  next force names _ _ =>
    obtain ⟨done, _, -, hlegal, hvars, -⟩ := unassignIn_spec force s.vars (Text.words names)
    have change : Change s (.command (.unassign argument) scope)
        { s with vars := (unassignIn force s.vars (Text.words names)).2 } := by
      rw [hvars]
      exact .unset hlegal
    split
    next hunassign => rwa [hunassign] at change
    next hunassign => rwa [hunassign] at change

/-- A command makes one of the changes, whether it succeeds or fails. -/
theorem change (c : Command) (scope : Scope) (s : Session) :
    Change s (.command c scope) (c.run scope s).2 := by
  cases c with
  | echo argument =>
    refine .attempt fun s' h => ?_
    obtain ⟨text, -, rfl⟩ := exists_of_map_eq_ok h
    exact .none (.tell s _)
  | assign argument =>
    refine .attempt fun s' h => ?_
    obtain ⟨vars, hvars, rfl⟩ := exists_of_map_eq_ok h
    exact change_of_assignIn hvars
  | unassign argument => exact change_of_runUnassign s argument
  | write | writeQuit => exact change_of_writeArgument rfl
  | quit argument => exact .attempt fun s' h => change_of_runQuit h
  | exit argument =>
    cases hmodified : s.buffer.modified with
    | true => exact change_of_writeArgument (if_pos hmodified)
    | false =>
      rw [run, hmodified]
      exact .leave (.inr hmodified)
  | defineCommand argument =>
    refine .attempt fun s' h => ?_
    split at h
    · cases h
    next hparse => exact change_of_runDefinition hparse h
  | deleteCommand argument =>
    refine .attempt fun s' h => ?_
    obtain ⟨commands, hcommands, rfl⟩ := exists_of_map_eq_ok h
    exact .erase hcommands
  | clearCommands => exact .clear
  | deleteLines range => exact .attempt fun s' h => change_of_runDeleteLines h
  | breakLoop => exact .refl s _
  | continueLoop => exact .refl s _

end Command

/-! ### Deeds

What is not a command leaves a session that is alike, except for variables that are bound. -/

theorem Hook.runWithin_alike {α : Type} (budget : Nat) (h : Hook α) (scope : Scope)
    (s : Session) : s.Alike (h.runWithin budget scope s).2 := by
  have counted : s.Alike (h.run scope (s.within budget)).2 := by
    rw [Hook.run]
    rcases h.react (Hook.sight h.key scope (s.within budget)) with ⟨_ | text, a⟩
    · exact ⟨rfl, rfl, rfl, rfl, rfl⟩
    · exact ⟨rfl, rfl, rfl, rfl, rfl⟩
  exact counted.trans (.within _ s.budget)

theorem Condition.checkWithin_alike (budget : Nat) (c : Condition) (scope : Scope)
    (s : Session) : s.Alike (c.checkWithin budget scope s).2 := by
  cases c with
  | expression e => exact .refl s
  | hook h => exact h.runWithin_alike budget scope s

theorem absorb_alike (o : Outcome) (s : Session) : s.Alike (absorb o s).2 := by
  rw [absorb.eq_def]
  split
  · exact .refl s
  · exact .tell s _
  · exact .refl s

/-- The end of a script is told to the user and leaves the rest. -/
theorem Outcome.conclude_alike (o : Outcome) (s : Session) : s.Alike (o.conclude s) := by
  cases o with
  | failed e => exact (Session.Alike.tell s _).trans (.tell _ _)
  | finished | leaveLoop | nextPass => exact .refl s

/-- **A deed makes one of the changes.** -/
theorem Deed.change (d : Deed) (s : Session) : Change s d (d.apply s) := by
  cases d with
  | nothing | read => exact .refl s _
  | command c scope => exact c.change scope s
  | hook h site => exact .none (h.runWithin_alike site.budget site.scope s)
  | ask c site => exact .none (c.checkWithin_alike site.budget site.scope s)
  | assign name v => exact .bind
  | tell e => exact .none (.tell s e)
  | absorb o => exact .none (absorb_alike o s)
  | finish o => exact .none (o.conclude_alike s)
  | refuse text cause => exact .none ((Outcome.failed cause).conclude_alike s)

end ExScript
