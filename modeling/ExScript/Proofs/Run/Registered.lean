import ExScript.Proofs.Run.Change
import ExScript.Proofs.Run.Course
import ExScript.Proofs.Run.Written
import ExScript.Proofs.Script.Definition

/-!
# What can be registered

Where no user command was there at the beginning, each one that is ever registered was accepted by
`:command`, under its own name. A definition can itself come out of a replacement text in which
arguments were put in, and definitions are replaced and taken away while scripts run, so this is an
invariant of the machine: it is about each session that a step leads to, and not only about those in
which a script has ended.

The registry is changed by three commands (`Change`). What `:command` lets through is in
`Definition.WellFormed`; that a replacement text holds no line feed is not checked by anything, and
holds because all commands were written in texts (`Steps.isWritten`).

## Main definitions

* `Registry.WellDefined` — each user command is one that can be defined, under its own name

## Main results

* `registered_wellDefined` — in a run from an empty registry there are no other user commands
-/

namespace ExScript

/-! ### Registries -/

/-- Whether each user command of a registry has a replacement text on a single line, and is
registered under its name as `:command` does it. -/
def Registry.WellDefined (registry : Registry) : Prop :=
  ∀ key c, registry.get? key = some c →
    ∃ arity text, c = .ofScript key arity text ∧ Definition.WellFormed key arity text ∧
      '\n' ∉ text.toList

namespace Registry.WellDefined

variable {registry registry' : Registry}

theorem empty : Registry.empty.WellDefined := by
  rintro key c ⟨⟩

theorem define (h : registry.WellDefined) {name text : String} {arity : Arity}
    (hname : Definition.WellFormed name arity text) (htext : '\n' ∉ text.toList) :
    (registry.define name arity text).WellDefined := by
  intro key c hc
  rw [Registry.define, Registry.insert, Registry.get?, Table.get?_insert] at hc
  split at hc
  next hkey =>
    cases hc
    subst hkey
    exact ⟨arity, text, rfl, hname, htext⟩
  next => exact h key c hc

theorem erase {name : String} (h : registry.WellDefined)
    (herase : registry.erase name = .ok registry') : registry'.WellDefined := by
  rw [Registry.erase] at herase
  split at herase
  · cases herase
    intro key c hc
    rw [Registry.get?, Table.get?_erase] at hc
    split at hc
    · cases hc
    · exact h key c hc
  · cases herase

end Registry.WellDefined

/-! ### Runs -/

/-- A deed keeps the registry as it should be, if its statement is written. -/
theorem Deed.wellDefined_apply {d : Deed} {s : Session} (h : s.commands.WellDefined)
    (hd : d.IsWritten) : (d.apply s).commands.WellDefined := by
  have change := d.change s
  generalize d.apply s = s' at change
  cases change with
  | none hs => exact hs.commands ▸ h
  | delete | write | leave | set | unset | bind => exact h
  | define hparse =>
    obtain ⟨hname, hsubset⟩ := Definition.wellFormed_of_parse hparse
    exact h.define hname fun hc => hd.not_lineFeed (hsubset hc)
  | erase herase => exact h.erase herase
  | clear => exact .empty

theorem Session.wellDefined_after {s : Session} {ds : List Deed} (h : s.commands.WellDefined)
    (hds : ∀ d ∈ ds, d.IsWritten) : (s.after ds).commands.WellDefined := by
  refine Session.after_of_keeps (p := fun s => s.commands.WellDefined) (fun d hd s hs => ?_) h
  exact Deed.wellDefined_apply hs (hds d hd)

/-- **Only what can be defined is ever registered.** Whatever scripts are run from a session without
user commands, each user command of each session on the way is one that `:command` has accepted. -/
theorem registered_wellDefined {s : Session} {c : Config} {ds : List Deed}
    (h : Steps (.idle s) ds c) (hs : s.commands = .empty) : c.session.commands.WellDefined := by
  have hstart : s.commands.WellDefined := hs ▸ .empty
  rw [h.session_eq]
  exact Session.wellDefined_after hstart h.isWritten

/-- A user command that defines another one, and is then taken away. -/
theorem registered_wellDefined_definingCommand :
    ∃ (m : Machine) (arity : Arity) (text : String),
      Machine.runScript ⟨0, {}⟩ "com -nargs=* Def com <args>\nDef Foo echo 1\ndelc Def" =
          (some (.ok ()), m) ∧
        m.session.commands.get? "Foo" = some (.ofScript "Foo" arity text) ∧
        Definition.WellFormed "Foo" arity text := by
  let script := "com -nargs=* Def com <args>\nDef Foo echo 1\ndelc Def"
  have hresult : (Machine.runScript ⟨0, {}⟩ script).1 = some (.ok ()) := by decide +kernel
  have hthere : ((Machine.runScript ⟨0, {}⟩ script).2.session.commands.get? "Foo").isSome := by
    decide +kernel
  obtain ⟨⟨r, m⟩, hrun⟩ : ∃ r, Machine.runScript ⟨0, {}⟩ script = r := ⟨_, rfl⟩
  rw [hrun] at hresult hthere
  obtain rfl : r = some (.ok ()) := hresult
  obtain ⟨c, hc⟩ := Option.isSome_iff_exists.mp hthere
  obtain ⟨ds, hds⟩ := Machine.steps_of_runScript hrun
  obtain ⟨arity, text, rfl, hname, -⟩ := registered_wellDefined hds rfl "Foo" c hc
  exact ⟨m, arity, text, hrun, hc, hname⟩

end ExScript
