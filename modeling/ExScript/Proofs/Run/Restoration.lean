import ExScript.Proofs.Run.Registered
import ExScript.Proofs.Script.DefiningLine
import ExScript.Run.Script

/-!
# Registries written out and restored

A session can save its user commands as a script, one line for each of them, and another session can
run these lines. There is nothing to check when this is done, and nothing is lost: each of the lines
is accepted, whatever is registered already, and puts back the user command that it was written for,
so that it does not matter in which order they are run, or whether only some of them are.

That all lines are accepted takes more than reading them back. A registry could hold user commands
that no line defines: with an arity that cannot be declared, with a name that starts with a small
letter, or with a replacement text of two lines. Those of a session that began without user commands
are not among them (`Registry.WellDefined`).

## Main definitions

* `Machine.runScripts` — runs scripts one after the other
* `Registry.insertAll` — registers user commands one after the other

## Main results

* `Machine.runScript_definingLine` — what the line of one user command does
* `registry_restored` — what the lines of some user commands do
-/

namespace ExScript

/-! ### Several user commands -/

/-- Registers user commands, each under its name; what the names stood for is forgotten. -/
def Registry.insertAll (registry : Registry) (entries : List (String × UserCommand)) : Registry :=
  entries.foldl (fun registry e => registry.insert e.1 e.2) registry

/-- Where entries agree on what a name stands for, it stands for that when they are registered, in
whatever order this is done. -/
theorem Registry.get?_insertAll {f : String → Option UserCommand}
    {entries : List (String × UserCommand)} (h : ∀ e ∈ entries, f e.1 = some e.2)
    (registry : Registry) (name : String) :
    (registry.insertAll entries).get? name =
      if name ∈ entries.map Prod.fst then f name else registry.get? name := by
  induction entries generalizing registry with
  | nil => rfl
  | cons e entries ih =>
    obtain ⟨he, hentries⟩ := List.forall_mem_cons.mp h
    have first : (registry.insert e.1 e.2).get? name =
        if name = e.1 then some e.2 else registry.get? name :=
      Table.get?_insert ..
    rw [insertAll, List.foldl_cons, ← insertAll, ih hentries, first, List.map_cons]
    by_cases hlater : name ∈ entries.map Prod.fst
    · rw [if_pos hlater, if_pos (List.mem_cons_of_mem _ hlater)]
    · by_cases hname : name = e.1
      · simp [hname, he]
      · simp [hlater, hname]

/-! ### Lines that are run -/

namespace Machine

/-- The machine with other user commands. -/
def withCommands (m : Machine) (commands : Registry) : Machine :=
  { m with session := { m.session with commands } }

/-- Runs scripts one after the other, and says how each of them ended. -/
def runScripts (m : Machine) : List String → List (Option (Except Error Unit)) × Machine
  | [] => ([], m)
  | text :: texts =>
    let (first, m) := m.runScript text
    let (rest, m) := m.runScripts texts
    (first :: rest, m)

/-- **The line of a user command puts it back**, and does nothing else. -/
theorem runScript_definingLine {name text : String} {arity : Arity}
    (h : Definition.WellFormed name arity text) (hsingle : '\n' ∉ text.toList) (m : Machine) :
    m.runScript ((UserCommand.ofScript name arity text).definingLine name) =
      (some (.ok ()), m.withCommands (m.session.commands.define name arity text)) := by
  rw [runScript, Script.parse_definingLine h hsingle]
  simp only [runStatements, Run.withBudget, Stmt.execAll, Stmt.exec, Run.ofSession, Command.run,
    h.parse_definingArgument, Command.runDefinition]
  rfl

/-- Lines of user commands that can be defined put all of them back. -/
theorem runScripts_definingLines {entries : List (String × UserCommand)}
    (h : ∀ e ∈ entries, ∃ arity text, e.2 = .ofScript e.1 arity text ∧
      Definition.WellFormed e.1 arity text ∧ '\n' ∉ text.toList) (m : Machine) :
    m.runScripts (entries.map fun e => e.2.definingLine e.1) =
      (List.replicate entries.length (some (.ok ())),
        m.withCommands (m.session.commands.insertAll entries)) := by
  induction entries generalizing m with
  | nil => rfl
  | cons e entries ih =>
    obtain ⟨he, hentries⟩ := List.forall_mem_cons.mp h
    obtain ⟨name, c⟩ := e
    obtain ⟨arity, text, hc, hname, hsingle⟩ := he
    obtain rfl : c = .ofScript name arity text := hc
    rw [List.map_cons, runScripts, runScript_definingLine hname hsingle]
    dsimp only
    rw [ih hentries]
    rfl

end Machine

/-- **A registry can be written out and restored.** Take a session on the way of any scripts from a
session without user commands, and write out some of its user commands, in any order. Whatever
session runs these lines, each of them succeeds, and nothing changes but the user commands of that
session: the names that were written out stand for what they stood for, and the other names for what
they stand for there. Where all user commands were written out and none was there before, the
registry is the same again. -/
theorem registry_restored {s : Session} {c : Config} {ds : List Deed} (h : Steps (.idle s) ds c)
    (hs : s.commands = .empty) {entries : List (String × UserCommand)}
    (hentries : entries ⊆ c.session.commands.table.entries) (m : Machine) :
    ∃ restored : Registry,
      m.runScripts (entries.map fun e => e.2.definingLine e.1) =
        (List.replicate entries.length (some (.ok ())), m.withCommands restored) ∧
      (∀ name, restored.get? name =
        if name ∈ entries.map Prod.fst then c.session.commands.get? name
        else m.session.commands.get? name) ∧
      (c.session.commands.table.entries ⊆ entries → m.session.commands = .empty →
        restored = c.session.commands) := by
  -- the lines are accepted because all that is registered was once accepted
  have hdefined : c.session.commands.WellDefined := by
    rw [h.session_eq]
    exact Session.wellDefined_after (hs ▸ Registry.WellDefined.empty) h.isWritten
  have hbound : ∀ e ∈ entries, c.session.commands.get? e.1 = some e.2 := by
    intro e he
    exact (Table.get?_eq_some_iff _ e.1 e.2).mpr (hentries he)
  have hrestored := Registry.get?_insertAll hbound m.session.commands
  refine ⟨m.session.commands.insertAll entries, ?_, hrestored, fun hall hempty => ?_⟩
  · exact Machine.runScripts_definingLines (fun e he => hdefined e.1 e.2 (hbound e he)) m
  · refine congrArg Registry.mk (Table.ext_get? fun name => ?_)
    refine (hrestored name).trans ?_
    by_cases hname : name ∈ entries.map Prod.fst
    · exact if_pos hname
    · rw [if_neg hname, hempty]
      cases hget : c.session.commands.table.get? name with
      | none => rfl
      | some u =>
        have hmem := hall ((Table.get?_eq_some_iff _ name u).mp hget)
        exact absurd (List.mem_map_of_mem hmem) hname

/-- Two user commands with bars, quotes, a backslash and a placeholder in them are written out and
restored, the last one first. -/
theorem registry_restored_twoCommands :
    ∃ m m' : Machine,
      Machine.runScript ⟨0, {}⟩
          "com -nargs=* Say echo \"a|b\" '<args>' \\| echo 'c\ncom Two|x let a = '|' | unlet a" =
        (some (.ok ()), m) ∧
      Machine.runScripts ⟨0, {}⟩
          ["command! -nargs=0 Two|x let a = '|' | unlet a",
            "command! -nargs=* Say echo \"a|b\" '<args>' \\| echo 'c"] =
        ([some (.ok ()), some (.ok ())], m') ∧
      m'.session.commands = m.session.commands := by
  let script := "com -nargs=* Say echo \"a|b\" '<args>' \\| echo 'c\ncom Two|x let a = '|' | unlet a"
  have hresult : (Machine.runScript ⟨0, {}⟩ script).1 = some (.ok ()) := by decide +kernel
  have hlines :
      (Machine.runScript ⟨0, {}⟩ script).2.session.commands.table.entries.reverse.map
          (fun e => e.2.definingLine e.1) =
        ["command! -nargs=0 Two|x let a = '|' | unlet a",
          "command! -nargs=* Say echo \"a|b\" '<args>' \\| echo 'c"] := by
    decide +kernel
  obtain ⟨⟨r, m⟩, hrun⟩ : ∃ r, Machine.runScript ⟨0, {}⟩ script = r := ⟨_, rfl⟩
  rw [hrun] at hresult hlines
  obtain rfl : r = some (.ok ()) := hresult
  obtain ⟨ds, hds⟩ := Machine.steps_of_runScript hrun
  have hsubset : m.session.commands.table.entries.reverse ⊆ m.session.commands.table.entries :=
    List.reverse_subset.mpr (List.Subset.refl _)
  have hlength : m.session.commands.table.entries.reverse.length = 2 := by
    simpa using congrArg List.length hlines
  obtain ⟨restored, hruns, -, hsame⟩ := registry_restored hds rfl hsubset ⟨0, {}⟩
  rw [hlines, hlength] at hruns
  exact ⟨m, _, hrun, hruns, hsame (List.subset_reverse.mpr (List.Subset.refl _)) rfl⟩

end ExScript
