import ExScript.Proofs.Run.Scripted
import ExScript.Proofs.Run.Step
import ExScript.Proofs.Script.SingleLine

/-!
# All that is run was written in a text

The machine runs what was read from texts: the scripts that are put to it, the replacement texts of
user commands with the arguments put in, and the texts that handlers run. So what holds of the
statements of every text holds of each command that it ever runs, however far the command is from
the script it began with. Nothing but that is used of a text here, and no text is looked at twice:
what a configuration still holds are the marks of statements that have been read.

This is why nothing has to be asked of the commands of a session. A tree that was made up in some
other way could hold a `:command` with a line feed in its argument, but no tree that is run was made
up in some other way. What is proved is an invariant of the steps: the control and all that is left
behind it hold only statements that are written. A step that opens a script, a user command or the
text of a handler takes its statements from a text; every other one takes them from what was there.

One fact about texts is used at the end, that a statement has no line feed in it. Any other that
holds of the statements of every text could be put in its place.

## Main definitions

* `Stmt.IsWritten` — a statement that stands in some text
* `Deed.IsWritten` — a deed that runs such a statement, if any

## Main results

* `Steps.isWritten` — the deeds of a run are written
* `Deed.IsWritten.not_lineFeed` — the argument of a `:command` that is run holds no line feed
-/

namespace ExScript

open Script

/-- Whether a statement that holds no others stands in some text. -/
def Stmt.IsWritten (x : Stmt) : Prop :=
  ∃ text, ∃ statement ∈ statements text, Reads statement (.plain x)

/-- Whether all statements among some marks are written. -/
def AllWritten (marks : List Mark) : Prop :=
  ∀ x, .plain x ∈ marks → x.IsWritten

/-! ### Texts

Each statement of the tree of a text is read from one of the statements of the text
(`Derives.marks`), whatever blocks are around it. -/

namespace Script

theorem allWritten_of_parse {text : String} {body : List Stmt} (h : parse text = .ok body) :
    AllWritten (Stmt.marksOfAll body) := by
  intro x hx
  obtain ⟨statement, hmem, hreads⟩ := (derives_of_ofStatements h).exists_reads hx
  exact ⟨_, statement, hmem, hreads⟩

theorem allWritten_of_parseCommand? {text : String} {x : Stmt} (h : parseCommand? text = some x) :
    AllWritten x.marks := by
  rw [parseCommand?] at h
  split at h
  next s hparse =>
    cases h
    have hall := allWritten_of_parse hparse
    rwa [Stmt.marksOfAll, Stmt.marksOfAll, List.append_nil] at hall
  next hparse =>
    cases h
    exact allWritten_of_parse hparse
  next => cases h

end Script

/-! ### Configurations

A task or a sequel that has statements in it has them from a tree. A call has none, since it is only
a name and an argument so far: its statements come from the replacement text, which is read in the
step that opens it. The same goes for a handler. -/

/-- The marks of the statements that a task is made of. -/
def Task.marks : Task → List Mark
  | .stmt x => x.marks
  | .body xs => Stmt.marksOfAll xs
  | .each _ xs _ => Stmt.marksOfAll xs
  | .call _ _ => []
  | .handler _ => []

/-- The marks of the statements that a sequel is made of. -/
def Sequel.marks : Sequel → List Mark
  | .body _ xs => Stmt.marksOfAll xs
  | .passes _ _ xs => Stmt.marksOfAll xs
  | .each _ _ xs _ => Stmt.marksOfAll xs
  | .absorb => []
  | .handler _ _ => []

/-- The marks of the statements that a control is about to run. -/
def Control.marks : Control → List Mark
  | .run _ task => task.marks
  | _ => []

/-- Whether all that is left to be run is written. -/
def LeftIsWritten (control : Control) (sequels : List Sequel) : Prop :=
  AllWritten control.marks ∧ ∀ q ∈ sequels, AllWritten q.marks

/-- Whether a deed runs no statement but one that is written. -/
def Deed.IsWritten : Deed → Prop
  | .command c _ => (Stmt.simple c).IsWritten
  | .hook h _ => (Stmt.hook h).IsWritten
  | _ => True

section Marks

variable {x : Stmt} {xs : List Stmt}

attribute [local simp] AllWritten Stmt.marks Stmt.marksOfAll Stmt.marksOfBranches Stmt.marksOfElse

theorem allWritten_nil : AllWritten [] := by
  rintro _ ⟨⟩

theorem allWritten_marksOfAll_cons :
    AllWritten (Stmt.marksOfAll (x :: xs)) ↔ AllWritten x.marks ∧ AllWritten (Stmt.marksOfAll xs) := by
  simp [or_imp, forall_and]

theorem allWritten_whileLoop {c : Condition} :
    AllWritten (Stmt.whileLoop c xs).marks ↔ AllWritten (Stmt.marksOfAll xs) := by
  simp

theorem allWritten_forLoop {name : String} {e : Expression} :
    AllWritten (Stmt.forLoop name e xs).marks ↔ AllWritten (Stmt.marksOfAll xs) := by
  simp

theorem allWritten_choose_cons {c : Condition} {branches : List (Condition × List Stmt)}
    {otherwise : Option (List Stmt)} :
    AllWritten (Stmt.choose ((c, xs) :: branches) otherwise).marks ↔
      AllWritten (Stmt.marksOfAll xs) ∧ AllWritten (Stmt.choose branches otherwise).marks := by
  rcases branches with _ | ⟨⟨c', xs'⟩, branches⟩ <;>
    simp [or_imp, forall_and]

theorem allWritten_choose_else :
    AllWritten (Stmt.choose [] (some xs)).marks ↔ AllWritten (Stmt.marksOfAll xs) := by
  simp

theorem allWritten_simple {c : Command} :
    AllWritten (Stmt.simple c).marks ↔ (Stmt.simple c).IsWritten := by
  simp

theorem allWritten_hook {h : Hook Outcome} :
    AllWritten (Stmt.hook h).marks ↔ (Stmt.hook h).IsWritten := by
  simp

end Marks

namespace LeftIsWritten

variable {site : Site} {task : Task} {q : Sequel}

theorem ended (o : Outcome) : LeftIsWritten (.ended o) [] :=
  ⟨allWritten_nil, by rintro _ ⟨⟩⟩

theorem run (h : AllWritten task.marks) : LeftIsWritten (.run site task) [] :=
  ⟨h, by rintro _ ⟨⟩⟩

theorem runThen (h : AllWritten task.marks) (hq : AllWritten q.marks) :
    LeftIsWritten (.run site task) [q] :=
  ⟨h, by simpa using hq⟩

end LeftIsWritten

/-- A task that is written begins with a deed that is, and what it leaves is written too. -/
theorem Task.start_isWritten {site : Site} {s : Session} {task : Task} (h : AllWritten task.marks) :
    (task.start site s).deed.IsWritten ∧
      LeftIsWritten (task.start site s).next (task.start site s).sequels := by
  revert h
  fun_cases Task.start site s task with
  | case1 => exact fun h => ⟨allWritten_simple.mp h, .ended _⟩
  | case2 => exact fun h => ⟨allWritten_hook.mp h, .ended _⟩
  | case5 | case6 | case8 | case10 | case12 | case15 | case17 | case19 | case20 | case21 | case25 =>
    exact fun _ => ⟨trivial, .ended _⟩
  | case3 | case22 | case23 | case26 | case27 | case28 | case29 | case30 =>
    exact fun _ => ⟨trivial, .run allWritten_nil⟩
  | case4 => exact fun h => ⟨trivial, .run h⟩
  | case7 =>
    exact fun h => ⟨trivial, .runThen (allWritten_whileLoop.mp h) (allWritten_whileLoop.mp h)⟩
  | case9 => exact fun h => ⟨trivial, .run (allWritten_forLoop.mp h)⟩
  | case11 => exact fun h => ⟨trivial, .run (allWritten_choose_else.mp h)⟩
  | case13 => exact fun h => ⟨trivial, .run (allWritten_choose_cons.mp h).2⟩
  | case14 => exact fun h => ⟨trivial, .run (allWritten_choose_cons.mp h).1⟩
  | case16 =>
    intro h
    obtain ⟨hx, hxs⟩ := allWritten_marksOfAll_cons.mp h
    exact ⟨trivial, .runThen hx hxs⟩
  | case18 => exact fun h => ⟨trivial, .runThen h h⟩
  | case24 name argument hcall budget hb inside x he =>
    obtain ⟨text, hparse⟩ := Registry.parseCommand?_of_expansion he
    exact fun _ => ⟨trivial, .runThen (allWritten_of_parseCommand? hparse) allWritten_nil⟩
  | case31 text next x hparse =>
    exact fun _ => ⟨trivial, .runThen (allWritten_of_parseCommand? hparse) allWritten_nil⟩

/-- What is done behind the end of a task is written if the sequel is. -/
theorem Sequel.resume_isWritten {s : Session} {o : Outcome} {q : Sequel} (h : AllWritten q.marks) :
    (q.resume s o).deed.IsWritten ∧
      LeftIsWritten (q.resume s o).next (q.resume s o).sequels := by
  cases q with
  | body =>
    cases o with
    | finished => exact ⟨trivial, .run h⟩
    | leaveLoop | nextPass | failed => exact ⟨trivial, .ended _⟩
  | passes =>
    rw [Sequel.resume]
    split
    · exact ⟨trivial, .run (allWritten_whileLoop.mpr h)⟩
    · exact ⟨trivial, .ended _⟩
  | each =>
    rw [Sequel.resume]
    split
    · exact ⟨trivial, .run h⟩
    · exact ⟨trivial, .ended _⟩
  | absorb => exact ⟨trivial, .ended _⟩
  | handler => exact ⟨trivial, .run allWritten_nil⟩

/-- One step: what it runs is written, and so is what it leaves to be run. -/
theorem Step.isWritten {c c' : Config} {d : Deed} (h : Step c d c')
    (hc : LeftIsWritten c.control c.sequels) :
    d.IsWritten ∧ LeftIsWritten c'.control c'.sequels := by
  obtain ⟨hcontrol, hsequels⟩ := hc
  have turned {t : Turn} {sequels : List Sequel} (hd : t.deed.IsWritten)
      (ht : LeftIsWritten t.next t.sequels) (hs : ∀ q ∈ sequels, AllWritten q.marks) :
      t.deed.IsWritten ∧ LeftIsWritten t.next (t.sequels ++ sequels) :=
    ⟨hd, ht.1, fun q hq => (List.mem_append.mp hq).elim (ht.2 q) (hs q)⟩
  cases h with
  | move h =>
    cases h with
    | start =>
      obtain ⟨hd, ht⟩ := Task.start_isWritten hcontrol
      exact turned hd ht hsequels
    | resume =>
      obtain ⟨hq, hsequels⟩ := List.forall_mem_cons.mp hsequels
      obtain ⟨hd, ht⟩ := Sequel.resume_isWritten hq
      exact turned hd ht hsequels
  | read hparse => exact ⟨trivial, .run (allWritten_of_parse hparse)⟩
  | refuse | finish => exact ⟨trivial, allWritten_nil, by rintro _ ⟨⟩⟩

/-- **All that is run was written in a text.** -/
theorem Steps.isWritten {s : Session} {c : Config} {ds : List Deed} (h : Steps (.idle s) ds c) :
    ∀ d ∈ ds, d.IsWritten := by
  have idle : LeftIsWritten .idle [] := ⟨allWritten_nil, by rintro _ ⟨⟩⟩
  exact (h.invariant (fun hc hstep => hstep.isWritten hc) idle).1

/-! ### What is known of them

From a mark back to the text: the statement stands in a text, so it holds no line feed, and the
argument is a part of it. -/

/-- The argument of a `:command` that is run holds no line feed. -/
theorem Deed.IsWritten.not_lineFeed {argument : String} {scope : Scope}
    (h : (Deed.command (.defineCommand argument) scope).IsWritten) : '\n' ∉ argument.toList := by
  obtain ⟨text, statement, hmem, hreads⟩ := h
  exact fun hc => not_lineFeed_of_mem_statements hmem (hreads.argument_subset hc)

end ExScript
