import ExScript.Proofs.Buffer.Reopening
import ExScript.Proofs.Run.Change
import ExScript.Proofs.Run.Course
import Mathlib.Data.List.Induction

/-!
# No line is lost without notice

A session can be left once quitting was asked for, and lines that were deleted from the buffer since
it was last written are then gone. That is refused unless `:quit!` insists on it: whenever anything
else asks to quit, the lines stand in a file, or they are the ones that were there at the beginning.

What is remembered in the buffer is a flag, and a path that the flag is about; neither says when or
where the lines were written. So the statement is about the deeds of a run. The flag is explained by
what they were (`Session.unmodified_after`), by induction on the row from its end, since the last
deed is the one that decides.

"Lost" is about lines, and not about the flag. A line is safe if it was there at the beginning and
none was taken away, or if the lines at the end are in a file and nothing was taken away after they
were written to it. That file need not be the one of the buffer: to write somewhere else keeps the
lines, but does not take the flag away. So the flag may be set though nothing is in danger, and
nothing is said against that.

The file is looked at when it was written. A later command of the session may write to it again, but
since no line was taken away in between, it writes the same lines.

## Main definitions

* `Session.KeepsLines` — no deed of a row takes lines away
* `Session.SavesTo` — in a row of deeds the lines were written to a path, and stay from then on

## Main results

* `Session.unmodified_after` — what it means that a buffer is not marked as modified
* `quit_loses_nothing` — quitting is asked for only if no line is lost
-/

namespace ExScript

/-! ### Deeds that remove and deeds that write

Each of these is about a deed in the session in which it is done. Lines can only be taken away, so a
deed that takes none away leaves the lines as they are. -/

namespace Deed

/-- Whether a deed takes lines away from the buffer. -/
def Removes (d : Deed) (s : Session) : Prop :=
  (d.apply s).buffer.lineCount < s.buffer.lineCount

/-- Whether a deed writes the buffer to a path. -/
def Writes (d : Deed) (s : Session) (path : String) : Prop :=
  ∃ c scope argument buffer files, d = .command c scope ∧ c.writeArgument? s = some argument ∧
    s.buffer.write s.files (Command.pathOf? argument) = .ok (path, buffer, files)

/-- Whether a deed is a `:quit!`. -/
def IsForcedQuit (d : Deed) : Prop :=
  ∃ c scope, d = .command c scope ∧ c.isForcedQuit

end Deed

/-! ### Single deeds

A deed is one of the ten cases of `Deed.change`, and for each question here most of them have the
same answer. -/

namespace Buffer

/-- To delete lines that are there makes their number smaller. -/
theorem lineCount_deleteLines_lt {b : Buffer} {first last : Nat}
    (h : b.countLines first last ≠ 0) : (b.deleteLines first last).lineCount < b.lineCount := by
  rw [deleteLines, if_neg h]
  simp only [countLines, lineCount] at h
  simp only [lineCount, List.length_append, List.length_take, List.length_drop]
  omega

end Buffer

namespace Deed

variable {d : Deed} {s : Session} {path : String}

/-- The lines are as they were, unless there are fewer. -/
theorem lines_eq (h : ¬d.Removes s) : (d.apply s).buffer.lines = s.buffer.lines := by
  have change := d.change s
  rw [Removes] at h
  generalize d.apply s = s' at change h
  cases change with
  | none hs => rw [hs.buffer]
  | @delete range scope first last hfirst =>
    by_cases hcount : s.buffer.countLines first last = 0
    · simp [Buffer.deleteLines, hcount]
    · exact absurd (Buffer.lineCount_deleteLines_lt hcount) h
  | write _ hwrite => rw [(Buffer.write_eq_ok hwrite).1]
  | leave | define | erase | clear | set | unset | bind => rfl

/-- A deed that writes leaves the lines in the buffer and in a file. -/
theorem Writes.spec (h : d.Writes s path) :
    ¬d.Removes s ∧ (d.apply s).files.read path = .ok s.buffer.text := by
  obtain ⟨c, scope, argument, buffer, files, rfl, hargument, hwrite⟩ := h
  obtain ⟨rfl, hread⟩ := Buffer.write_eq_ok hwrite
  simp only [Removes, apply, Command.run_of_writeArgument hargument, hwrite]
  exact ⟨Nat.lt_irrefl _, hread⟩

/-- The path of a buffer is never taken away. -/
theorem path_eq {own : String} (h : s.buffer.path = some own) :
    (d.apply s).buffer.path = some own := by
  have change := d.change s
  generalize d.apply s = s' at change
  cases change with
  | none hs => rw [hs.buffer, h]
  | delete =>
    simp only [Buffer.deleteLines]
    split <;> exact h
  | write _ hwrite => rw [(Buffer.write_eq_ok hwrite).1, h]; rfl
  | leave | define | erase | clear | set | unset | bind => exact h

/-- A deed takes away the mark that the buffer was modified only by writing it to its own path. -/
theorem unmodified (h : (d.apply s).buffer.modified = false) :
    ¬d.Removes s ∧
      (s.buffer.modified = false ∨
        ∃ path own, d.Writes s path ∧ (d.apply s).buffer.path = some own ∧ Path.same own path) := by
  have change := d.change s
  rw [Removes]
  generalize d.apply s = s' at change h
  cases change with
  | none hs => exact ⟨by simp [Buffer.lineCount, hs.buffer], .inl (hs.buffer ▸ h)⟩
  | @delete range scope first last hfirst =>
    by_cases hcount : s.buffer.countLines first last = 0
    · have hsame : s.buffer.deleteLines first last = s.buffer := by simp [Buffer.deleteLines, hcount]
      dsimp only at h ⊢
      rw [hsame] at h ⊢
      exact ⟨Nat.lt_irrefl _, .inl h⟩
    · simp [Buffer.deleteLines, hcount] at h
  | @write c scope argument path buffer files hargument hwrite =>
    obtain ⟨rfl, -⟩ := Buffer.write_eq_ok hwrite
    refine ⟨Nat.lt_irrefl _, ?_⟩
    rcases Bool.and_eq_false_iff.mp h with h | h
    · exact .inl h
    · exact .inr ⟨path, _, ⟨c, scope, argument, _, files, rfl, hargument, hwrite⟩, rfl, by simpa using h⟩
  | leave | define | erase | clear | set | unset | bind => exact ⟨Nat.lt_irrefl _, .inl h⟩

/-- Quitting is asked for by a `:quit!`, by a command that writes, or where nothing was modified. -/
theorem asks_to_quit (h : s.quitRequested = false) (h' : (d.apply s).quitRequested = true) :
    d.IsForcedQuit ∨ (∃ path, d.Writes s path) ∨ s.buffer.modified = false ∧ ¬d.Removes s := by
  have change := d.change s
  rw [Removes]
  generalize d.apply s = s' at change h'
  cases change with
  | none hs =>
    rw [hs.quitRequested, h] at h'
    cases h'
  | @write c scope argument path buffer files hargument hwrite =>
    exact .inr (.inl ⟨path, c, scope, argument, buffer, files, rfl, hargument, hwrite⟩)
  | @leave c scope hleave =>
    rcases hleave with hforced | hmodified
    · exact .inl ⟨c, scope, rfl, hforced⟩
    · exact .inr (.inr ⟨hmodified, Nat.lt_irrefl _⟩)
  | delete | define | erase | clear | set | unset | bind =>
    rw [h] at h'
    cases h'

end Deed

/-! ### Rows of deeds

Both notions are taken apart at the end of the row, where the induction goes. -/

namespace Session

/-- Whether no deed of a row takes lines away from the buffer. -/
def KeepsLines (s : Session) : List Deed → Prop
  | [] => True
  | d :: ds => ¬d.Removes s ∧ (d.apply s).KeepsLines ds

/-- Whether in a row of deeds the lines are written to a path, no deed behind that takes lines away,
and what is then in the file are the lines at the end of the row. -/
def SavesTo (s : Session) (deeds : List Deed) (path : String) : Prop :=
  ∃ before d behind, deeds = before ++ d :: behind ∧ d.Writes (s.after before) path ∧
    (s.after (before ++ [d])).KeepsLines behind ∧
    (s.after (before ++ [d])).files.read path = .ok (s.after deeds).buffer.text

variable {s : Session} {d : Deed} {ds : List Deed} {path : String}

theorem keepsLines_snoc :
    s.KeepsLines (ds ++ [d]) ↔ s.KeepsLines ds ∧ ¬d.Removes (s.after ds) := by
  induction ds generalizing s with
  | nil => simp [KeepsLines]
  | cons e ds ih => simp only [List.cons_append, KeepsLines, ih, after_cons, and_assoc]

/-- The lines are as they were at the beginning. -/
theorem KeepsLines.lines_eq (h : s.KeepsLines ds) :
    (s.after ds).buffer.lines = s.buffer.lines := by
  induction ds generalizing s with
  | nil => rfl
  | cons d ds ih =>
    obtain ⟨hd, hds⟩ := h
    rw [after_cons, ih hds, Deed.lines_eq hd]

/-- What was saved is safe as long as nothing is taken away. -/
theorem SavesTo.snoc (h : s.SavesTo ds path) (hd : ¬d.Removes (s.after ds)) :
    s.SavesTo (ds ++ [d]) path := by
  obtain ⟨before, e, behind, rfl, hwrites, hkeeps, hread⟩ := h
  have hlines : (s.after ((before ++ e :: behind) ++ [d])).buffer.lines =
      (s.after (before ++ e :: behind)).buffer.lines := by
    rw [after_append]
    exact Deed.lines_eq hd
  refine ⟨before, e, behind ++ [d], by simp, hwrites, keepsLines_snoc.mpr ⟨hkeeps, ?_⟩, ?_⟩
  · rwa [← after_append, List.append_assoc, List.singleton_append]
  · rw [hread, Buffer.text, Buffer.text, hlines]

/-- The last deed may be the one that writes. -/
theorem savesTo_of_writes (h : d.Writes (s.after ds) path) : s.SavesTo (ds ++ [d]) path := by
  obtain ⟨hkeeps, hread⟩ := h.spec
  refine ⟨ds, d, [], rfl, h, trivial, ?_⟩
  rw [after_append, after_cons, after_nil, hread, Buffer.text, Buffer.text, Deed.lines_eq hkeeps]

/-- **What it means that a buffer is not marked as modified**: no line was taken away since the
beginning, or none since the buffer was last written to its own path. -/
theorem unmodified_after (s : Session) (ds : List Deed)
    (h : (s.after ds).buffer.modified = false) :
    s.KeepsLines ds ∨
      ∃ path own, s.SavesTo ds path ∧ (s.after ds).buffer.path = some own ∧ Path.same own path := by
  induction ds using List.reverseRecOn with
  | nil => exact .inl trivial
  | append_singleton ds d ih =>
    rw [after_append, after_cons, after_nil] at h ⊢
    obtain ⟨hd, hbefore | ⟨path, own, hwrites, hown, hsame⟩⟩ := Deed.unmodified h
    · rcases ih hbefore with hkeeps | ⟨path, own, hsaves, hown, hsame⟩
      · exact .inl (keepsLines_snoc.mpr ⟨hkeeps, hd⟩)
      · exact .inr ⟨path, own, hsaves.snoc hd, Deed.path_eq hown, hsame⟩
    · exact .inr ⟨path, own, savesTo_of_writes hwrites, hown, hsame⟩

end Session

/-! ### Runs

A step that asks to quit does so by its deed. Where the buffer was not modified, the row in front of
the step says why. -/

/-- **No line is lost without notice.** Whatever scripts are run, in whatever session:

* a step that asks to quit is a `:quit!`, or no line was ever taken away, or the lines are in a file
  that they were written to after the last line was taken away;
* a buffer is not marked as modified only if no line was taken away since the beginning, or since it
  was written to its own path;
* a command that cannot write fails and does nothing, so it does not ask to quit. -/
theorem quit_loses_nothing {s : Session} {c : Config} {ds : List Deed}
    (h : Steps (.idle s) ds c) :
    (∀ d c', Step c d c' → c.session.quitRequested = false → c'.session.quitRequested = true →
      d.IsForcedQuit ∨
        (s.KeepsLines (ds ++ [d]) ∧ c'.session.buffer.lines = s.buffer.lines) ∨
        ∃ path, s.SavesTo (ds ++ [d]) path) ∧
    (c.session.buffer.modified = false →
      s.KeepsLines ds ∨
        ∃ path own, s.SavesTo ds path ∧ c.session.buffer.path = some own ∧ Path.same own path) ∧
    ∀ x scope c', Step c (.command x scope) c' → ∀ argument e,
      x.writeArgument? c.session = some argument →
      c.session.buffer.write c.session.files (Command.pathOf? argument) = .error e →
        c'.control = .ended (.failed e) ∧ c'.session = c.session := by
  have hsession : c.session = s.after ds := h.session_eq
  refine ⟨fun d c' hstep hbefore hquit => ?_, fun hmodified => ?_,
    fun x scope c' hstep argument e hargument hwrite => ?_⟩
  · have hnext : c'.session = s.after (ds ++ [d]) := (h.snoc hstep).session_eq
    rw [hstep.session_eq] at hquit
    rcases Deed.asks_to_quit hbefore hquit with hforced | ⟨path, hwrites⟩ | ⟨hmodified, hd⟩
    · exact .inl hforced
    · exact .inr (.inr ⟨path, Session.savesTo_of_writes (hsession ▸ hwrites)⟩)
    · rw [hsession] at hmodified hd
      rcases s.unmodified_after ds hmodified with hkeeps | ⟨path, own, hsaves, -⟩
      · have hall : s.KeepsLines (ds ++ [d]) := Session.keepsLines_snoc.mpr ⟨hkeeps, hd⟩
        exact .inr (.inl ⟨hall, hnext ▸ hall.lines_eq⟩)
      · exact .inr (.inr ⟨path, hsaves.snoc hd⟩)
  · rw [hsession] at hmodified ⊢
    exact s.unmodified_after ds hmodified
  · have hrun := Command.run_of_writeArgument hargument scope
    rw [hwrite] at hrun
    rw [hstep.control_of_command, hstep.session_eq]
    exact ⟨congrArg (fun r => Control.ended r.1) hrun, congrArg Prod.snd hrun⟩

/-- A session with two lines that belong to no file. -/
def twoLines : Session :=
  { buffer := { lines := ["a", "b"] } }

/-- A line is deleted, the other one written to a file, and `:xit` has nothing left to write. -/
theorem quit_loses_nothing_twoLines :
    ∃ ds path, twoLines.SavesTo ds path ∧ (twoLines.after ds).quitRequested = true ∧
      (twoLines.after ds).buffer.lines = ["b"] := by
  let saved : Machine := (Machine.runScript ⟨0, twoLines⟩ "1delete|write out").2
  have hresult : (Machine.runScript ⟨0, twoLines⟩ "1delete|write out").1 = some (.ok ()) := by
    decide +kernel
  have hrun : Machine.runScript ⟨0, twoLines⟩ "1delete|write out" = (some (.ok ()), saved) := by
    rw [← hresult]
  have hlines : saved.session.buffer.lines = ["b"] := by decide +kernel
  have hmodified : saved.session.buffer.modified = false := by decide +kernel
  have hstays : saved.session.quitRequested = false := by decide +kernel
  obtain ⟨ds, hds⟩ := Machine.steps_of_runScript hrun
  generalize saved.session = s at hds hlines hmodified hstays
  have hparse : Script.parse "xit" = .ok [.simple (.exit "")] := by
    have row : Script.statements "xit".toList = ["xit".toList] := by decide +kernel
    rw [Script.parse, row]
    rfl
  have hsteps : Steps (.idle twoLines) (ds ++ [.read "xit"] ++ [.nothing])
      ⟨.run .top (.stmt (.simple (.exit ""))), [.body .top []], s⟩ :=
    (hds.snoc (.read hparse)).snoc (.move .start)
  have hexit : Command.run .root s (.exit "") = (.finished, { s with quitRequested := true }) := by
    simp [Command.run, Command.attempt, Command.requestQuit, hmodified]
  have hstep : Step ⟨.run .top (.stmt (.simple (.exit ""))), [.body .top []], s⟩
      (.command (.exit "") .root)
      ⟨.ended .finished, [.body .top []], { s with quitRequested := true }⟩ := by
    have hmove : Move ⟨.run .top (.stmt (.simple (.exit ""))), [.body .top []], s⟩ _ _ := .start
    simp only [Config.turn, Task.start, Site.top, Deed.apply, hexit] at hmove
    exact .move hmove
  have hafter : { s with quitRequested := true } = twoLines.after _ :=
    (hsteps.snoc hstep).session_eq
  rcases (quit_loses_nothing hsteps).1 _ _ hstep hstays rfl with
    ⟨_, _, ⟨⟩, ⟨⟩⟩ | ⟨-, hsame⟩ | ⟨path, hsaves⟩
  · exact absurd (hlines.symm.trans hsame) (by decide)
  · exact ⟨_, path, hsaves, (congrArg Session.quitRequested hafter).symm,
      (congrArg (fun s => s.buffer.lines) hafter).symm.trans hlines⟩

end ExScript
