import ExScript.Proofs.Buffer.Reopening
import ExScript.Proofs.LineRange.Resolution
import ExScript.Proofs.Run.Change
import ExScript.Proofs.Run.Course

/-!
# Deleting lines

A buffer deletes whatever lines of a span it has, and a range names lines without asking whether
they are there to be deleted. The two agree as long as the cursor is on a line of the buffer: then a
range that names lines names some that exist, and exactly these are deleted. That the cursor is on a
line is true of a text that was just opened and is kept by all that a script can do, since of all
deeds only deletions move the cursor.

That is why the statement is about every session that scripts can lead to, and not about every
session: with the cursor behind the end of the buffer a range could name lines that are not there,
and the deletion would take away fewer than it names, or none, and report nothing.

What a deletion does is said line by line (`Buffer.Without`) and not by the functions on lists that
do it. Line zero can be named but not deleted. In a buffer without lines a deletion does nothing, so
it is left out of the statement.

## Main definitions

* `Buffer.InBounds` — the cursor is on a line of the buffer
* `Buffer.Without` — a buffer is another one without a span of lines

## Main results

* `Steps.buffer_of_keeps` — what deletions keep of the lines and the cursor, whole runs keep
* `Steps.lines_sublist` — a run adds, changes and moves no lines
* `LineRange.resolve_bounds` — the lines that a range names are lines of the buffer
* `delete_exact` — a deletion fails and changes nothing, or takes away the lines that it names
-/

namespace ExScript

/-! ### Buffers

Behind a deletion the cursor is on the line that has moved up, or on the last one. -/

namespace Buffer

variable {b b' : Buffer} {first last : Nat}

/-- Whether the cursor is on a line of the buffer, or on line one if there are no lines. -/
def InBounds (b : Buffer) : Prop :=
  1 ≤ b.cursorLine ∧ b.cursorLine ≤ max 1 b.lineCount

theorem inBounds_ofText (text : String) (path : Option String) :
    InBounds { ofText text with path } :=
  ⟨Nat.le_refl 1, Nat.le_max_left 1 _⟩

theorem InBounds.deleteLines (h : b.InBounds) (first last : Nat) :
    (b.deleteLines first last).InBounds := by
  rw [Buffer.deleteLines]
  split
  · exact h
  · simp only [InBounds, cursorLine, lineCount]
    omega

theorem sublist_deleteLines (b : Buffer) (first last : Nat) :
    (b.deleteLines first last).lines.Sublist b.lines := by
  rw [deleteLines]
  split
  next => exact List.Sublist.refl _
  next hcount =>
    have horder : first - 1 ≤ last := by
      rw [countLines] at hcount
      omega
    have hkept := (List.drop_sublist_drop_left b.lines horder).append_left
      (b.lines.take (first - 1))
    rwa [List.take_append_drop] at hkept

/-- `b.Without first last b'`: the lines from `first` to `last` are missing in the second buffer,
where the cursor is on the line behind them or on the last one, and which is otherwise the same. -/
structure Without (b : Buffer) (first last : Nat) (b' : Buffer) : Prop where
  /-- Lines are counted from zero here, as they are in lists. -/
  lines : ∀ i, b'.lines[i]? =
    if i + 1 < first then b.lines[i]? else b.lines[i + (last - first + 1)]?
  lineCount : b'.lineCount + (last - first + 1) = b.lineCount
  cursorLine : b'.cursorLine = min first (max 1 b'.lineCount)
  modified : b'.modified = true
  path : b'.path = b.path

/-- Lines that are there are deleted. -/
theorem without_deleteLines (hfirst : 1 ≤ first) (horder : first ≤ last)
    (hlast : last ≤ b.lineCount) : b.Without first last (b.deleteLines first last) := by
  have hcount : b.countLines first last ≠ 0 := by
    rw [countLines]
    omega
  rw [lineCount] at hlast
  rw [deleteLines, if_neg hcount]
  have hlength : (b.lines.take (first - 1) ++ b.lines.drop last).length + (last - first + 1) =
      b.lines.length := by
    rw [List.length_append, List.length_take, List.length_drop]
    omega
  refine ⟨fun i => ?_, hlength, ?_, rfl, rfl⟩
  · have hfront : (b.lines.take (first - 1)).length = first - 1 :=
      List.length_take_of_le (by omega)
    rw [List.getElem?_append, hfront]
    split
    next hi => rw [List.getElem?_take_of_lt hi, if_pos (by omega)]
    next hi =>
      rw [List.getElem?_drop, if_neg (by omega)]
      congr 1
      omega
  · rw [cursorLine, lineCount]
    dsimp only
    omega

end Buffer

/-! ### Ranges

An address is refused if it names a line behind the last one, and a range without addresses names
the line of the cursor. So this is where the cursor has to be in bounds. -/

/-- If the cursor is on a line of the buffer, then so are the lines that a range names, but for line
zero. -/
theorem LineRange.resolve_bounds {range : LineRange} {b : Buffer} {first last : Nat}
    (hb : b.InBounds) (hlines : 1 ≤ b.lineCount) (h : range.resolve b = .ok (first, last)) :
    first ≤ last ∧ last ≤ b.lineCount := by
  rcases resolve_eq_ok h with ⟨-, rfl, rfl⟩ | ⟨_, a, -, -, ha, horder⟩
  · obtain ⟨-, hcursor⟩ := hb
    omega
  · obtain ⟨-, -, hlast⟩ := Address.resolve_eq_ok_iff.mp ha
    exact ⟨horder, hlast⟩

/-! ### Runs

One lemma for whatever is to be kept, from deletions to deeds and from there to runs; the cursor and
the lines are two uses of it. -/

section Runs

variable {p : Buffer → Prop}

/-- What deletions keep of the lines and the cursor of a buffer is kept by each deed: others do not
touch them. -/
theorem Deed.buffer_apply (hdelete : ∀ b first last, p b → p (b.deleteLines first last))
    (hsame : ∀ b b' : Buffer, b'.lines = b.lines → b'.cursor = b.cursor → p b → p b')
    {s : Session} (d : Deed) (h : p s.buffer) : p (d.apply s).buffer := by
  have change := d.change s
  generalize d.apply s = s' at change
  cases change with
  | none hs => rwa [hs.buffer]
  | delete => exact hdelete _ _ _ h
  | write _ hwrite =>
    obtain ⟨rfl, -⟩ := Buffer.write_eq_ok hwrite
    exact hsame s.buffer _ rfl rfl h
  | leave | define | erase | clear | set | unset | bind => exact h

variable {c c' : Config} {ds : List Deed}

/-- What deletions keep of the lines and the cursor of a buffer is kept by each run. -/
theorem Steps.buffer_of_keeps (h : Steps c ds c')
    (hdelete : ∀ b first last, p b → p (b.deleteLines first last))
    (hsame : ∀ b b' : Buffer, b'.lines = b.lines → b'.cursor = b.cursor → p b → p b')
    (hc : p c.session.buffer) : p c'.session.buffer := by
  rw [h.session_eq]
  refine Session.after_of_keeps (p := fun s => p s.buffer) (fun d _ s hs => ?_) hc
  exact d.buffer_apply hdelete hsame hs

/-- The cursor stays on a line of the buffer. -/
theorem Steps.inBounds (h : Steps c ds c') (hc : c.session.buffer.InBounds) :
    c'.session.buffer.InBounds := by
  refine h.buffer_of_keeps (fun b first last hb => hb.deleteLines first last) ?_ hc
  intro b b' hlines hcursor hb
  rwa [Buffer.InBounds, Buffer.cursorLine, Buffer.lineCount, hlines, hcursor]

/-- No lines are added, changed or moved. -/
theorem Steps.lines_sublist (h : Steps c ds c') :
    c'.session.buffer.lines.Sublist c.session.buffer.lines := by
  refine h.buffer_of_keeps (p := fun b => b.lines.Sublist c.session.buffer.lines) ?_ ?_
    (List.Sublist.refl _)
  · intro b first last hb
    exact (b.sublist_deleteLines first last).trans hb
  · intro b b' hlines _ hb
    rwa [hlines]

end Runs

/-! ### The command -/

/-- A deletion in a buffer with lines, in which the cursor is on one of them. -/
theorem Command.run_deleteLines {s : Session} (hs : s.buffer.InBounds)
    (hlines : 1 ≤ s.buffer.lineCount) (range : LineRange) (scope : Scope) :
    (∃ e, (Command.deleteLines range).run scope s = (.failed e, s) ∧
        ∀ first last, range.resolve s.buffer = .ok (first, last) → first = 0) ∨
      ∃ first last buffer, range.resolve s.buffer = .ok (first, last) ∧
        1 ≤ first ∧ first ≤ last ∧ last ≤ s.buffer.lineCount ∧
        s.buffer.Without first last buffer ∧
        (Command.deleteLines range).run scope s = (.finished, { s with buffer }) := by
  have hsome : s.buffer.lineCount ≠ 0 := by omega
  rw [run, runDeleteLines, if_neg hsome]
  cases hresolve : range.resolve s.buffer with
  | error e => exact .inl ⟨e, rfl, by rintro _ _ ⟨⟩⟩
  | ok lines =>
    obtain ⟨first, last⟩ := lines
    dsimp only
    by_cases hzero : first = 0
    · rw [if_pos hzero]
      refine .inl ⟨.invalidRange, rfl, ?_⟩
      rintro _ _ ⟨⟩
      exact hzero
    · rw [if_neg hzero]
      have hfirst : 1 ≤ first := by omega
      obtain ⟨horder, hlast⟩ := LineRange.resolve_bounds hs hlines hresolve
      exact .inr ⟨first, last, _, rfl, hfirst, horder, hlast,
        Buffer.without_deleteLines hfirst horder hlast, rfl⟩

/-- **A deletion takes away exactly the lines that it names.** Whatever scripts were run since a
text was opened, the cursor is on a line of the buffer, or on line one if there is none. And where
there are lines, a deletion either fails and changes nothing, which happens only if its range names
no lines or starts with line zero, or its range names lines of the buffer, and these are gone. -/
theorem delete_exact {text : String} {path : Option String} {s : Session} {ds : List Deed}
    {c : Config} (h : Steps (.idle (s.edit { Buffer.ofText text with path })) ds c) :
    (1 ≤ c.session.buffer.cursorLine ∧
        c.session.buffer.cursorLine ≤ max 1 c.session.buffer.lineCount) ∧
      ∀ range scope, 1 ≤ c.session.buffer.lineCount →
        (∃ e, (Command.deleteLines range).run scope c.session = (.failed e, c.session) ∧
            ∀ first last, range.resolve c.session.buffer = .ok (first, last) → first = 0) ∨
          ∃ first last buffer, range.resolve c.session.buffer = .ok (first, last) ∧
            1 ≤ first ∧ first ≤ last ∧ last ≤ c.session.buffer.lineCount ∧
            c.session.buffer.Without first last buffer ∧
            (Command.deleteLines range).run scope c.session =
              (.finished, { c.session with buffer }) := by
  have hbounds := h.inBounds (Buffer.inBounds_ofText text path)
  exact ⟨hbounds, fun range scope hlines => Command.run_deleteLines hbounds hlines range scope⟩

/-- The last of four lines is deleted, and then the line that the cursor has moved to and the one
above it. -/
theorem delete_exact_aboveCursor :
    ∃ m buffer,
      Machine.runScript ⟨0, Session.edit {} (.ofText "a\nb\nc\nd")⟩ "4d" = (some (.ok ()), m) ∧
        (Command.deleteLines (LineRange.parse "-,.".toList).1).run .root m.session =
          (.finished, { m.session with buffer }) ∧
        buffer.lines[0]? = some "a" ∧ buffer.lineCount = 1 ∧ buffer.cursorLine = 1 := by
  let start : Session := Session.edit {} (.ofText "a\nb\nc\nd")
  have hresult : (Machine.runScript ⟨0, start⟩ "4d").1 = some (.ok ()) := by decide +kernel
  have hbuffer : (Machine.runScript ⟨0, start⟩ "4d").2.session.buffer =
      { lines := ["a", "b", "c"], cursor := 2, modified := true } := by decide +kernel
  obtain ⟨⟨r, m⟩, hrun⟩ : ∃ r, Machine.runScript ⟨0, start⟩ "4d" = r := ⟨_, rfl⟩
  rw [hrun] at hresult hbuffer
  obtain rfl : r = some (.ok ()) := hresult
  have hthree : m.session.buffer.lineCount = 3 := congrArg Buffer.lineCount hbuffer
  have hresolve : (LineRange.parse "-,.".toList).1.resolve m.session.buffer = .ok (2, 3) := by
    rw [hbuffer]
    decide +kernel
  obtain ⟨ds, hds⟩ := Machine.steps_of_runScript hrun
  have hdelete := (@delete_exact "a\nb\nc\nd" none {} ds _ hds).2
    (LineRange.parse "-,.".toList).1 .root (hthree ▸ by decide)
  dsimp only [Config.idle] at hdelete
  rcases hdelete with ⟨e, -, hzero⟩ | ⟨first, last, buffer, hnamed, -, -, -, hwithout, hfinished⟩
  · cases hzero 2 3 hresolve
  · rw [hresolve] at hnamed
    cases hnamed
    have hone : buffer.lineCount = 1 := by
      have hcount := hwithout.lineCount
      omega
    have hcursor : buffer.cursorLine = 1 := by
      rw [hwithout.cursorLine, hone]
      rfl
    refine ⟨m, buffer, hrun, hfinished, ?_, hone, hcursor⟩
    rw [hwithout.lines, hbuffer]
    rfl

end ExScript
