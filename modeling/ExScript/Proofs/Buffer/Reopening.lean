import ExScript.Buffer
import ExScript.Proofs.Result
import ExScript.Proofs.Script.Plain
import ExScript.Proofs.Script.Seam

/-!
# Buffers and their files

A buffer is written to a file as its lines, each with a line feed behind it, and the lines of a file
are what stands between its line feeds. So a buffer that is written and opened again has as many
lines as before, none of which holds a line feed.

They are not always the same lines. A line break may also be a carriage return and a line feed, and
a carriage return that was the end of a line becomes a part of the line break when the line feed is
written behind it. Such lines come about: of two carriage returns in front of a line feed only the
second one belongs to the break, and one at the end of a text belongs to no break at all. What is
lost is one carriage return of each line that ends in one, and nothing else.

## Main definitions

* `Buffer.deleteAll` — a buffer after several deletions

## Main results

* `Text.lines_flatMap_lineFeed` — lines that were written out are read back
* `Buffer.write_eq_ok` — what a write leaves
* `Buffer.reopened_lines` — the lines of a buffer that was written and opened again
-/

namespace ExScript

/-! ### Lines -/

namespace Text

/-- Lines that are written out, each with a line feed behind it, are read back, up to a carriage
return at the end of each. -/
theorem lines_flatMap_lineFeed {written : List (List Char)} (h : ∀ line ∈ written, '\n' ∉ line) :
    lines (written.flatMap fun line => line ++ ['\n']) = written.map dropReturn := by
  induction written with
  | nil => simp
  | cons line written ih =>
    obtain ⟨hline, hwritten⟩ := List.forall_mem_cons.mp h
    rw [List.flatMap_cons, List.append_assoc, List.singleton_append, lines_append, ih hwritten,
      splitOnP_of_single hline]
    rfl

end Text

namespace Buffer

/-! ### Writing -/

/-- What a write that succeeds leaves: the lines, in the buffer and in a file, and the path of the
buffer. -/
theorem write_eq_ok {b b' : Buffer} {tree tree' : FileTree} {path? : Option String} {path : String}
    (h : b.write tree path? = .ok (path, b', tree')) :
    b' = { b with
      path := some (b.path.getD path)
      modified := b.modified && !Path.same (b.path.getD path) path } ∧
      tree'.read path = .ok b.text := by
  rw [write] at h
  split at h
  · cases h
  · split at h
    · cases h
    next hwrite =>
      cases h
      exact ⟨rfl, FileTree.read_write hwrite⟩

/-- A buffer is written to the path that is asked for. -/
theorem path_of_write {b b' : Buffer} {tree tree' : FileTree} {path target : String}
    (h : b.write tree (some path) = .ok (target, b', tree')) : target = path := by
  rw [write, Option.some_or] at h
  dsimp only at h
  split at h
  · cases h
  · cases h
    rfl

theorem toList_text (b : Buffer) :
    b.text.toList = (b.lines.map String.toList).flatMap fun line => line ++ ['\n'] := by
  simp [text, String.toList_join, List.flatMap_map]

/-! ### Lines of buffers -/

/-- A buffer after the lines of several spans were deleted, one span after the other. -/
def deleteAll (b : Buffer) (spans : List (Nat × Nat)) : Buffer :=
  spans.foldl (fun b span => b.deleteLines span.1 span.2) b

theorem lines_deleteLines_subset (b : Buffer) (first last : Nat) :
    (b.deleteLines first last).lines ⊆ b.lines := by
  rw [deleteLines]
  split
  · exact List.Subset.refl _
  · exact List.append_subset.mpr ⟨List.take_subset _ _, List.drop_subset _ _⟩

theorem lines_deleteAll_subset (b : Buffer) (spans : List (Nat × Nat)) :
    (b.deleteAll spans).lines ⊆ b.lines := by
  induction spans generalizing b with
  | nil => exact List.Subset.refl _
  | cons span spans ih => exact List.Subset.trans (ih _) (b.lines_deleteLines_subset span.1 span.2)

/-- No line of a text holds a line feed, and deleting lines does not make one that does. -/
theorem not_lineFeed_deleteAll (text : String) (spans : List (Nat × Nat)) :
    ∀ line ∈ ((ofText text).deleteAll spans).lines, '\n' ∉ line.toList := by
  intro line hline
  obtain ⟨chars, hchars, rfl⟩ := List.mem_map.mp (lines_deleteAll_subset _ spans hline)
  rw [String.toList_ofList]
  exact Text.not_lineFeed_of_mem_lines hchars

/-! ### Opening again -/

/-- A line without a carriage return at its end. -/
def withoutReturn (line : String) : String :=
  String.ofList (Text.dropReturn line.toList)

theorem withoutReturn_eq_self_iff {line : String} :
    withoutReturn line = line ↔ line.toList.getLast? ≠ some '\r' := by
  rw [← Text.dropReturn_eq_self_iff, ← String.toList_inj, withoutReturn, String.toList_ofList]

/-- The lines of a buffer that was written, as they are read from its text. -/
theorem linesOf_text {b : Buffer} (h : ∀ line ∈ b.lines, '\n' ∉ line.toList) :
    linesOf b.text = b.lines.map withoutReturn := by
  have chars : ∀ line ∈ b.lines.map String.toList, '\n' ∉ line := by
    intro line hline
    obtain ⟨s, hs, rfl⟩ := List.mem_map.mp hline
    exact h s hs
  rw [linesOf, toList_text, Text.lines_flatMap_lineFeed chars, List.map_map, List.map_map]
  rfl

/-- A file that a buffer was written to can be opened, and holds its lines up to carriage
returns. -/
theorem ofFile_of_write {b b' : Buffer} {tree tree' : FileTree} {path target : String}
    (hb : ∀ line ∈ b.lines, '\n' ∉ line.toList)
    (h : b.write tree (some path) = .ok (target, b', tree')) :
    b'.lines = b.lines ∧
      ∃ reopened, ofFile tree' path = .ok reopened ∧ reopened.lines = b.lines.map withoutReturn := by
  obtain rfl := path_of_write h
  obtain ⟨rfl, hread⟩ := write_eq_ok h
  refine ⟨rfl, { ofText b.text with path := some target }, ?_, linesOf_text hb⟩
  rw [ofFile, hread]

/-- **The lines of a buffer that is written and opened again.** The file can be opened, each line
has lost one carriage return from its end, and so the lines are the same exactly if none ends in
one. -/
theorem reopened_lines {text path target : String} {spans : List (Nat × Nat)} {b : Buffer}
    {tree tree' : FileTree}
    (h : ((ofText text).deleteAll spans).write tree (some path) = .ok (target, b, tree')) :
    ∃ reopened, ofFile tree' path = .ok reopened ∧
      reopened.lines = b.lines.map withoutReturn ∧
      (reopened.lines = b.lines ↔ ∀ line ∈ b.lines, line.toList.getLast? ≠ some '\r') := by
  obtain ⟨hlines, reopened, hopen, hreopened⟩ :=
    ofFile_of_write (not_lineFeed_deleteAll text spans) h
  rw [← hlines] at hreopened
  refine ⟨reopened, hopen, hreopened, ?_⟩
  have each : b.lines.map withoutReturn = b.lines.map id ↔
      ∀ line ∈ b.lines, withoutReturn line = line :=
    List.map_inj_left
  rw [List.map_id] at each
  rw [hreopened, each]
  simp only [withoutReturn_eq_self_iff]

/-- The second of three lines is deleted, and the others are written and opened again. -/
theorem reopened_lines_afterDeletion :
    ∃ target b tree reopened,
      ((ofText "a\nb\nc").deleteAll [(2, 2)]).write .empty (some "out") = .ok (target, b, tree) ∧
        ofFile tree "out" = .ok reopened ∧ b.lines = ["a", "c"] ∧ reopened.lines = ["a", "c"] := by
  have hsucceeds :
      (((ofText "a\nb\nc").deleteAll [(2, 2)]).write .empty (some "out")).isOk := by
    decide +kernel
  have hlines : ((ofText "a\nb\nc").deleteAll [(2, 2)]).lines = ["a", "c"] := by decide +kernel
  obtain ⟨⟨target, b, tree⟩, hwrite⟩ := exists_eq_ok_of_isOk hsucceeds
  have hb : b.lines = ["a", "c"] := by rw [(write_eq_ok hwrite).1, hlines]
  obtain ⟨reopened, hopen, -, hsame⟩ := reopened_lines hwrite
  refine ⟨target, b, tree, reopened, hwrite, hopen, hb, ?_⟩
  rw [hsame.mpr, hb]
  rw [hb]
  decide

/-- Of two carriage returns in front of a line feed the first one is a part of the line, and is lost
when the line is written and opened again. -/
theorem carriageReturn_lost :
    ∃ target b tree reopened,
      (ofText "a\r\r\nb").write .empty (some "out") = .ok (target, b, tree) ∧
        ofFile tree "out" = .ok reopened ∧ b.lines = ["a\r", "b"] ∧
        reopened.lines = ["a", "b"] := by
  have hsucceeds : ((ofText "a\r\r\nb").write .empty (some "out")).isOk := by decide +kernel
  have hlines : (ofText "a\r\r\nb").lines = ["a\r", "b"] := by decide +kernel
  obtain ⟨⟨target, b, tree⟩, hwrite⟩ := exists_eq_ok_of_isOk hsucceeds
  obtain ⟨hb, reopened, hopen, hreopened⟩ :=
    ofFile_of_write (b := ofText "a\r\r\nb") (not_lineFeed_deleteAll _ []) hwrite
  refine ⟨target, b, tree, reopened, hwrite, hopen, hb.trans hlines, ?_⟩
  rw [hreopened, hlines]
  decide

end Buffer

end ExScript
