import ExScript.Files.Tree
import ExScript.Text.Blank

/-!
# Buffers

The text that is edited: its lines, the line of the cursor, the file it belongs to, and whether it
was changed since it was last written there. Lines are counted from one wherever a script can see
a number; the cursor of an empty buffer is on line one too.
-/

namespace ExScript

/-- The text that is edited. -/
structure Buffer where
  lines : List String := []
  /-- The line of the cursor, counted from zero. -/
  cursor : Nat := 0
  modified : Bool := false
  path : Option String := none
  deriving DecidableEq, Repr, Inhabited

namespace Buffer

/-- A buffer with the lines of a text, which belongs to no file. -/
def ofText (text : String) : Buffer :=
  { lines := linesOf text }

/-- The buffer for the file at a path. A file that is not there has no lines yet. -/
def ofFile (tree : FileTree) (path : String) : Except FileError Buffer :=
  match tree.read path with
  | .ok text => .ok { ofText text with path := some path }
  | .error .notFound => .ok { ofText "" with path := some path }
  | .error e => .error e

/-- The number of lines. -/
def lineCount (b : Buffer) : Nat :=
  b.lines.length

/-- The line of the cursor, counted from one. -/
def cursorLine (b : Buffer) : Nat :=
  b.cursor + 1

/-- How many of the lines from `first` to `last` there are. -/
def countLines (b : Buffer) (first last : Nat) : Nat :=
  min last b.lineCount - min (first - 1) b.lineCount

/-- The buffer without the lines from `first` to `last`, as far as they exist. The cursor goes to
the line behind them, or to the last line if there is none. -/
def deleteLines (b : Buffer) (first last : Nat) : Buffer :=
  if b.countLines first last = 0 then b
  else
    let start := first - 1
    let lines := b.lines.take start ++ b.lines.drop last
    { b with lines, modified := true, cursor := min start (lines.length - 1) }

/-- The text of the buffer as it is written to files: each line ends in a line feed. -/
def text (b : Buffer) : String :=
  String.join (b.lines.map (· ++ "\n"))

/-- Writes the buffer to a path, or to its own file if none is given. A buffer without a file
takes the one it is written to; it is unchanged from then on if it was written to its own
file. -/
def write (b : Buffer) (tree : FileTree) (path : Option String) :
    Except Error (String × Buffer × FileTree) :=
  match path.or b.path with
  | none => .error .noFileName
  | some target =>
    match tree.write target b.text with
    | .error e => .error (.file e)
    | .ok tree =>
      let own := b.path.getD target
      .ok (target, { b with path := some own, modified := b.modified && !Path.same own target },
        tree)

end Buffer

end ExScript
