import ExScript.Error
import ExScript.Files.Path
import ExScript.Table

/-!
# File trees

The files and directories that a program can see, as a value: reading looks into it, writing gives
a new one. Absolute paths start at the root of the tree, which is always there, and relative ones
in the working directory. Whatever stands in a path before its last part has to be a directory, and
the first part that is not decides the error.

## Main results

* `FileTree.read_write` — what was written is read back
-/

namespace ExScript

/-- What a file holds: text, or bytes that are no text. -/
inductive Contents where
  | text (s : String)
  | binary (bytes : ByteArray)

namespace Contents

/-- The contents that bytes make up. -/
def ofBytes (bytes : ByteArray) : Contents :=
  match String.fromUTF8? bytes with
  | some s => text s
  | none => binary bytes

end Contents

/-- What a path can lead to. -/
inductive FileTree.Entry where
  | file (contents : Contents)
  | directory

/-- A place in a file tree: the names on the way to it from the root. -/
abbrev FileTree.Place := List String

/-- The files and directories there are, by their places. -/
structure FileTree where
  entries : Table FileTree.Entry
  /-- The working directory. -/
  start : FileTree.Place := []
  deriving Inhabited

namespace FileTree

/-- The tree without files, whose root is the working directory. -/
def empty : FileTree := { entries := ∅ }

/-- The name of a place in the table of entries. -/
def Place.key (place : Place) : String :=
  "/".intercalate place

/-- What is at a place, if anything. -/
def find? (tree : FileTree) (place : Place) : Option Entry :=
  if place.isEmpty then some .directory else tree.entries.get? (Place.key place)

/-- The tree with something at a place. -/
def put (tree : FileTree) (place : Place) (entry : Entry) : FileTree :=
  { tree with entries := tree.entries.insert (Place.key place) entry }

/-- Where a path starts. -/
def origin (tree : FileTree) (path : String) : Place :=
  if Path.isAbsolute path then [] else tree.start

/-- The number of bytes that the name of a file may have. -/
def maxName : Nat := 255

/-- The number of bytes below which a path has to stay. -/
def pathLimit : Nat := 4096

/-! ### Following paths -/

/-- One step into a directory. The directory above the root is the root. -/
def enter (tree : FileTree) (here : Place) (piece : List Char) : Except FileError Place :=
  if piece = ['.'] then .ok here
  else if piece = ['.', '.'] then .ok here.dropLast
  else
    let name := String.ofList piece
    if name.utf8ByteSize > maxName then .error .nameTooLong
    else
      match tree.find? (here ++ [name]) with
      | some .directory => .ok (here ++ [name])
      | some (.file _) => .error .notADirectory
      | none => .error .notFound

/-- The directory at the end of a way. -/
def walk (tree : FileTree) (here : Place) (pieces : List (List Char)) : Except FileError Place :=
  pieces.foldlM (tree.enter ·) here

/-- Where a path leads: to a directory that its last part can only be, or to a name in a
directory. -/
inductive Target where
  | directory
  | name (parent : Place) (name : String)

/-- Follows a path up to its last part. -/
def target (tree : FileTree) (path : String) : Except FileError Target :=
  if path.toList.contains '\x00' then .error .nulInName
  else if path.isEmpty then .error .notFound
  else if path.utf8ByteSize ≥ pathLimit then .error .nameTooLong
  else
    let pieces := Path.pieces path
    match pieces.getLast? with
    | none => .ok .directory
    | some last =>
      match tree.walk (tree.origin path) pieces.dropLast with
      | .error e => .error e
      | .ok here =>
        if last = ['.'] ∨ last = ['.', '.'] then .ok .directory
        else .ok (.name here (String.ofList last))

/-! ### Reading and writing -/

/-- The contents of the file that a path leads to. -/
def readFile (tree : FileTree) (path : String) : Except FileError Contents :=
  match tree.target path with
  | .error e => .error e
  | .ok .directory => .error .isADirectory
  | .ok (.name parent name) =>
    if name.utf8ByteSize > maxName then .error .nameTooLong
    else
      match tree.find? (parent ++ [name]) with
      | none => .error .notFound
      | some .directory => .error .isADirectory
      | some (.file contents) =>
        if Path.namesDirectory path then .error .notADirectory else .ok contents

/-- The text of the file that a path leads to. -/
def read (tree : FileTree) (path : String) : Except FileError String :=
  match tree.readFile path with
  | .error e => .error e
  | .ok (.binary _) => .error .notText
  | .ok (.text s) => .ok s

/-- Whether a path leads to a file. -/
def isFile (tree : FileTree) (path : String) : Bool :=
  (tree.readFile path).isOk

/-- Writes text to the file that a path leads to, which is made if it is not there. -/
def write (tree : FileTree) (path text : String) : Except FileError FileTree :=
  match tree.target path with
  | .error e => .error e
  | .ok .directory => .error .isADirectory
  | .ok (.name parent name) =>
    if Path.namesDirectory path then .error .isADirectory
    else if name.utf8ByteSize > maxName then .error .nameTooLong
    else
      match tree.find? (parent ++ [name]) with
      | some .directory => .error .isADirectory
      | _ => .ok (tree.put (parent ++ [name]) (.file (.text text)))

/-! ### Reading back -/

theorem find?_append_singleton (tree : FileTree) (here : Place) (name : String) :
    tree.find? (here ++ [name]) = tree.entries.get? (Place.key (here ++ [name])) := by
  simp [find?]

theorem find?_put (tree : FileTree) (place : Place) (entry : Entry) (here : Place)
    (name : String) :
    (tree.put place entry).find? (here ++ [name]) =
      if Place.key (here ++ [name]) = Place.key place then some entry
      else tree.find? (here ++ [name]) := by
  simp [find?_append_singleton, put, Table.get?_insert]

/-- A file put where no directory is leaves every way passable. -/
theorem enter_put {tree : FileTree} {place : Place} (contents : Contents)
    (hplace : tree.entries.get? (Place.key place) ≠ some .directory)
    {here there : Place} {piece : List Char} (h : tree.enter here piece = .ok there) :
    (tree.put place (.file contents)).enter here piece = .ok there := by
  unfold enter at h ⊢
  split at h
  · next hdot => rwa [if_pos hdot]
  next hdot =>
  rw [if_neg hdot]
  split at h
  · next hdots => rwa [if_pos hdots]
  next hdots =>
  rw [if_neg hdots]
  dsimp only at h ⊢
  split at h
  · cases h
  next hlen =>
  rw [if_neg hlen]
  split at h
  · next hdir =>
    have hne : ¬Place.key (here ++ [String.ofList piece]) = Place.key place := by
      intro he
      rw [find?_append_singleton, he] at hdir
      exact hplace hdir
    simp only [find?_put, if_neg hne, hdir]
    exact h
  · cases h
  · cases h

theorem walk_put {tree : FileTree} {place : Place} (contents : Contents)
    (hplace : tree.entries.get? (Place.key place) ≠ some .directory) {here there : Place}
    {pieces : List (List Char)} (h : tree.walk here pieces = .ok there) :
    (tree.put place (.file contents)).walk here pieces = .ok there := by
  induction pieces generalizing here with
  | nil => exact h
  | cons piece rest ih =>
    simp only [walk, List.foldlM_cons] at h ⊢
    cases he : tree.enter here piece with
    | error e => rw [he] at h; cases h
    | ok next =>
      rw [he] at h
      rw [enter_put contents hplace he]
      exact ih h

theorem target_put {tree : FileTree} {place : Place} (contents : Contents)
    (hplace : tree.entries.get? (Place.key place) ≠ some .directory) {path : String} {t : Target}
    (h : tree.target path = .ok t) : (tree.put place (.file contents)).target path = .ok t := by
  unfold target at h ⊢
  split at h
  · cases h
  next hnul =>
  rw [if_neg hnul]
  split at h
  · cases h
  next hempty =>
  rw [if_neg hempty]
  split at h
  · cases h
  next hlimit =>
  rw [if_neg hlimit]
  dsimp only at h ⊢
  split at h
  · exact h
  next last hlast =>
  split at h
  · cases h
  next here hwalk =>
  have horigin : (tree.put place (.file contents)).origin path = tree.origin path := rfl
  rw [horigin, walk_put contents hplace hwalk]
  exact h

/-- What was written to a path is what is read from it. -/
theorem read_write {tree tree' : FileTree} {path text : String}
    (h : tree.write path text = .ok tree') : tree'.read path = .ok text := by
  unfold write at h
  split at h
  · cases h
  · cases h
  next parent name htarget =>
  split at h
  · cases h
  next hslash =>
  split at h
  · cases h
  next hlen =>
  split at h
  · cases h
  next hdir =>
  cases h
  have htarget' := target_put (.text text)
    (fun hk => hdir (by rwa [find?_append_singleton])) htarget
  simp [read, readFile, htarget', hlen, hslash, find?_put]

/-! ### Making a tree -/

/-- The place that a path means if nothing on the way leads elsewhere. -/
def locate (tree : FileTree) (path : String) : Place :=
  (Path.pieces path).foldl
    (fun here piece =>
      if piece = ['.'] then here
      else if piece = ['.', '.'] then here.dropLast
      else here ++ [String.ofList piece])
    (tree.origin path)

/-- The tree with directories on the whole way to a place. -/
def putDirectories (tree : FileTree) (place : Place) : FileTree :=
  (List.range place.length).foldl (fun tree n => tree.put (place.take (n + 1)) .directory) tree

/-- The tree with a directory at a path, and the directories on the way to it. -/
def addDirectory (tree : FileTree) (path : String) : FileTree :=
  tree.putDirectories (tree.locate path)

/-- The tree with a file at a path, and the directories on the way to it. -/
def addFile (tree : FileTree) (path : String) (contents : Contents) : FileTree :=
  let place := tree.locate path
  (tree.putDirectories place.dropLast).put place (.file contents)

/-- The files of a tree, by their places. -/
def files (tree : FileTree) : List (String × Contents) :=
  tree.entries.entries.filterMap fun e =>
    match e.2 with
    | .file contents => some (e.1, contents)
    | .directory => none

/-- The files that hold another text than in the tree `before`, by their places, with that
text. -/
def changesSince (tree before : FileTree) : List (String × String) :=
  tree.files.filterMap fun f =>
    match f.2, before.entries.get? f.1 with
    | .binary _, _ => none
    | .text s, some (.file (.text t)) => if s = t then none else some (f.1, s)
    | .text s, _ => some (f.1, s)

end FileTree

end ExScript
