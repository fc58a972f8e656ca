import ExScript.Launch.Program

/-!
# The command line

Runs the program on the files of the system. Before the run the files are taken into a
`FileTree`: the names below the working directory, and the contents of what the arguments and the
environment name, which is all that is ever read. The run itself is `Program.run`. Behind it the
files that it changed are written, and its output is shown.

A directory that is neither below nor above the working directory is known only if something in
it is named.
-/

namespace ExScript

/-- The tree with everything below a directory, files without their contents. Links to directories
are not followed. The last names come first, so that the table grows at its front. -/
partial def survey (tree : FileTree) (directory : String) : IO FileTree := do
  let here := (← IO.currentDir) / directory
  let entries ← try here.readDir catch _ => pure #[]
  let mut tree := tree
  for entry in entries.qsort fun a b => b.fileName < a.fileName do
    let path := Path.join directory entry.fileName
    if ← entry.path.isDir then
      unless (← entry.path.symlinkMetadata).type == .symlink do
        tree ← survey tree path
      tree := tree.addDirectory path
    else
      tree := tree.addFile path (.binary .empty)
  return tree

/-- The tree with the contents of the file at a path. If there is none the directory that it would
be in is noted. -/
def load (tree : FileTree) (path : String) : IO FileTree := do
  let place := (← IO.currentDir) / path
  if ← place.isDir then return tree.addDirectory path
  try
    return tree.addFile path (.ofBytes (← IO.FS.readBinFile place))
  catch _ =>
    let directory := place.parent.getD place
    if ← directory.isDir then return tree.addDirectory directory.toString else return tree

/-- The paths that the program may read for some arguments. -/
def readPaths (args : Arguments) (env : Environment) : List String :=
  let initFiles := match args.init with
    | .search => env.initFileCandidates env.platformInitFile?
    | .skip => []
    | .explicit path => [path]
  args.file.toList ++ initFiles ++ args.scripts

/-- The files that the program can see. -/
def snapshot (argv : List String) (env : Environment) : IO FileTree := do
  match Arguments.parse argv with
  | .error _ => return .empty
  | .ok args =>
    let start := (Path.pieces (← IO.currentDir).toString).map String.ofList
    let tree : FileTree := { FileTree.empty with start }
    (readPaths args env).foldlM load ((← survey tree "").addDirectory ".")

/-- The environment of the program, as far as it is asked for. -/
def environment : IO Environment := do
  let values ← Environment.names.mapM fun name => return (name, ← IO.getEnv name)
  return fun name => (values.lookup name).join

/-- Runs the program with more and more fuel until it ends. -/
partial def runToEnd (fuel : Nat) (argv : List String) (env : Environment) (tree : FileTree) :
    IO ProgramResult := do
  match Program.run fuel argv env tree env.platformInitFile? with
  | some result => return result
  | none => runToEnd (2 * fuel) argv env tree

/-- Runs the program on the files of the system; the exit code is that of the run. -/
def runOnSystem (argv : List String) : IO UInt32 := do
  let env ← environment
  let before ← snapshot argv env
  let result ← runToEnd 0x10_0000 argv env before
  for (place, text) in result.files.changesSince before do
    IO.FS.writeFile ("/" ++ place) text
  IO.print result.stdout
  IO.eprint result.stderr
  return UInt32.ofNat result.code

end ExScript

/-- The program. -/
def main (argv : List String) : IO UInt32 :=
  ExScript.runOnSystem argv
