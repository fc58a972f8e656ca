import ExScript.Launch.Settings
import ExScript.Run.Script

/-!
# The program

A run of the program from its arguments to its exit code. First everything it needs is read: the
buffer, the init file and the scripts; if anything of that cannot be read nothing is run. Then the
sources are run one after the other in one session, the commands of the command line last. A source
that fails does not stop the others; asking to quit does.

What is printed here is what is meant for the user: the messages on standard output and the errors
on standard error. The program also writes a log to standard error, and none of it is modelled: by
default a warning when the budget of expansions runs out and one when a signal to leave a loop
reaches the top, and much more with `-d` or `VEX_LOG`. The only thing that is said of the log is
which filter it has (`Settings.logFilter`).
-/

namespace ExScript

/-- What a run of the program leaves: its exit code, what it printed without the lines of its log,
and the files. -/
structure ProgramResult where
  code : Nat
  stdout : String := ""
  /-- The errors. Log lines, which go to standard error as well, are left out. -/
  stderr : String := ""
  files : FileTree

namespace Program

/-- The buffer that is edited. -/
def loadBuffer (tree : FileTree) (args : Arguments) : Except String Buffer :=
  match args.file with
  | none => .ok {}
  | some path =>
    match Buffer.ofFile tree path with
    | .ok buffer => .ok buffer
    | .error e => .error ("vex: " ++ path ++ ": " ++ e.message ++ "\n")

/-- The texts of some files. -/
def loadScripts (tree : FileTree) : List String → Except String (List String)
  | [] => .ok []
  | path :: rest =>
    match tree.read path with
    | .error e => .error ("vex: can't read " ++ path ++ ": " ++ e.message ++ "\n")
    | .ok text => (loadScripts tree rest).map fun texts => text :: texts

/-- The sources in the order in which they are run: the init file, the scripts, the commands. -/
def loadSources (tree : FileTree) (args : Arguments) (settings : Settings) :
    Except String (List String) :=
  (loadScripts tree (settings.initFile.toList ++ args.scripts)).map fun texts =>
    texts ++ args.commands

/-- Runs sources one after the other, until quitting was asked for. The flag says whether one of
them failed; it is missing if the fuel is used up. -/
def runSources (failed : Bool) : List String → Machine → Option Bool × Machine
  | [], m => (some failed, m)
  | source :: rest, m =>
    match m.runScript source with
    | (none, m) => (none, m)
    | (some result, m) =>
      let failed := failed || !result.isOk
      if m.session.quitRequested then (some failed, m) else runSources failed rest m

/-- The result for a session in which the sources were run. -/
def resultOf (failed : Bool) (s : Session) : ProgramResult where
  code := if failed then 1 else 0
  stdout := reportStream s.events
  stderr := errorStream s.events
  files := s.files

/-- Runs the program on files, if everything it needs can be read. -/
def start (args : Arguments) (settings : Settings) (tree : FileTree) :
    Except String (Machine × List String) :=
  match loadBuffer tree args with
  | .error e => .error e
  | .ok buffer =>
    (loadSources tree args settings).map fun sources =>
      (⟨0, { buffer, files := tree }⟩, sources)

/-- Runs the program with some fuel, output not going to a terminal and the log not being kept.
There is no exit code if the fuel is used up before the end. `platform` is the init file in the
configuration directory of the platform, if there is such a directory.

Arguments that are given up (`ArgumentError.brokenOption`) are not refused by the program: it
crashes on them, with an exit code and a text that are not its own. They are given the form of a
refusal here only so that there is a result. -/
def run (fuel : Nat) (argv : List String) (env : Environment) (tree : FileTree)
    (platform : Option String := none) : Option ProgramResult :=
  match Arguments.parse argv with
  | .error e =>
    let stderr := "vex: " ++ e.message ++ "\n" ++ Arguments.usage ++ "\n"
    some { code := 2, stderr, files := tree }
  | .ok args =>
    match start args (Settings.resolve args env platform tree) tree with
    | .error message => some { code := 1, stderr := message, files := tree }
    | .ok (m, sources) =>
      match runSources false sources { m with fuel } with
      | (none, _) => none
      | (some failed, m) => some (resultOf failed m.session)

end Program

end ExScript
