import ExScript.Files.Tree
import ExScript.Launch.Arguments

/-!
# Settings

What the program takes from its arguments, its environment and the files that are there: the init
file, how much it logs, and whether it uses colours.

The init file is looked for in the place that `VEXINIT` names, in the home directory, and in the
configuration directory of the platform, in this order.

Where the last of these is, is for a library to say, and it may look beyond the environment: without
`HOME` it asks the password database. So the place is a parameter of everything that depends on it.
`Environment.platformInitFile?` is what the library finds in the environment alone, and is used only
where the program is run on the files of the system.
-/

namespace ExScript

/-- The values of environment variables. -/
abbrev Environment := String → Option String

namespace Environment

/-- The variables that settings are taken from. -/
def names : List String :=
  ["VEXINIT", "HOME", "XDG_CONFIG_HOME", "VEX_LOG", "NO_COLOR"]

/-- The value of a variable, if it has one that is not empty. -/
def nonempty? (env : Environment) (name : String) : Option String :=
  (env name).filter fun value => !value.isEmpty

/-- The init file in the configuration directory of the platform, as far as the environment tells
where that is. A configuration directory that the environment names has to be an absolute path.
There is no answer here if `HOME` is not set or empty; the password database, which would have one,
is not modelled. -/
def platformInitFile? (env : Environment) : Option String :=
  let directory := match (env.nonempty? "XDG_CONFIG_HOME").filter Path.isAbsolute with
    | some directory => some directory
    | none => (env.nonempty? "HOME").map fun home => Path.join home ".config"
  directory.map fun directory => Path.join (Path.join directory "vex") "vexrc"

/-- The places where an init file is looked for, in this order; the one of the platform comes
last. -/
def initFileCandidates (env : Environment) (platform : Option String) : List String :=
  (env.nonempty? "VEXINIT").toList ++
    ((env.nonempty? "HOME").map fun home => Path.join home ".vexrc").toList ++ platform.toList

end Environment

/-- What the program takes from its surroundings. -/
structure Settings where
  initFile : Option String
  logFilter : String
  color : Bool
  deriving DecidableEq, Repr

namespace Settings

/-- The settings for some arguments, an environment, the init file of the platform, and the files
that are there. An init file that was asked for is taken whether it is there or not. -/
def resolve (args : Arguments) (env : Environment) (platform : Option String) (tree : FileTree) :
    Settings where
  initFile := match args.init with
    | .skip => none
    | .explicit path => some path
    | .search => (env.initFileCandidates platform).find? tree.isFile
  logFilter :=
    if args.debug then "vex=debug"
    else ((env "VEX_LOG").filter fun filter => !(trimmed filter).isEmpty).getD "warn"
  color := (env "NO_COLOR").isNone

end Settings

end ExScript
