import ExScript.Proofs.Launch.CommandLine

/-!
# Command lines written out

What the program is asked to do can be written as arguments in many ways. Options of different kinds
can stand in any order, a value is glued to its option or comes as the next argument, `-d` can be
repeated, and the file stands anywhere between the options or behind two hyphens at the end. Each of
these ways is a `CommandLine`, and all of them are read back as what they were written for, whatever
the values look like.

Three things have to be observed. A glued value is not empty, since nothing would be glued then. A
file between options does not start with a hyphen, unless it is one. And the init file is none whose
path is `NONE`, because there is no way to ask for that one.

A command line says which values its options have, and not in which order options of different kinds
come. So what it is written for (`CommandLine.Writes`) is a matter of the values of each option
alone, and every way to mix the options is covered.

## Main definitions

* `CommandLine` — the ways to write arguments
* `CommandLine.Writes` — what a command line is written for

## Main results

* `CommandLine.spells` — the options and files of a command line are spelled out by its arguments
* `Arguments.parse_commandLine` — what is written is read back
-/

namespace ExScript

/-- A piece of a command line. The value of an option is the next argument or glued to the
option. -/
inductive CommandLinePiece where
  | debug
  | apart (o : ValuedOption) (value : String)
  | glued (o : ValuedOption) (value : String)
  | file (name : String)
  deriving DecidableEq

namespace CommandLinePiece

/-- A piece as arguments. -/
def spell : CommandLinePiece → List String
  | debug => ["-d"]
  | apart o value => [o.flag, value]
  | glued o value => [o.flag ++ value]
  | file name => [name]

/-- The option that a piece gives. -/
def option? : CommandLinePiece → Option CommandLineOption
  | debug => some .debug
  | apart o value => some (.valued o value)
  | glued o value => some (.valued o value)
  | file _ => none

/-- The file that a piece names. -/
def file? : CommandLinePiece → Option String
  | file name => some name
  | _ => none

/-- The piece that gives an option, with the value as the next argument. -/
def ofOption : CommandLineOption → CommandLinePiece
  | .debug => debug
  | .valued o value => apart o value

/-- Whether a piece is read as what it is meant to be. -/
def IsPlain : CommandLinePiece → Prop
  | glued _ value => value ≠ ""
  | file name => Arguments.IsFileName name
  | _ => True

end CommandLinePiece

/-- A way to write arguments: options and files in some order, and perhaps a file behind two
hyphens. -/
structure CommandLine where
  pieces : List CommandLinePiece
  last : Option String := none

namespace CommandLine

open CommandLineOption (values)

/-- A command line as arguments. -/
def toArguments (line : CommandLine) : List String :=
  line.pieces.flatMap CommandLinePiece.spell ++
    match line.last with
    | some name => ["--", name]
    | none => []

/-- The options of a command line. -/
def options (line : CommandLine) : List CommandLineOption :=
  line.pieces.filterMap CommandLinePiece.option?

/-- The files that a command line names. -/
def files (line : CommandLine) : List String :=
  line.pieces.filterMap CommandLinePiece.file? ++ line.last.toList

/-- The values that `-u` is given for an init file. -/
def initValues : InitFile → List String
  | .search => []
  | .skip => ["NONE"]
  | .explicit path => [path]

/-- Whether a command line is written for something: for each option its values are the right ones
and in the right order, and there is the one file or none. Nothing is said on how the options are
mixed. -/
structure Writes (line : CommandLine) (args : Arguments) : Prop where
  init : values .init line.options = initValues args.init
  commands : values .command line.options = args.commands
  scripts : values .script line.options = args.scripts
  debug : .debug ∈ line.options ↔ args.debug
  file : line.files = args.file.toList
  plain : ∀ piece ∈ line.pieces, piece.IsPlain

/-! ### Reading back -/

/-- A command line spells out its options and its files. -/
theorem spells {line : CommandLine} (h : ∀ piece ∈ line.pieces, piece.IsPlain) :
    Arguments.Spells line.toArguments line.options line.files := by
  obtain ⟨pieces, last⟩ := line
  simp only [toArguments, options, files]
  induction pieces with
  | nil =>
    cases last with
    | none => exact .nil
    | some name => exact .endOfOptions [name]
  | cons piece pieces ih =>
    obtain ⟨hpiece, hpieces⟩ := List.forall_mem_cons.mp h
    cases piece with
    | debug => exact .debug (ih hpieces)
    | apart o value => exact .apart (ih hpieces)
    | glued o value => exact .glued hpiece (ih hpieces)
    | file name => exact .file hpiece (ih hpieces)

/-- What is taken from the options and files of a command line is what it is written for. -/
theorem Writes.ofOptions_eq {line : CommandLine} {args : Arguments} (h : line.Writes args)
    (hinit : args.init ≠ .explicit "NONE") :
    Arguments.ofOptions line.options line.files = args := by
  have init : ((initValues args.init).getLast?.map Arguments.initFor).getD .search = args.init := by
    cases hargs : args.init with
    | search | skip => rfl
    | explicit path =>
      have other : path ≠ "NONE" := by
        rintro rfl
        exact hinit hargs
      simp [initValues, Arguments.initFor, other]
  have debug : decide (.debug ∈ line.options) = args.debug := by
    simp [h.debug]
  have file : line.files.head? = args.file := by
    rw [h.file]
    cases args.file <;> rfl
  rw [Arguments.ofOptions, h.init, init, h.commands, h.scripts, debug, file]

/-! ### A way to write anything -/

/-- The options that ask for something, in the order in which they are listed. -/
def optionsFor (args : Arguments) : List CommandLineOption :=
  (initValues args.init).map (.valued .init) ++ args.commands.map (.valued .command) ++
    args.scripts.map (.valued .script) ++ List.replicate args.debug.toNat .debug

/-- All options with their values as the next arguments, and the file behind two hyphens. -/
def ofArguments (args : Arguments) : CommandLine where
  pieces := (optionsFor args).map CommandLinePiece.ofOption
  last := args.file

theorem values_optionsFor (o : ValuedOption) (args : Arguments) :
    values o (optionsFor args) =
      match o with
      | .init => initValues args.init
      | .command => args.commands
      | .script => args.scripts := by
  have alike (o' : ValuedOption) (vs : List String) :
      (vs.map (.valued o')).filterMap (CommandLineOption.valueOf? o) =
        if o' = o then vs else [] := by
    by_cases h : o' = o <;>
      simp [List.filterMap_map, Function.comp_def, CommandLineOption.valueOf?, h]
  have debug : (List.replicate args.debug.toNat CommandLineOption.debug).filterMap
      (CommandLineOption.valueOf? o) = [] := by
    cases args.debug <;> rfl
  simp only [values, optionsFor, List.filterMap_append, alike, debug]
  cases o <;> simp

theorem writes_ofArguments (args : Arguments) : (ofArguments args).Writes args := by
  have options : (ofArguments args).options = optionsFor args := by
    have kept : (CommandLinePiece.option? ∘ CommandLinePiece.ofOption) = some := by
      funext option
      cases option <;> rfl
    rw [CommandLine.options, ofArguments, List.filterMap_map, kept, List.filterMap_some]
  have noFiles :
      (optionsFor args).filterMap (CommandLinePiece.file? ∘ CommandLinePiece.ofOption) = [] :=
    List.filterMap_eq_nil_iff.mpr fun option _ => by cases option <;> rfl
  constructor
  · rw [options, values_optionsFor]
  · rw [options, values_optionsFor]
  · rw [options, values_optionsFor]
  · rw [options]
    cases hdebug : args.debug <;> simp [optionsFor, hdebug]
  · rw [files, ofArguments, List.filterMap_map, noFiles, List.nil_append]
  · exact List.forall_mem_map.mpr fun option _ => by cases option <;> trivial

end CommandLine

/-- **What is written is read back.** Whatever the program is asked to do, there is a way to write
it, and each way to write it is understood, and as nothing else. -/
theorem Arguments.parse_commandLine (args : Arguments) (hinit : args.init ≠ .explicit "NONE") :
    (∃ line : CommandLine, line.Writes args) ∧
      ∀ line : CommandLine, line.Writes args → parse line.toArguments = .ok args := by
  refine ⟨⟨_, CommandLine.writes_ofArguments args⟩, fun line h => ?_⟩
  have few : line.files.length ≤ 1 := by
    rw [h.file]
    cases args.file <;> simp
  exact parse_eq_ok_iff.mpr
    ⟨line.options, line.files, CommandLine.spells h.plain, few, (h.ofOptions_eq hinit).symm⟩

/-- A command line whose values look like options or are empty. -/
def CommandLine.likeOptions : CommandLine where
  pieces := [.glued .command "-S", .file "-", .debug, .apart .init "", .apart .script "--", .debug,
    .apart .command ""]

/-- Values that look like options are values, and so is the empty one. -/
theorem Arguments.parse_commandLine_likeOptions :
    let args : Arguments :=
      { init := .explicit "", commands := ["-S", ""], scripts := ["--"], debug := true,
        file := some "-" }
    args.init ≠ .explicit "NONE" ∧ CommandLine.likeOptions.Writes args ∧
      parse ["-c-S", "-", "-d", "-u", "", "-S", "--", "-d", "-c", ""] = .ok args := by
  intro args
  have hinit : args.init ≠ .explicit "NONE" := by decide
  have writes : CommandLine.likeOptions.Writes args := by
    refine ⟨rfl, rfl, rfl, by decide, rfl, ?_⟩
    simp [CommandLine.likeOptions, CommandLinePiece.IsPlain, IsFileName]
  have spelled : CommandLine.likeOptions.toArguments =
      ["-c-S", "-", "-d", "-u", "", "-S", "--", "-d", "-c", ""] := by
    decide
  have read := (parse_commandLine args hinit).2 _ writes
  rw [spelled] at read
  exact ⟨hinit, writes, read⟩

end ExScript
