import ExScript.Launch.Arguments

/-!
# Command lines

Which arguments the program understands, and what it takes from them. A command line is spelled out
of options and files (`Arguments.Spells`): an option with a value can be written in two ways,
options and files can be mixed, and behind two hyphens there are files only. The reader keeps what
it needs in a record and forgets in which order options of different kinds came, so it remains to be
said that nothing else gets lost: the commands are the values of all `-c`, in their order, and so
are the scripts of all `-S`.

`Spells` has nothing of the reader in it: no record that is filled, no letter that is looked at, no
list of files so far. The result is an equivalence between
the two. In one direction, the program takes nothing that was not asked for; in the other, nothing
that can be spelled out is refused, so that an error always means that the arguments cannot be
understood in any way. Which error it is, is not said here. When arguments are given up because
there is no letter to look at is said in `Proofs/Launch/OptionLetter.lean`.

What is lost with the order is the order between options of different kinds. All scripts are run
before all commands, wherever they were asked for, and the record does not tell.

## Main definitions

* `CommandLineOption` — an option with its value
* `Arguments.Spells` — how options and files are written
* `Arguments.ofOptions` — what the program takes from options and files

## Main results

* `Arguments.parse_eq_ok_iff` — which arguments are understood, and as what
-/

namespace ExScript

/-! ### Options

Three of the options have values and are written in the same ways, so they are one case with the
option as a parameter, here and in the rules of `Spells`. -/

/-- An option that has a value. -/
inductive ValuedOption where
  | command
  | script
  | init
  deriving DecidableEq

/-- The letter of an option. -/
def ValuedOption.letter : ValuedOption → Char
  | command => 'c'
  | script => 'S'
  | init => 'u'

/-- An option as it is written. -/
def ValuedOption.flag : ValuedOption → String
  | command => "-c"
  | script => "-S"
  | init => "-u"

/-- An option of a command line. -/
inductive CommandLineOption where
  | debug
  | valued (o : ValuedOption) (value : String)
  deriving DecidableEq

namespace CommandLineOption

/-- The value of an option, if it is this one. -/
def valueOf? (o : ValuedOption) : CommandLineOption → Option String
  | debug => none
  | valued o' value => if o' = o then some value else none

/-- The values of an option, in the order in which they are given. -/
def values (o : ValuedOption) (options : List CommandLineOption) : List String :=
  options.filterMap (valueOf? o)

@[simp] theorem values_nil (o : ValuedOption) : values o [] = [] := rfl

@[simp] theorem values_debug (o : ValuedOption) (options : List CommandLineOption) :
    values o (.debug :: options) = values o options := rfl

@[simp] theorem values_valued (o o' : ValuedOption) (value : String)
    (options : List CommandLineOption) :
    values o (.valued o' value :: options) =
      if o' = o then value :: values o options else values o options := by
  by_cases h : o' = o <;> simp [values, valueOf?, h]

end CommandLineOption

namespace Arguments

open CommandLineOption (values)

/-- Whether an argument is the name of a file: it does not start with a hyphen, or it is one. -/
def IsFileName (argument : String) : Prop :=
  argument.toList.head? ≠ some '-' ∨ argument = "-"

/-- `Spells argv options files`: the arguments are these options and these files, in this order. -/
inductive Spells : List String → List CommandLineOption → List String → Prop where
  | nil : Spells [] [] []
  | endOfOptions (files) : Spells ("--" :: files) [] files
  | file {argument argv options files} :
    IsFileName argument → Spells argv options files →
      Spells (argument :: argv) options (argument :: files)
  | debug {argv options files} :
    Spells argv options files → Spells ("-d" :: argv) (.debug :: options) files
  /-- The value is the next argument, whatever it looks like. -/
  | apart {o v argv options files} :
    Spells argv options files →
      Spells (ValuedOption.flag o :: v :: argv) (.valued o v :: options) files
  | glued {o v argv options files} :
    v ≠ "" → Spells argv options files →
      Spells ((ValuedOption.flag o ++ v) :: argv) (.valued o v :: options) files

/-- Which init file a `-u` asks for. -/
def initFor (value : String) : InitFile :=
  if value = "NONE" then .skip else .explicit value

/-- What the program takes from options and files. The last `-u` counts. -/
def ofOptions (options : List CommandLineOption) (files : List String) : Arguments where
  init := ((values .init options).getLast?.map initFor).getD .search
  commands := values .command options
  scripts := values .script options
  debug := decide (.debug ∈ options)
  file := files.head?

/-! ### Single arguments

What an argument is can be seen from the argument alone: each of the following says for one class of
arguments which they are. The value of an option may be empty if it is the next argument, but not if
it is glued, since then there would be nothing but the option. -/

theorem toList_flag (o : ValuedOption) : o.flag.toList = ['-', o.letter] := by
  cases o <;> rfl

/-- The letters that a value belongs to are those of the three options. -/
theorem takesValue_iff {letter : Char} :
    takesValue letter = true ↔ ∃ o : ValuedOption, o.letter = letter := by
  constructor
  · intro h
    simp only [takesValue, Bool.or_eq_true, beq_iff_eq] at h
    rcases h with (rfl | rfl) | rfl
    · exact ⟨.command, rfl⟩
    · exact ⟨.script, rfl⟩
    · exact ⟨.init, rfl⟩
  · rintro ⟨o, rfl⟩
    cases o <;> rfl

theorem classify_eq_file_iff {argument : String} :
    classify argument.toList = .file ↔ IsFileName argument := by
  have hyphen : argument = "-" ↔ argument.toList = ['-'] := String.toList_inj.symm
  rw [IsFileName, hyphen]
  constructor
  · intro h
    rw [classify.eq_def] at h
    split at h
    next heq => exact .inr heq
    · cases h
    · split at h <;> cases h
    next hone htwo hmore =>
      left
      intro hhead
      obtain ⟨rest, hrest⟩ := List.head?_eq_some_iff.mp hhead
      rcases rest with _ | ⟨letter, glued⟩
      · exact hone hrest
      · exact hmore letter glued hrest
  · rintro (hhead | heq)
    · rw [classify.eq_def]
      split <;> simp_all
    · rw [heq]
      rfl

theorem classify_eq_endOfOptions_iff {argument : String} :
    classify argument.toList = .endOfOptions ↔ argument = "--" := by
  constructor
  · intro h
    rw [classify.eq_def] at h
    split at h
    · cases h
    next heq => exact String.toList_inj.mp heq
    · split at h <;> cases h
    · cases h
  · rintro rfl
    rfl

/-- An option is a hyphen, its letter and what is glued to it; nothing is lost. -/
theorem classify_eq_option {argument : String} {letter : Char} {glued : List Char}
    (h : classify argument.toList = .option letter glued) :
    argument.toList = '-' :: letter :: glued := by
  rw [classify.eq_def] at h
  split at h
  · cases h
  · cases h
  next heq =>
    split at h
    · cases h
      exact heq
    · cases h
  · cases h

theorem classify_glued (o : ValuedOption) (value : String) :
    classify (o.flag ++ value).toList = .option o.letter value.toList := by
  rw [String.toList_append, toList_flag]
  cases o <;> rfl

theorem classify_flag (o : ValuedOption) : classify o.flag.toList = .option o.letter [] := by
  cases o <;> rfl

/-- An argument of which an option is the beginning. -/
theorem eq_flag_append {argument : String} {o : ValuedOption} {glued : List Char}
    (h : argument.toList = '-' :: o.letter :: glued) : argument = o.flag ++ String.ofList glued := by
  rw [← String.toList_inj, h, String.toList_append, toList_flag, String.toList_ofList]
  rfl

/-! ### Reading

`readAll` goes on with what was read before, which is a record and the files so far. What the
options do to the record can be said without it: they are added one after the other, and only the
last `-u` is left of all of them. -/

/-- What an option does to what was read before. -/
def add (args : Arguments) : CommandLineOption → Arguments
  | .debug => { args with debug := true }
  | .valued o value => (args.addValue o.letter value).getD args

/-- What a record becomes through options. With the empty record this is `ofOptions`. -/
theorem foldl_add (args : Arguments) (options : List CommandLineOption) :
    options.foldl add args =
      { args with
        init := ((values .init options).getLast?.map initFor).getD args.init
        commands := args.commands ++ values .command options
        scripts := args.scripts ++ values .script options
        debug := args.debug || decide (.debug ∈ options) } := by
  induction options generalizing args with
  | nil => simp
  | cons option options ih =>
    rw [List.foldl_cons, ih]
    rcases option with _ | ⟨_ | _ | _, value⟩ <;>
      simp [add, addValue, ValuedOption.letter, List.getLast?_cons]
    cases (values .init options).getLast? <;> rfl

/-- What is spelled out is read. By induction on how it is spelled out, with any record and any
files read before. -/
theorem Spells.readAll {argv : List String} {options : List CommandLineOption} {more : List String}
    (h : Spells argv options more) (args : Arguments) (files : List String) :
    readAll args files argv = .ok (options.foldl add args, files ++ more) := by
  induction h generalizing args files with
  | nil => rw [Arguments.readAll, List.foldl_nil, List.append_nil]
  | endOfOptions =>
    rw [Arguments.readAll, classify_eq_endOfOptions_iff.mpr rfl]
    rfl
  | file hname _ ih =>
    rw [Arguments.readAll, classify_eq_file_iff.mpr hname]
    simp only [ih, List.append_assoc, List.singleton_append]
  | debug _ ih =>
    have hd : classify "-d".toList = .option 'd' [] := rfl
    rw [Arguments.readAll, hd]
    exact ih _ _
  | @apart o value _ _ _ _ ih =>
    rw [Arguments.readAll, classify_flag]
    simp only [takesValue_iff.mpr ⟨o, rfl⟩, if_true]
    exact ih _ _
  | @glued o value _ _ _ hne _ ih =>
    rw [Arguments.readAll, classify_glued]
    simp only [takesValue_iff.mpr ⟨o, rfl⟩, if_true]
    cases hvalue : value.toList with
    | nil => exact absurd (String.toList_eq_nil_iff.mp hvalue) hne
    | cons c rest =>
      simp only [← hvalue, String.ofList_toList]
      exact ih _ _

/-- What is read is spelled out. By induction along the recursion of the reader; the cases in which
it refuses an argument have nothing to show. -/
theorem spells_of_readAll {argv : List String} {args args' : Arguments} {files files' : List String}
    (h : readAll args files argv = .ok (args', files')) :
    ∃ options more, Spells argv options more ∧ args' = options.foldl add args ∧
      files' = files ++ more := by
  fun_induction readAll args files argv with
  | case1 args files =>
    cases h
    exact ⟨[], [], .nil, rfl, (List.append_nil _).symm⟩
  | case2 args files argument rest hend =>
    cases h
    rw [classify_eq_endOfOptions_iff.mp hend]
    exact ⟨[], rest, .endOfOptions rest, rfl, rfl⟩
  | case3 args files argument rest hfile ih =>
    obtain ⟨options, more, hspells, rfl, rfl⟩ := ih h
    exact ⟨options, argument :: more, .file (classify_eq_file_iff.mp hfile) hspells, rfl,
      List.append_cons .. |>.symm⟩
  | case6 args files argument letter htakes value rest hoption ih =>
    obtain ⟨options, more, hspells, rfl, rfl⟩ := ih h
    obtain ⟨o, rfl⟩ := takesValue_iff.mp htakes
    have hargument := eq_flag_append (classify_eq_option hoption)
    rw [String.ofList_nil, String.append_empty] at hargument
    exact ⟨.valued o value :: options, more, hargument ▸ .apart hspells, rfl, rfl⟩
  | case7 args files argument letter htakes c glued rest hoption ih =>
    obtain ⟨options, more, hspells, rfl, rfl⟩ := ih h
    obtain ⟨o, rfl⟩ := takesValue_iff.mp htakes
    have hne : String.ofList (c :: glued) ≠ "" := by
      simp
    rw [eq_flag_append (classify_eq_option hoption)]
    exact ⟨.valued o (String.ofList (c :: glued)) :: options, more, .glued hne hspells, rfl, rfl⟩
  | case8 args files argument rest letter glued hoption htakes hdebug ih =>
    obtain ⟨options, more, hspells, rfl, rfl⟩ := ih h
    obtain ⟨rfl, rfl⟩ := hdebug
    have hargument : argument = "-d" := String.toList_inj.mp (classify_eq_option hoption)
    exact ⟨.debug :: options, more, hargument ▸ .debug hspells, rfl, rfl⟩
  | case4 | case5 | case9 => cases h

/-- **The arguments that are understood are those that spell out options and one file at most.** -/
theorem parse_eq_ok_iff {argv : List String} {args : Arguments} :
    parse argv = .ok args ↔
      ∃ options files, Spells argv options files ∧ files.length ≤ 1 ∧
        args = ofOptions options files := by
  have taken (options : List CommandLineOption) :
      options.foldl add {} = ofOptions options [] := by
    simp [foldl_add, ofOptions]
  constructor
  · intro h
    rw [parse] at h
    split at h
    · cases h
    next args' hread =>
      cases h
      obtain ⟨options, more, hspells, rfl, rfl⟩ := spells_of_readAll hread
      exact ⟨options, [], hspells, Nat.zero_le 1, taken options⟩
    next args' file hread =>
      cases h
      obtain ⟨options, more, hspells, rfl, rfl⟩ := spells_of_readAll hread
      exact ⟨options, [file], hspells, Nat.le_refl 1, by rw [taken]; rfl⟩
    · cases h
  · rintro ⟨options, files, hspells, hlength, rfl⟩
    rw [parse, hspells.readAll, taken, List.nil_append]
    match files, hlength with
    | [], _ => rfl
    | [file], _ => rfl

end Arguments

end ExScript
