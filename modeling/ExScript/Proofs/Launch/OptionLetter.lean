import ExScript.Proofs.Launch.WrittenLine

/-!
# The letter of an option

An option is taken apart by its bytes: its letter stands between the first and the second byte, and
the value that is glued to it behind the second. No cut may go through a character. The first one
never does, for a hyphen is a single byte. The second one does if the letter is longer than that,
and then there is neither something to do nor a message that says why not: reading is given up.

Whether it comes to that depends on what stands in front. The value of an option is not taken apart,
and neither is anything behind two hyphens. So reading has to get to the option with the long
letter, over pieces of a command line (`CommandLinePiece`).

The reader of this library looks at characters and at how many bytes a letter has. What decides in
the program is a position in a string, and whether it is between two characters. So the two are
compared here with core's own notion of a valid position (`String.Pos.Raw.IsValid`), and the main
result is stated with that and not with the test that the reader makes.

With `Arguments.parse_eq_ok_iff` this says what becomes of each list of arguments: it is understood,
given up, or refused, and the first two are known exactly, so the third is what is left.

## Main definitions

* `Arguments.ReadsTo` — reading gets to a rest of the arguments

## Main results

* `Arguments.classify_eq_broken_iff` — which arguments cannot be taken apart
* `Arguments.readAll_pieces` — reading goes on behind the pieces of a command line
* `Arguments.parse_broken_iff` — for which arguments reading is given up
-/

namespace ExScript

namespace Arguments

open String.Pos.Raw (IsValid)

/-! ### Cuts

The position behind `n` bytes is valid if some characters at the front of the text have `n` bytes
together. For a hyphen with a letter behind it the sums are one, and one and the size of the letter,
so two is among them exactly if that size is one: no character has none. -/

section Cuts

variable {letter : Char} {glued : List Char}

/-- The cut behind a hyphen goes through no character. -/
theorem isValid_one (text : List Char) : IsValid (String.ofList ('-' :: text)) ⟨1⟩ := by
  rw [String.Pos.Raw.isValid_ofList]
  exact ⟨1, rfl⟩

/-- The bytes of an option, part by part. -/
theorem utf8ByteSize_option :
    (String.ofList ('-' :: letter :: glued)).utf8ByteSize =
      1 + letter.utf8Size + (String.ofList glued).utf8ByteSize := by
  have hyphen : "-".utf8ByteSize = 1 := rfl
  simp [hyphen, Nat.add_assoc]

/-- The cut behind the letter goes through no character if and only if the letter is one byte. -/
theorem isValid_two_iff :
    IsValid (String.ofList ('-' :: letter :: glued)) ⟨2⟩ ↔ letter.utf8Size = 1 := by
  rw [String.Pos.Raw.isValid_ofList]
  constructor
  · rintro ⟨i, hi⟩
    have hletter := letter.utf8Size_pos
    match i with
    | 0 => cases hi
    | 1 => cases hi
    | i + 2 =>
      rw [List.take_succ_cons, List.take_succ_cons, utf8ByteSize_option] at hi
      have two : 2 = 1 + letter.utf8Size + (String.ofList (glued.take i)).utf8ByteSize := hi
      omega
  · intro hletter
    refine ⟨2, ?_⟩
    rw [List.take_succ_cons, List.take_succ_cons, utf8ByteSize_option, hletter]
    rfl

end Cuts

/-- An argument that is no file is a hyphen with something behind it. -/
theorem exists_of_not_isFileName {argument : String} (h : ¬IsFileName argument) :
    ∃ letter glued, argument = String.ofList ('-' :: letter :: glued) := by
  obtain ⟨hhead, hne⟩ := not_or.mp h
  obtain ⟨rest, hrest⟩ := List.head?_eq_some_iff.mp (Decidable.of_not_not hhead)
  cases rest with
  | nil => exact absurd (String.toList_inj.mp hrest) hne
  | cons letter glued =>
    refine ⟨letter, glued, ?_⟩
    rw [← hrest, String.ofList_toList]

/-- **The arguments that cannot be taken apart** are no files, and the cut behind their letter goes
through a character. -/
theorem classify_eq_broken_iff {argument : String} :
    classify argument.toList = .broken ↔ ¬IsFileName argument ∧ ¬IsValid argument ⟨2⟩ := by
  constructor
  · intro h
    have option : ¬IsFileName argument := fun hfile => by
      rw [classify_eq_file_iff.mpr hfile] at h
      cases h
    obtain ⟨letter, glued, rfl⟩ := exists_of_not_isFileName option
    refine ⟨option, fun hvalid => ?_⟩
    rw [String.toList_ofList, classify.eq_def] at h
    split at h
    · cases h
    · cases h
    next heq =>
      cases heq
      rw [if_pos (isValid_two_iff.mp hvalid)] at h
      cases h
    · cases h
  · rintro ⟨option, hcut⟩
    obtain ⟨letter, glued, rfl⟩ := exists_of_not_isFileName option
    rw [isValid_two_iff] at hcut
    rw [String.toList_ofList, classify, if_neg hcut]
    rintro rfl rfl
    exact hcut rfl

/-! ### Reading up to the cut

What stands in front of the option does not matter as long as it is made of whole pieces: an option
with its value, a flag, or a file. In one direction the reader goes over the pieces one by one; in
the other they are found along the recursion of the reader. -/

/-- Whether reading gets from some arguments to a rest of them: in front of it there are pieces of a
command line. -/
def ReadsTo (argv rest : List String) : Prop :=
  ∃ pieces : List CommandLinePiece, (∀ piece ∈ pieces, piece.IsPlain) ∧
    argv = pieces.flatMap CommandLinePiece.spell ++ rest

theorem ReadsTo.refl (argv : List String) : ReadsTo argv argv :=
  ⟨[], List.forall_mem_nil _, rfl⟩

theorem ReadsTo.cons {argv rest : List String} (h : ReadsTo argv rest) (piece : CommandLinePiece)
    (hpiece : piece.IsPlain) : ReadsTo (piece.spell ++ argv) rest := by
  obtain ⟨pieces, hpieces, rfl⟩ := h
  exact ⟨piece :: pieces, List.forall_mem_cons.mpr ⟨hpiece, hpieces⟩, by simp⟩

/-- **Reading goes on behind the pieces of a command line**, with what was read of them. -/
theorem readAll_pieces {pieces : List CommandLinePiece} (h : ∀ piece ∈ pieces, piece.IsPlain)
    (args : Arguments) (files : List String) (rest : List String) :
    readAll args files (pieces.flatMap CommandLinePiece.spell ++ rest) =
      readAll ((pieces.filterMap CommandLinePiece.option?).foldl add args)
        (files ++ pieces.filterMap CommandLinePiece.file?) rest := by
  induction pieces generalizing args files with
  | nil => simp
  | cons piece pieces ih =>
    obtain ⟨hpiece, hpieces⟩ := List.forall_mem_cons.mp h
    rw [List.flatMap_cons, List.append_assoc]
    cases piece with
    | debug =>
      have hd : classify "-d".toList = .option 'd' [] := rfl
      rw [CommandLinePiece.spell, List.singleton_append, readAll, hd]
      exact ih hpieces _ files
    | apart o value =>
      rw [CommandLinePiece.spell, List.cons_append, List.singleton_append, readAll, classify_flag]
      simp only [takesValue_iff.mpr ⟨o, rfl⟩, if_true]
      exact ih hpieces _ files
    | glued o value =>
      rw [CommandLinePiece.spell, List.singleton_append, readAll, classify_glued]
      simp only [takesValue_iff.mpr ⟨o, rfl⟩, if_true]
      cases hvalue : value.toList with
      | nil => exact absurd (String.toList_eq_nil_iff.mp hvalue) hpiece
      | cons c others =>
        simp only [← hvalue, String.ofList_toList]
        exact ih hpieces _ files
    | file name =>
      rw [CommandLinePiece.spell, List.singleton_append, readAll, classify_eq_file_iff.mpr hpiece]
      simp only [ih hpieces, List.append_assoc]
      rfl

/-- Where reading is given up, it got there. -/
theorem readsTo_of_readAll {argv : List String} {args : Arguments} {files : List String}
    {argument : String} (h : readAll args files argv = .error (.brokenOption argument)) :
    classify argument.toList = .broken ∧ ∃ rest, ReadsTo argv (argument :: rest) := by
  fun_induction readAll args files argv with
  | case3 args files name rest hfile ih =>
    obtain ⟨hbroken, others, hreads⟩ := ih h
    exact ⟨hbroken, others, hreads.cons (.file name) (classify_eq_file_iff.mp hfile)⟩
  | case4 args files broken rest hbroken =>
    cases h
    exact ⟨hbroken, rest, .refl _⟩
  | case6 args files option letter htakes value rest hoption ih =>
    obtain ⟨hbroken, others, hreads⟩ := ih h
    obtain ⟨o, rfl⟩ := takesValue_iff.mp htakes
    have hargument := eq_flag_append (classify_eq_option hoption)
    rw [String.ofList_nil, String.append_empty] at hargument
    exact ⟨hbroken, others, hargument ▸ hreads.cons (.apart o value) trivial⟩
  | case7 args files option letter htakes c glued rest hoption ih =>
    obtain ⟨hbroken, others, hreads⟩ := ih h
    obtain ⟨o, rfl⟩ := takesValue_iff.mp htakes
    have hne : String.ofList (c :: glued) ≠ "" := by
      simp
    rw [eq_flag_append (classify_eq_option hoption)]
    exact ⟨hbroken, others, hreads.cons (.glued o _) hne⟩
  | case8 args files option rest letter glued hoption htakes hdebug ih =>
    obtain ⟨hbroken, others, hreads⟩ := ih h
    obtain ⟨rfl, rfl⟩ := hdebug
    obtain rfl : option = "-d" := String.toList_inj.mp (classify_eq_option hoption)
    exact ⟨hbroken, others, hreads.cons .debug trivial⟩
  | case1 | case2 | case5 | case9 => cases h

/-! ### Giving up

The statement goes both ways for each argument, so it also says which one reading was given up at.
-/

/-- **Reading is given up** exactly if it gets to an option whose letter is cut through. All other
arguments are understood or refused. The cuts are within the bounds of the option, and the one in
front of the letter goes through no character. -/
theorem parse_broken_iff (argv : List String) :
    (∀ argument, parse argv = .error (.brokenOption argument) ↔
      (∃ rest, ReadsTo argv (argument :: rest)) ∧ ¬IsFileName argument ∧ ¬IsValid argument ⟨2⟩) ∧
      ∀ argument, ¬IsFileName argument → IsValid argument ⟨1⟩ ∧ 2 ≤ argument.utf8ByteSize := by
  refine ⟨fun argument => ⟨fun h => ?_, ?_⟩, fun argument option => ?_⟩
  · rw [parse] at h
    split at h
    next hread =>
      cases h
      obtain ⟨hbroken, hreads⟩ := readsTo_of_readAll hread
      exact ⟨hreads, classify_eq_broken_iff.mp hbroken⟩
    all_goals cases h
  · rintro ⟨⟨rest, pieces, hplain, rfl⟩, hbroken⟩
    rw [parse, readAll_pieces hplain, readAll, classify_eq_broken_iff.mpr hbroken]
  · obtain ⟨letter, glued, rfl⟩ := exists_of_not_isFileName option
    have hletter := letter.utf8Size_pos
    refine ⟨isValid_one (letter :: glued), ?_⟩
    rw [utf8ByteSize_option]
    omega

/-- The same argument is a value at first, and then an option. -/
theorem parse_broken_iff_behindValue :
    (∃ rest, ReadsTo ["-c", "-é", "-é", "a"] ("-é" :: rest)) ∧ ¬IsFileName "-é" ∧
      parse ["-c", "-é", "-é", "a"] = .error (.brokenOption "-é") ∧ IsValid "-é" ⟨1⟩ := by
  have reads : ReadsTo ["-c", "-é", "-é", "a"] ["-é", "a"] :=
    (ReadsTo.refl ["-é", "a"]).cons (.apart .command "-é") trivial
  have option : ¬IsFileName "-é" := by
    rw [← classify_eq_file_iff]
    decide
  have hcut : ¬IsValid (String.ofList ['-', 'é']) ⟨2⟩ := by
    rw [isValid_two_iff]
    decide
  obtain ⟨gives, cuts⟩ := parse_broken_iff ["-c", "-é", "-é", "a"]
  exact ⟨⟨_, reads⟩, option, (gives "-é").mpr ⟨⟨_, reads⟩, option, hcut⟩, (cuts "-é" option).1⟩

/-- There is an argument for which reading is given up: a hyphen and a letter of two bytes. -/
theorem longLetter_givesUp :
    parse ["-é"] = .error (.brokenOption "-é") ∧
      ¬∀ argv argument, parse argv ≠ .error (.brokenOption argument) := by
  have gives : parse ["-é"] = .error (.brokenOption "-é") := rfl
  exact ⟨gives, fun h => h ["-é"] "-é" gives⟩

end Arguments

end ExScript
