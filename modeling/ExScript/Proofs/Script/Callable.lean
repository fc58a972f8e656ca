import ExScript.Proofs.Script.Blocks
import ExScript.Proofs.Script.Definition

/-!
# Which user commands can be called

Two readers have to agree on what the name of a user command is. The one of `:command` takes a word,
all that stands in front of the next blank, and asks only how it begins. The one of statements takes
letters of ASCII and digits. So a definition can be accepted whose name is never read again as a
name: the statement ends in the middle of it, and what is left of the name becomes the argument of
another command, if there is one.

Here is said which definitions are usable: those whose names are made of letters of ASCII and of
digits. These are read as names, whatever plain argument stands behind them, and no others are, not
even without an argument.

## Main results

* `parse_name_argument` — a name with an argument behind it is read as the use of the name
* `isName_of_parse` — what is read as the use of a name is one
* `read_back_iff_isName` — which of the names that can be defined can be called
-/

namespace ExScript

/-! ### Trimmed arguments -/

namespace Text

/-- What stands in front of a trimmed text does not matter at its end. -/
theorem trimEnd_append_of_trim {text : List Char} (htrim : trim text = text) (hne : text ≠ [])
    (before : List Char) : trimEnd (before ++ text) = before ++ text := by
  have hend : trimEnd text = text := by
    have twice : trimEnd (trim text) = trim text := List.rdropWhile_idempotent isBlank _
    rwa [htrim] at twice
  refine List.rdropWhile_eq_self_iff.mpr fun happend => ?_
  rw [List.getLast_append_of_ne_nil happend hne]
  exact List.rdropWhile_eq_self_iff.mp hend hne

end Text

namespace Script

/-! ### Names with arguments -/

/-- A name with an argument behind it is one statement, in which nothing but a blank at the end can
get lost. -/
theorem IsName.statements_argument {name argument : List Char} (h : IsName name)
    (hplain : IsPlain argument) (hsingle : '\n' ∉ argument)
    (htrim : Text.trim argument = argument) :
    ∃ rest, statements (name ++ ' ' :: argument) = [name ++ rest] ∧
      (∀ c ∈ rest.head?, c.isAlphanum = false) ∧ Text.trim rest = argument := by
  have hnames := h.isAlphanum
  have plain : IsPlain (name ++ ' ' :: argument) := by
    intro c hc
    rcases List.mem_append.mp hc with hc | hc
    · exact isMark_of_isAlphanum (hnames c hc)
    · rcases List.mem_cons.mp hc with rfl | hc
      · decide
      · exact hplain c hc
  have single : '\n' ∉ name ++ ' ' :: argument := by
    intro hc
    rcases List.mem_append.mp hc with hc | hc
    · exact absurd (hnames '\n' hc) (by decide)
    · rcases List.mem_cons.mp hc with hc | hc
      · exact absurd hc (by decide)
      · exact hsingle hc
  have one : statements (name ++ ' ' :: argument) = [Text.trimEnd (name ++ ' ' :: argument)] := by
    obtain ⟨c, others, rfl, hc, -⟩ := id h
    exact statements_letter (isAlpha_of_isUpper hc) plain single
  by_cases hargument : argument = []
  · subst hargument
    have alone : Text.trimEnd (name ++ [' ']) = name := by
      have dropped : Text.trimEnd (name ++ [' ']) = Text.trimEnd name :=
        List.rdropWhile_concat_pos isBlank name ' ' (by decide)
      rw [dropped, Text.trimEnd_of_not_blank fun c hc => isBlank_of_isAlphanum (hnames c hc)]
    exact ⟨[], by rw [one, alone, List.append_nil], by rintro _ ⟨⟩, rfl⟩
  · have kept : Text.trimEnd (name ++ ' ' :: argument) = name ++ ' ' :: argument := by
      have behind := Text.trimEnd_append_of_trim htrim hargument (name ++ [' '])
      rwa [List.append_assoc, List.singleton_append] at behind
    refine ⟨' ' :: argument, by rw [one, kept], by rintro _ ⟨⟩; decide, ?_⟩
    rw [Text.trim, Text.trimStart, List.dropWhile_cons_of_pos (by decide)]
    exact htrim

/-- **A name with an argument behind it is read as the use of it**, with this argument. -/
theorem parse_name_argument {name argument : String} (h : IsName name.toList)
    (hplain : IsPlain argument.toList) (hsingle : '\n' ∉ argument.toList)
    (htrim : trimmed argument = argument) :
    parse (name ++ " " ++ argument) = .ok [.unknown {} name argument] := by
  have hargument : Text.trim argument.toList = argument.toList := by
    have hlist := congrArg String.toList htrim
    rwa [trimmed, String.toList_ofList] at hlist
  have hlist : (name ++ " " ++ argument).toList = name.toList ++ ' ' :: argument.toList := by
    simp [String.toList_append]
  obtain ⟨rest, hrow, hrest, htext⟩ := h.statements_argument hplain hsingle hargument
  rw [parse, hlist, hrow, ofStatements, Draft.steps, Draft.step, readLine_name_append h hrest, htext,
    String.ofList_toList]
  rfl

/-! ### What is read as a name -/

/-- The name of a command that is not known is made of letters of ASCII and of digits. -/
theorem HasParts.isAlphanum {statement name argument : List Char} {range : LineRange}
    (h : HasParts statement range name argument) : ∀ c ∈ name, c.isAlphanum := by
  intro c hc
  rw [← h.name] at hc
  have hchar := List.mem_takeWhile_imp hc
  rw [Keyword.isNameChar, Bool.or_eq_true, Bool.and_eq_true] at hchar
  rw [Char.isAlphanum, Bool.or_eq_true]
  exact hchar.imp_right And.right

theorem isName_of_isAlphanum {name : List Char} (huppercase : Keyword.startsUppercase name)
    (hchars : ∀ c ∈ name, c.isAlphanum) : IsName name := by
  cases name with
  | nil => cases huppercase
  | cons c rest =>
    obtain ⟨hc, hrest⟩ := List.forall_mem_cons.mp hchars
    have hascii : c.toNat < 0x80 := by
      have range := toNat_of_isAlphanum hc
      omega
    have hupper : c.isUpper := by
      rwa [Keyword.startsUppercase, isUppercase, if_pos hascii] at huppercase
    exact ⟨c, rest, rfl, hupper, hrest⟩

/-- What is read as the use of a user command has a name for its name. -/
theorem isName_of_parse {text name argument : String} {range : LineRange}
    (h : parse text = .ok [.unknown range name argument])
    (huppercase : Keyword.startsUppercase name.toList) : IsName name.toList := by
  have hmark : .plain (.unknown range name argument) ∈
      (Part.block [.unknown range name argument]).marks :=
    List.mem_cons_self
  obtain ⟨statement, -, hreads⟩ := (derives_of_ofStatements h).exists_reads hmark
  refine isName_of_isAlphanum huppercase ?_
  cases hreads with
  | unknown parts =>
    rw [String.toList_ofList]
    exact parts.isAlphanum

/-! ### Definitions -/

/-- **The definitions that can be used.** A name that `:command` accepts is read back as the use of
it, alone and with every plain argument behind it, exactly if it is made of letters of ASCII and of
digits. -/
theorem read_back_iff_isName {argument name text : String} {replace : Bool} {arity : Arity}
    (h : Definition.parse argument = .ok (.define replace name arity text)) :
    (∀ s : String, IsPlain s.toList → '\n' ∉ s.toList → trimmed s = s →
        parse name = .ok [.unknown {} name ""] ∧
          parse (name ++ " " ++ s) = .ok [.unknown {} name s]) ↔
      IsName name.toList := by
  constructor
  · intro hread
    have hempty : IsPlain "".toList := by
      rintro c ⟨⟩
    have halone := (hread "" hempty (by simp) rfl).1
    exact isName_of_parse halone (Definition.wellFormed_of_parse h).1.name_uppercase
  · intro hname s hplain hsingle htrim
    exact ⟨parse_name hname, parse_name_argument hname hplain hsingle htrim⟩

/-- A name with a digit in it is read back with an argument of two words. -/
theorem read_back_iff_isName_digit : parse "W2 a b" = .ok [.unknown {} "W2" "a b"] := by
  have hdefinition : Definition.parse "-nargs=* W2 write <args>" =
      .ok (.define false "W2" ⟨0, none⟩ "write <args>") := by
    decide +kernel
  have hname : IsName "W2".toList := ⟨'W', ['2'], rfl, by decide, List.all_eq_true.mp rfl⟩
  have hplain : IsPlain "a b".toList := by simp [IsPlain, isMark]
  exact ((read_back_iff_isName hdefinition).mpr hname "a b" hplain (by decide +kernel)
    (by decide +kernel)).2

/-- A name with an underscore can be defined and is not read back: it is another name with an
argument. -/
theorem underscore_not_read_back :
    Definition.parse "Foo_Bar echo 1" = .ok (.define false "Foo_Bar" ⟨0, some 0⟩ "echo 1") ∧
      parse "Foo_Bar" = .ok [.unknown {} "Foo" "_Bar"] := by
  refine ⟨by decide +kernel, ?_⟩
  have hname : IsName "Foo".toList := ⟨'F', ['o', 'o'], rfl, by decide, List.all_eq_true.mp rfl⟩
  have hend : ∀ c ∈ "_Bar".toList.head?, c.isAlphanum = false := by
    rintro _ ⟨⟩
    rfl
  have hrow : statements "Foo_Bar".toList = ["Foo".toList ++ "_Bar".toList] := by decide +kernel
  rw [parse, hrow, ofStatements, Draft.steps, Draft.step,
    readLine_name_append hname hend]
  rfl

end Script

end ExScript
