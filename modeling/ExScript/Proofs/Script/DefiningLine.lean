import ExScript.Proofs.Script.Callable
import ExScript.Proofs.Script.Seam

/-!
# Definitions written out

A user command can be written out as the line that defines it: its arity as it is shown in listings,
its name, and its replacement text as it is. Here that line is read back.

The replacement text is written without quotes and without a backslash in front of anything, and it
is a script: it may hold bars, quotes, backslashes and colons, and a name may hold them too. What
keeps them from being read as part of the line is that `:command` takes all of its line, whatever is
in it. So the line is one statement, and its argument is what was written. The argument in turn can
be taken apart because the name is a word and neither end of the text is a blank, which is a part of
what `Definition.WellFormed` says.

So `WellFormed` is what it takes, and in addition that the text holds no line feed, which would end
the line. With less there would be definitions that are written out as something else: a text with a
blank at its end would lose it, a name with a blank in it would lose its end to the text. None of
them can be registered, and that is said elsewhere (`Proofs/Run/Registered.lean`).

The line replaces a definition of the same name, so it can be run in a session that has one.

## Main definitions

* `UserCommand.definingLine` — the line that defines a user command

## Main results

* `statements_of_takesLine` — a line that takes all of itself is one statement
* `Definition.WellFormed.parse_definingArgument` — the argument is read back as the definition
* `Script.parse_definingLine` — the line is read as one `:command`
-/

namespace ExScript

/-! ### What is written

There is one space between any two parts. The arity is always written, also when it is the one that
a definition without a declaration has. -/

/-- The argument of the `:command` that defines a user command anew under a name. -/
def UserCommand.definingArgument (name : String) (c : UserCommand) : String :=
  "! -nargs=" ++ c.arity.notated ++ " " ++ name ++ " " ++ c.definition

/-- The line that defines a user command anew under a name, whatever the name stood for. -/
def UserCommand.definingLine (name : String) (c : UserCommand) : String :=
  "command" ++ c.definingArgument name

/-! ### The argument

From its front to its end: the `!`, the word with the arity, the name, and the text for the rest. At
each point the first word is split off and what is behind it is trimmed, and trimming does nothing,
because no part begins with a blank and the text does not end in one. -/

namespace Definition

/-- An arity is read back from the way it is written in definitions. -/
theorem readArity_notated {arity : Arity} (h : arity ∈ Arity.declarable) :
    readArity ("-nargs=".toList ++ arity.notated.toList) = .ok arity := by
  simp only [Arity.declarable, List.mem_cons, List.not_mem_nil, or_false] at h
  rcases h with rfl | rfl | rfl | rfl | rfl <;> rfl

/-- A declaration is one word. -/
theorem not_blank_notated {arity : Arity} (h : arity ∈ Arity.declarable) :
    ∀ c ∈ "-nargs=".toList ++ arity.notated.toList, isBlank c = false := by
  have check : ("-nargs=".toList ++ arity.notated.toList).all fun c => !isBlank c := by
    simp only [Arity.declarable, List.mem_cons, List.not_mem_nil, or_false] at h
    rcases h with rfl | rfl | rfl | rfl | rfl <;> rfl
  intro c hc
  simpa using List.all_eq_true.mp check c hc

/-- A word is split off what is behind it, and that is trimmed. -/
theorem splitWord_of_ends {word behind : List Char} (hne : word ≠ [])
    (hword : ∀ c ∈ word, isBlank c = false) (hends : behind = [] ∨ Text.startsBlank behind) :
    splitWord (word ++ behind) = (word, Text.trim behind) := by
  have start : Text.trimStart (word ++ behind) = word ++ behind := by
    obtain ⟨c, others, rfl⟩ := List.exists_cons_of_ne_nil hne
    exact Text.trimStart_cons (hword c List.mem_cons_self) _
  have split : Text.word (word ++ behind) = (word, behind) := by
    rcases hends with rfl | hblank
    · have all : ∀ c ∈ word, (!isBlank c) = true := fun c hc => by simp [hword c hc]
      rw [List.append_nil, Text.word, List.takeWhile_eq_self_iff.mpr all,
        List.dropWhile_eq_nil_iff.mpr all]
    · exact Script.word_append_of_blank hword hblank
  rw [splitWord, start, split]

/-- The same with a space behind the word, if nothing else has to be trimmed. -/
theorem splitWord_append {word rest : List Char} (hne : word ≠ [])
    (hword : ∀ c ∈ word, isBlank c = false) (hrest : Text.trim rest = rest) :
    splitWord (word ++ ' ' :: rest) = (word, rest) := by
  have behind : Text.trim (' ' :: rest) = rest := by
    rw [Text.trim, Text.trimStart, List.dropWhile_cons_of_pos (by decide)]
    exact hrest
  have blank : Text.startsBlank (' ' :: rest) := show isBlank ' ' by decide
  rw [splitWord_of_ends hne hword (.inr blank), behind]

theorem toList_definingArgument (name text : String) (arity : Arity) :
    ((UserCommand.ofScript name arity text).definingArgument name).toList =
      '!' :: ' ' :: (("-nargs=".toList ++ arity.notated.toList) ++
        ' ' :: (name.toList ++ ' ' :: text.toList)) := by
  simp [UserCommand.definingArgument, UserCommand.ofScript, UserCommand.definition]

namespace WellFormed

variable {name text : String} {arity : Arity}

theorem toList_name_ne_nil (h : WellFormed name arity text) : name.toList ≠ [] :=
  fun hnil => h.name_nonempty (String.toList_eq_nil_iff.mp hnil)

theorem toList_text_ne_nil (h : WellFormed name arity text) : text.toList ≠ [] :=
  fun hnil => h.text_nonempty (String.toList_eq_nil_iff.mp hnil)

theorem trim_text (h : WellFormed name arity text) : Text.trim text.toList = text.toList := by
  have hlist := congrArg String.toList h.text_trimmed
  rwa [trimmed, String.toList_ofList] at hlist

/-- A text that ends as the replacement text does is trimmed if no blank is in front of it. -/
theorem trim_append_text (h : WellFormed name arity text) {c : Char} (hc : isBlank c = false)
    (before : List Char) : Text.trim (c :: before ++ text.toList) = c :: before ++ text.toList := by
  have behind := Text.trimEnd_append_of_trim h.trim_text h.toList_text_ne_nil
  rw [Text.trim, List.cons_append, Text.trimStart_cons hc, ← List.cons_append, behind]

/-- Behind the declaration there is nothing to trim, -/
theorem trim_name_text (h : WellFormed name arity text) :
    Text.trim (name.toList ++ ' ' :: text.toList) = name.toList ++ ' ' :: text.toList := by
  obtain ⟨c, others, hcons⟩ := List.exists_cons_of_ne_nil h.toList_name_ne_nil
  have hends := h.trim_append_text (h.name_word c (hcons ▸ List.mem_cons_self)) (others ++ [' '])
  rw [hcons]
  simpa using hends

/-- nor is there around the whole argument. -/
theorem trim_definingArgument (h : WellFormed name arity text) :
    Text.trim ((UserCommand.ofScript name arity text).definingArgument name).toList =
      ((UserCommand.ofScript name arity text).definingArgument name).toList := by
  have hends := h.trim_append_text (c := '!') (by decide)
    (' ' :: (("-nargs=".toList ++ arity.notated.toList) ++ ' ' :: (name.toList ++ [' '])))
  rw [toList_definingArgument]
  simpa using hends

/-- There is a line feed in the argument only if there is one in the replacement text. -/
theorem not_lineFeed_definingArgument (h : WellFormed name arity text)
    (hsingle : '\n' ∉ text.toList) :
    '\n' ∉ ((UserCommand.ofScript name arity text).definingArgument name).toList := by
  have hdeclaration : '\n' ∉ "-nargs=".toList ++ arity.notated.toList := by
    intro hc
    exact absurd (not_blank_notated h.arity '\n' hc) (by decide)
  have hname : '\n' ∉ name.toList := by
    intro hc
    exact absurd (h.name_word '\n' hc) (by decide)
  rw [toList_definingArgument]
  generalize "-nargs=".toList ++ arity.notated.toList = declaration at hdeclaration
  simp [hdeclaration, hname, hsingle]

/-- The name passes its check. -/
theorem checkName_eq (h : WellFormed name arity text) : checkName name.toList = .ok () := by
  obtain ⟨c, rest, hname⟩ := List.exists_cons_of_ne_nil h.toList_name_ne_nil
  have huppercase := h.name_uppercase
  have hfree := h.name_free
  rw [hname] at huppercase hfree ⊢
  have hc : isUppercase c = true := huppercase
  have hreserved : isReserved (c :: rest) = false := by simpa [isReserved] using hfree
  simp [checkName, hc, hreserved]

/-- The declaration is split off the name and the text. -/
theorem splitArity_eq (h : WellFormed name arity text) :
    splitArity (("-nargs=".toList ++ arity.notated.toList) ++
        ' ' :: (name.toList ++ ' ' :: text.toList)) =
      .ok (arity, name.toList ++ ' ' :: text.toList) := by
  generalize hdeclaration : "-nargs=".toList ++ arity.notated.toList = declaration
  have hword : splitWord (declaration ++ ' ' :: (name.toList ++ ' ' :: text.toList)) =
      (declaration, name.toList ++ ' ' :: text.toList) := by
    refine splitWord_append ?_ ?_ h.trim_name_text
    · simp [← hdeclaration]
    · rw [← hdeclaration]
      exact not_blank_notated h.arity
  have hdeclared : "-nargs".toList.isPrefixOf
      (declaration ++ ' ' :: (name.toList ++ ' ' :: text.toList)) := by
    simp [← hdeclaration]
  rw [splitArity, if_pos hdeclared, hword, ← hdeclaration]
  simp only [readArity_notated h.arity]
  rfl

/-- **A definition is read back from its argument**, character for character. -/
theorem parse_definingArgument (h : WellFormed name arity text) :
    parse ((UserCommand.ofScript name arity text).definingArgument name) =
      .ok (.define true name arity text) := by
  have hreplacement : splitWord (name.toList ++ ' ' :: text.toList) =
      (name.toList, text.toList) :=
    splitWord_append h.toList_name_ne_nil h.name_word h.trim_text
  have harity := h.splitArity_eq
  have hreplace : splitReplace ('!' :: ' ' :: (("-nargs=".toList ++ arity.notated.toList) ++
      ' ' :: (name.toList ++ ' ' :: text.toList))) =
      (true, ("-nargs=".toList ++ arity.notated.toList) ++
        ' ' :: (name.toList ++ ' ' :: text.toList)) := by
    rw [splitReplace, Text.trimStart, List.dropWhile_cons_of_pos (by decide)]
    rfl
  rw [parse, h.trim_definingArgument, toList_definingArgument]
  -- without this the declaration is evaluated character by character
  generalize ("-nargs=".toList ++ arity.notated.toList) ++
    ' ' :: (name.toList ++ ' ' :: text.toList) = body at harity hreplace ⊢
  simp [hreplace, harity, hreplacement, h.checkName_eq, h.toList_text_ne_nil]

end WellFormed

end Definition

/-! ### The line

A line that takes all of itself is not cut at any bar. Whether it does is asked of its first word,
and that is `command` with a `!` behind it, whatever follows. -/

namespace Script

/-- A line that takes all of itself is one statement, whatever bars are in it. -/
theorem statements_of_takesLine {line : List Char} (hhead : line.head?.any Char.isAlpha)
    (hsingle : '\n' ∉ line) (htakes : takesLine line) : statements line = [Text.trimEnd line] := by
  obtain ⟨c, rest, rfl, hc⟩ : ∃ c rest, line = c :: rest ∧ c.isAlpha := by
    cases line with
    | nil => cases hhead
    | cons c rest => exact ⟨c, rest, rfl, hhead⟩
  have hblank := isBlank_of_isAlphanum (isAlphanum_of_isAlpha hc)
  have begins : continuesLine (c :: rest) = false := by
    rw [continuesLine.eq_def, Text.trimStart_cons hblank]
    split
    next h =>
      cases h
      exact absurd hc (by decide)
    next h =>
      cases h
      exact absurd hc (by decide)
    next => rfl
  have whole : splitBars (c :: rest) = [c :: rest] := by
    rw [splitBars, splitUpTo, if_pos htakes]
  rw [statements, logicalLines, Text.lines_of_single (List.cons_ne_nil c rest) hsingle,
    List.foldl_cons, joinLine_of_not_continues begins]
  simp [whole, stripColons_letter hc, isEffective_letter hc]

/-- What stands behind the name of `:command` is its argument. -/
theorem hasParts_command (rest : List Char) :
    HasParts ("command".toList ++ '!' :: rest) {} "command".toList (Text.trim ('!' :: rest)) := by
  have noRange : LineRange.parse ("command".toList ++ '!' :: rest) =
      ({}, "command".toList ++ '!' :: rest) :=
    range_letter (by decide) _
  refine ⟨?_, ?_, ?_⟩
  · rw [noRange]
  · rw [noRange]
    rfl
  · rw [noRange]
    rfl

theorem takesLine_command (rest : List Char) : takesLine ("command".toList ++ '!' :: rest) := by
  have name : Keyword.nameOf (LineRange.parse ("command".toList ++ '!' :: rest)).2 =
      "command".toList :=
    (hasParts_command rest).name
  have whole : dropColons ("command".toList ++ '!' :: rest) = "command".toList ++ '!' :: rest :=
    List.dropWhile_cons_of_neg (by decide)
  have keyword : keywordOf ("command".toList ++ '!' :: rest) = some .defineCommand := by
    rw [keywordOf, name]
    decide
  rw [takesLine, whole, keyword]
  rfl

/-- **The line that defines a user command is read as one `:command`**, whatever the replacement
text is made of. -/
theorem parse_definingLine {name text : String} {arity : Arity}
    (h : Definition.WellFormed name arity text) (hsingle : '\n' ∉ text.toList) :
    parse ((UserCommand.ofScript name arity text).definingLine name) =
      .ok [.simple (.defineCommand ((UserCommand.ofScript name arity text).definingArgument name))] := by
  have htrim := h.trim_definingArgument
  have hnone := h.not_lineFeed_definingArgument hsingle
  obtain ⟨rest, hrest⟩ : ∃ rest,
      ((UserCommand.ofScript name arity text).definingArgument name).toList = '!' :: rest := by
    rw [Definition.toList_definingArgument]
    exact ⟨_, rfl⟩
  rw [UserCommand.definingLine, parse, String.toList_append]
  generalize (UserCommand.ofScript name arity text).definingArgument name = argument at *
  rw [hrest] at htrim hnone ⊢
  have hline : '\n' ∉ "command".toList ++ '!' :: rest :=
    List.not_mem_append (by decide) hnone
  have hend : Text.trimEnd ("command".toList ++ '!' :: rest) = "command".toList ++ '!' :: rest :=
    Text.trimEnd_append_of_trim htrim (List.cons_ne_nil '!' rest) _
  have hreads : Reads ("command".toList ++ '!' :: rest)
      (.plain (.simple (.defineCommand argument))) := by
    have hkeyword : Keyword.named? "command".toList = some .defineCommand := by decide
    refine .simple (hasParts_command rest) hkeyword ?_ ⟨?_, ?_⟩
    · rw [htrim, ← hrest, String.ofList_toList]
      rfl
    · exact fun h => h rfl
    · trivial
  rw [statements_of_takesLine rfl hline (takesLine_command rest), hend]
  exact ofStatements_of_derives (.cons (.plain hreads) .nil)

end Script

end ExScript
