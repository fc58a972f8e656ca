import ExScript.Command.Keyword
import ExScript.Proofs.Result
import ExScript.Proofs.Script.SingleLine
import ExScript.UserCommand.Definition

/-!
# What a definition can say

The argument of `:command` is checked before anything is registered. What the checks let through is
said here as a property of the name, the arity and the replacement text, without a word about the
order in which they are made or about the `!` and the declaration in front of the name.

The replacement text is the end of the argument, so it holds no line feed if the argument holds
none; that is the one thing that is not checked.

The checks are made once, and what was registered is used and shown for the rest of the session. So
what is proved here is not needed when a definition is read but ever after: a definition is replaced
only by another that was checked, hence each that is found in a session has this property, and can
be written back as a line that is read as the same definition (`Proofs/Script/DefiningLine.lean`).

Of the characters of a name behind the first one it says only that none of them is blank. More is
not asked by the program either, so a name can be registered that is not a name where commands are
used (`Proofs/Script/Callable.lean`).

## Main results

* `Text.trim_trim` — trimming twice is trimming once
* `Definition.wellFormed_of_parse` — what the checks let through
-/

namespace ExScript

/-! ### Trimming

The parts of a definition are trimmed when they are split off, some of them twice. -/

namespace Text

/-- A text that was trimmed at its front is still so when it is trimmed at its end. -/
theorem trimStart_trimEnd {text : List Char} (h : trimStart text = text) :
    trimStart (trimEnd text) = trimEnd text := by
  have hinit := trimEnd_isPrefix text
  refine List.dropWhile_eq_self_iff.mpr fun hlen => ?_
  have hhead := List.dropWhile_eq_self_iff.mp h (hlen.trans_le hinit.length_le)
  rwa [hinit.getElem hlen]

theorem trim_trim (text : List Char) : trim (trim text) = trim text := by
  have hstart : trimStart (trimStart text) = trimStart text := List.dropWhile_idempotent isBlank text
  have hend : trimEnd (trimEnd (trimStart text)) = trimEnd (trimStart text) :=
    List.rdropWhile_idempotent isBlank _
  rw [trim, trim, trimStart_trimEnd hstart, hend]

end Text

/-! ### The parts of a definition -/

/-- The numbers of arguments that can be declared. -/
def Arity.declarable : List Arity :=
  [⟨0, some 0⟩, ⟨1, some 1⟩, ⟨0, none⟩, ⟨0, some 1⟩, ⟨1, none⟩]

namespace Definition

/-- What a name, an arity and a replacement text have to be like in order to be defined. -/
structure WellFormed (name : String) (arity : Arity) (text : String) : Prop where
  name_nonempty : name ≠ ""
  name_word : ∀ c ∈ name.toList, isBlank c = false
  name_uppercase : Keyword.startsUppercase name.toList
  name_free : name.toList.map Char.toLower ∉ reservedNames
  arity : arity ∈ Arity.declarable
  text_nonempty : text ≠ ""
  text_trimmed : trimmed text = text

/-- Whatever word declares it, the arity is one of five. -/
theorem mem_declarable_of_readArity {token : List Char} {arity : Arity}
    (h : readArity token = .ok arity) : arity ∈ Arity.declarable := by
  rw [readArity] at h
  split at h
  · cases h
  · cases h; decide
  · cases h; decide
  · cases h; decide
  · split at h
    · cases h; decide
    · cases h; decide
    · cases h

/-! ### Words

What each of the readers of `Definition.parse` is known to give, in the order in which they are
used: the parts are words or trimmed texts, and nothing is in them that was not in the argument. -/

/-- The first word of a text holds no blank, and what follows it is trimmed. -/
theorem splitWord_spec (text : List Char) :
    (∀ c ∈ (splitWord text).1, isBlank c = false) ∧
      Text.trim (splitWord text).2 = (splitWord text).2 := by
  refine ⟨fun c hc => ?_, Text.trim_trim _⟩
  simpa using List.mem_takeWhile_imp hc

theorem splitWord_rest_subset (text : List Char) : (splitWord text).2 ⊆ text :=
  List.Subset.trans (Text.trim_subset _)
    ((List.dropWhile_suffix _).trans (List.dropWhile_suffix _)).subset

theorem of_splitArity {text rest : List Char} {arity : Arity}
    (h : splitArity text = .ok (arity, rest)) : arity ∈ Arity.declarable ∧ rest ⊆ text := by
  rw [splitArity] at h
  split at h
  · obtain ⟨declared, hread, heq⟩ := exists_of_map_eq_ok h
    cases heq
    exact ⟨mem_declarable_of_readArity hread, splitWord_rest_subset text⟩
  · cases h
    exact ⟨by decide, List.Subset.refl text⟩

theorem splitReplace_subset (text : List Char) : (splitReplace text).2 ⊆ text := by
  rw [splitReplace.eq_def]
  split
  next rest => exact ((List.dropWhile_suffix _).trans (List.suffix_cons '!' rest)).subset
  next => exact List.Subset.refl text

/-- A name that passes its check starts with a capital letter and is not reserved. -/
theorem of_checkName {name : List Char} (h : checkName name = .ok ()) :
    Keyword.startsUppercase name ∧ name.map Char.toLower ∉ reservedNames := by
  cases name with
  | nil => cases h
  | cons c rest =>
    rw [checkName] at h
    split at h
    · cases h
    next hc =>
      split at h
      · cases h
      next hreserved =>
        exact ⟨by simpa [Keyword.startsUppercase] using hc, by simpa [isReserved] using hreserved⟩

/-- **What the checks of a definition let through.** -/
theorem wellFormed_of_parse {argument name text : String} {replace : Bool} {arity : Arity}
    (h : parse argument = .ok (.define replace name arity text)) :
    WellFormed name arity text ∧ text.toList ⊆ argument.toList := by
  have hreplace := splitReplace_subset (Text.trim argument.toList)
  rw [parse] at h
  split at h
  · cases h
  split at h
  next replaces body hsplit =>
  split at h
  · cases h
  next declared rest harity =>
  split at h
  next word replacement hword =>
  split at h
  · cases h
  next hname =>
  split at h
  · cases h
  next htext =>
  cases h
  obtain ⟨hdeclared, hrest⟩ := of_splitArity harity
  obtain ⟨hblank, htrimmed⟩ := splitWord_spec rest
  have hsubset := splitWord_rest_subset rest
  obtain ⟨huppercase, hfree⟩ := of_checkName hname
  rw [hsplit] at hreplace
  rw [hword] at hblank htrimmed hsubset
  constructor
  · refine ⟨?_, by simpa using hblank, by simpa using huppercase, by simpa using hfree, hdeclared,
      by simpa using htext, by simp [trimmed, htrimmed]⟩
    rintro hnil
    rw [String.ofList_eq_empty_iff.mp hnil] at huppercase
    cases huppercase
  · rw [String.toList_ofList]
    intro c hc
    exact Text.trim_subset _ (hreplace (hrest (hsubset hc)))

end Definition

end ExScript
