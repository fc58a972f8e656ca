import ExScript.UserCommand.Placeholder

/-!
# Texts with placeholders

Placeholders are expanded in one pass over the text. What a placeholder brings in is written down
and left behind, so it makes no difference whether there are placeholders in it, or whether it
becomes one together with what stands next to it. And there is a way to write any text: if each `<`
in it is written as `<lt>`, no other placeholder is left, and the text itself comes out.

The pass goes from left to right. No name of a placeholder holds a `<`, so two placeholders never
overlap, and the first one is the one with none in front of it.

That there is one pass is the point. With a second one over what came out, an argument could bring
in a placeholder and with it the arguments again, and no text could be written that is safe from
that. The statement about pieces says it without a word about passes: how the text is cut is fixed
before any argument is known. It says a bit more too, that the same cut does for all arguments.

The result is a text like any other. What a bar or a quote from an argument does to the command that
is read from it is another matter; see `Proofs/UserCommand/Arguments.lean`.

## Main definitions

* `Placeholder.Spells` — the ways to write a placeholder
* `Placeholder.escape` — a text with `<lt>` for each `<`
* `Placeholder.Piece` — what a text is cut into: placeholders and other characters

## Main results

* `Placeholder.read?_eq_some_iff` — which placeholders are recognised
* `Placeholder.expanded_escape` — an escaped text stands for itself
* `Placeholder.expanded_first` — what the first placeholder of a text does
* `Placeholder.expanded_pieces` — how a text is cut does not depend on the arguments
* `Placeholder.substitute_once` — all of this, of strings
-/

namespace ExScript

namespace Placeholder

/-! ### The ways to write a placeholder

Names are recognised whatever the case of their letters. The reader tries one name after the other,
and `Calls` says the same without an order: no name of one placeholder is the beginning of another
with the sign behind it, so at most one can be meant. -/

/-- `Calls name p`: between the signs, this name calls for the placeholder. If a letter is not one
of ASCII, whatever the name is, it calls for the sign. -/
def Calls (name : List Char) (p : Placeholder) : Prop :=
  ∃ entry ∈ names, name.map foldCase = entry.1 ∧
    p = if name.map Char.toLower = entry.1 then entry.2 else .sign

/-- `Spells written p`: this text is a placeholder, and this is the one. -/
def Spells (written : List Char) (p : Placeholder) : Prop :=
  ∃ name, Calls name p ∧ written = '<' :: (name ++ ['>'])

/-- There is no sign in a name. -/
theorem Calls.not_mem {name : List Char} {p : Placeholder} (h : Calls name p) :
    '<' ∉ name ∧ '>' ∉ name := by
  obtain ⟨entry, hentry, hname, -⟩ := h
  have plain : ∀ entry ∈ names, foldCase '<' ∉ entry.1 ∧ foldCase '>' ∉ entry.1 := by decide
  constructor <;> intro hmem
  · exact (plain entry hentry).1 (hname ▸ List.mem_map_of_mem hmem)
  · exact (plain entry hentry).2 (hname ▸ List.mem_map_of_mem hmem)

/-- A name calls for one placeholder only. -/
theorem Calls.unique {name : List Char} {p q : Placeholder} (hp : Calls name p)
    (hq : Calls name q) : p = q := by
  obtain ⟨entry, hentry, hname, rfl⟩ := hp
  obtain ⟨entry', hentry', hname', rfl⟩ := hq
  have distinct : ∀ e ∈ names, ∀ e' ∈ names, e.1 = e'.1 → e = e' := by decide
  rw [distinct entry hentry entry' hentry' (hname.symm.trans hname')]

/-- The name of a placeholder ends at the first sign that closes it. -/
theorem Calls.append_inj {name name' : List Char} {p p' : Placeholder} {rest rest' : List Char}
    (h : Calls name p) (h' : Calls name' p') (e : name ++ '>' :: rest = name' ++ '>' :: rest') :
    name = name' ∧ rest = rest' := by
  have hsplit := List.append_eq_append_iff.mp e
  rcases hsplit with ⟨between, hname, hrest⟩ | ⟨between, hname, hrest⟩
  · cases between with
    | nil => simpa using And.intro hname.symm hrest
    | cons c between =>
      obtain ⟨rfl, -⟩ := List.cons.inj hrest
      exact absurd (hname ▸ by simp) h'.not_mem.2
  · cases between with
    | nil => simpa using And.intro hname hrest.symm
    | cons c between =>
      obtain ⟨rfl, -⟩ := List.cons.inj hrest
      exact absurd (hname ▸ by simp) h.not_mem.2

/-- The placeholder of one name, if it stands at the front of a text. -/
def readNamed? (text : List Char) (entry : List Char × Placeholder) :
    Option (Placeholder × List Char) :=
  match text.drop entry.1.length with
  | '>' :: rest =>
    if (text.take entry.1.length).map foldCase = entry.1 then
      some (if (text.take entry.1.length).map Char.toLower = entry.1 then entry.2 else sign, rest)
    else none
  | _ => none

/-- The names are tried one after the other. -/
theorem read?_eq_findSome? (text : List Char) : read? text = names.findSome? (readNamed? text) :=
  rfl

theorem calls_of_readNamed? {text behind : List Char} {entry : List Char × Placeholder}
    {p : Placeholder} (hentry : entry ∈ names) (h : readNamed? text entry = some (p, behind)) :
    ∃ name, Calls name p ∧ text = name ++ '>' :: behind := by
  rw [readNamed?] at h
  split at h
  next rest hdrop =>
    split at h
    next hname =>
      cases h
      refine ⟨text.take entry.1.length, ⟨entry, hentry, hname, rfl⟩, ?_⟩
      rw [← hdrop, List.take_append_drop]
    next => cases h
  next => cases h

theorem readNamed?_of_calls {name : List Char} {p : Placeholder} (h : Calls name p)
    (behind : List Char) :
    ∃ entry ∈ names, readNamed? (name ++ '>' :: behind) entry = some (p, behind) := by
  obtain ⟨entry, hentry, hname, rfl⟩ := h
  have hlength : entry.1.length = name.length := by rw [← hname, List.length_map]
  refine ⟨entry, hentry, ?_⟩
  rw [readNamed?, hlength, List.drop_left, List.take_left]
  exact if_pos hname

/-- **A placeholder is recognised if it is written in one of its ways.** -/
theorem read?_eq_some_iff {text behind : List Char} {p : Placeholder} :
    read? text = some (p, behind) ↔ ∃ name, Calls name p ∧ text = name ++ '>' :: behind := by
  rw [read?_eq_findSome?]
  constructor
  · intro h
    obtain ⟨entry, hentry, hread⟩ := List.exists_of_findSome?_eq_some h
    exact calls_of_readNamed? hentry hread
  · rintro ⟨name, hcalls, rfl⟩
    obtain ⟨entry, hentry, hread⟩ := readNamed?_of_calls hcalls behind
    cases hfound : names.findSome? (readNamed? (name ++ '>' :: behind)) with
    | none =>
      have hnone := List.findSome?_eq_none_iff.mp hfound entry hentry
      rw [hread] at hnone
      cases hnone
    | some found =>
      obtain ⟨q, rest⟩ := found
      obtain ⟨other, hother, hread'⟩ := List.exists_of_findSome?_eq_some hfound
      obtain ⟨name', hcalls', htext⟩ := calls_of_readNamed? hother hread'
      obtain ⟨rfl, rfl⟩ := hcalls.append_inj hcalls' htext
      rw [hcalls.unique hcalls']

/-! ### One pass over the text

The pass is given enough fuel for the length of the text, and `expanded` is the text with just that.
What it does at each point of the text is said by `expanded_spells` and `expanded_cons`, and nothing
below knows of the fuel. -/

section Expanded

variable {arguments text : List Char}

/-- A text with its placeholders expanded. -/
def expanded (arguments text : List Char) : List Char :=
  substituteUpTo arguments text.length text

theorem toList_substitute (text arguments : String) :
    (substitute text arguments).toList = expanded arguments.toList text.toList :=
  String.toList_ofList

theorem length_of_read? {behind : List Char} {p : Placeholder} (h : read? text = some (p, behind)) :
    behind.length < text.length := by
  obtain ⟨name, -, rfl⟩ := read?_eq_some_iff.mp h
  rw [List.length_append, List.length_cons]
  omega

theorem substituteUpTo_eq_expanded {n : Nat} (hn : text.length ≤ n) :
    substituteUpTo arguments n text = expanded arguments text := by
  induction n using Nat.strongRecOn generalizing text with
  | _ n ih =>
    cases text with
    | nil => cases n <;> rfl
    | cons c rest =>
      rw [List.length_cons] at hn
      obtain ⟨k, rfl⟩ : ∃ k, n = k + 1 := ⟨n - 1, by omega⟩
      have plain : substituteUpTo arguments k rest = substituteUpTo arguments rest.length rest :=
        ih k (by omega) (by omega)
      rw [expanded, List.length_cons, substituteUpTo, substituteUpTo, plain]
      cases hread : read? rest with
      | none => rfl
      | some found =>
        have hbehind := length_of_read? hread
        simp only [ih k (by omega) (show found.2.length ≤ k by omega)]
        split
        · rw [ih rest.length (by omega) (by omega)]
        · rfl

@[simp] theorem expanded_nil (arguments : List Char) : expanded arguments [] = [] := rfl

/-- A placeholder is expanded, and the pass goes on behind it. -/
theorem expanded_spells {written : List Char} {p : Placeholder} (h : Spells written p)
    (arguments behind : List Char) :
    expanded arguments (written ++ behind) = p.expand arguments ++ expanded arguments behind := by
  obtain ⟨name, hcalls, rfl⟩ := h
  have hread : read? (name ++ '>' :: behind) = some (p, behind) :=
    read?_eq_some_iff.mpr ⟨name, hcalls, rfl⟩
  have htext : '<' :: (name ++ ['>']) ++ behind = '<' :: (name ++ '>' :: behind) := by simp
  rw [htext, expanded, List.length_cons, substituteUpTo, if_pos rfl, hread]
  exact congrArg _ (substituteUpTo_eq_expanded (Nat.le_of_lt (length_of_read? hread)))

/-- Whether a placeholder stands at the front of a text. -/
def Begins (text : List Char) : Prop :=
  ∃ written p behind, Spells written p ∧ text = written ++ behind

/-- A character that begins no placeholder is kept. -/
theorem expanded_cons {c : Char} (h : ¬Begins (c :: text)) (arguments : List Char) :
    expanded arguments (c :: text) = c :: expanded arguments text := by
  rw [expanded, List.length_cons, substituteUpTo]
  split
  next hsign =>
    cases hread : read? text with
    | none => rfl
    | some found =>
      obtain ⟨p, behind⟩ := found
      obtain ⟨name, hcalls, rfl⟩ := read?_eq_some_iff.mp hread
      refine absurd ⟨'<' :: (name ++ ['>']), p, behind, ⟨name, hcalls, rfl⟩, ?_⟩ h
      simp [hsign]
  next => rfl

theorem Spells.begins_sign {written : List Char} {p : Placeholder} (h : Spells written p) :
    ∃ rest, written = '<' :: rest := by
  obtain ⟨name, -, rfl⟩ := h
  exact ⟨_, rfl⟩

theorem expanded_cons_of_ne {c : Char} (hc : c ≠ '<') (arguments text : List Char) :
    expanded arguments (c :: text) = c :: expanded arguments text := by
  refine expanded_cons ?_ arguments
  rintro ⟨written, p, behind, hspells, htext⟩
  obtain ⟨rest, rfl⟩ := hspells.begins_sign
  exact hc (List.cons.inj htext).1

/-! ### Escaped texts

In an escaped text each `<` begins a placeholder that stands for `<`, and nothing else begins one.
-/

/-- A text with `<lt>` for each `<`. -/
def escape (text : List Char) : List Char :=
  text.flatMap fun c => if c = '<' then "<lt>".toList else [c]

theorem spells_lt : Spells "<lt>".toList .sign :=
  ⟨"lt".toList, ⟨_, List.mem_of_getElem? (i := 3) rfl, by decide, by decide⟩, rfl⟩

/-- **An escaped text stands for itself**, whatever the arguments. -/
theorem expanded_escape (arguments text : List Char) : expanded arguments (escape text) = text := by
  induction text with
  | nil => rfl
  | cons c text ih =>
    rw [escape, List.flatMap_cons, ← escape]
    split
    next hsign => rw [expanded_spells spells_lt, ih, hsign, expand, List.singleton_append]
    next hplain => rw [List.singleton_append, expanded_cons_of_ne hplain, ih]

/-! ### The first placeholder

That there is no placeholder in a text does not say that there is none when more is written behind
it: the end of the text could be the beginning of one. But what is written behind it here begins
with a `<`, and no placeholder goes on over that. -/

/-- Whether there is no placeholder in a text. -/
def IsFree (text : List Char) : Prop :=
  ∀ written p, Spells written p → ¬written <:+: text

theorem IsFree.of_cons {c : Char} (h : IsFree (c :: text)) : IsFree text :=
  fun written p hspells hin => h written p hspells (hin.trans (List.suffix_cons c text).isInfix)

/-- A placeholder that begins in a text without placeholders would have to go on over the `<` behind
it. -/
theorem IsFree.not_begins {c : Char} {more : List Char} (h : IsFree (c :: text)) :
    ¬Begins (c :: text ++ '<' :: more) := by
  rintro ⟨_, p, behind, ⟨name, hcalls, rfl⟩, htext⟩
  have hrest : text ++ '<' :: more = name ++ '>' :: behind := by
    simpa using (List.cons.inj htext).2
  obtain rfl : c = '<' := (List.cons.inj htext).1
  rcases List.append_eq_append_iff.mp hrest with ⟨between, hname, hmore⟩ | ⟨between, hfront, hmore⟩
  · cases between with
    | nil => cases hmore
    | cons d between =>
      obtain ⟨rfl, -⟩ := List.cons.inj hmore
      exact hcalls.not_mem.1 (hname ▸ by simp)
  · cases between with
    | nil => cases hmore
    | cons d between =>
      obtain ⟨rfl, -⟩ := List.cons.inj hmore
      refine h _ p ⟨name, hcalls, rfl⟩ ⟨[], between, ?_⟩
      simp [hfront]

/-- **The first placeholder of a text is expanded**, what stands in front of it is kept, and what
stands behind it is expanded for itself. -/
theorem expanded_first {before written : List Char} {p : Placeholder} (h : IsFree before)
    (hspells : Spells written p) (arguments behind : List Char) :
    expanded arguments (before ++ (written ++ behind)) =
      before ++ (p.expand arguments ++ expanded arguments behind) := by
  induction before with
  | nil => exact expanded_spells hspells arguments behind
  | cons c before ih =>
    obtain ⟨rest, hwritten⟩ := hspells.begins_sign
    have hplain : ¬Begins (c :: (before ++ (written ++ behind))) := by
      rw [hwritten]
      exact h.not_begins
    rw [List.cons_append, expanded_cons hplain, ih h.of_cons, List.cons_append]

/-! ### All of them

By induction on the length of the text: a placeholder at its front is a piece, and so is any other
character there. The arguments are taken in only when the pieces are chosen. -/

/-- A part of a text: a placeholder as it is written, or another character. -/
inductive Piece where
  | plain (c : Char)
  | placeholder (written : List Char) (p : Placeholder) (h : Spells written p)

namespace Piece

/-- The part as it is written. -/
def written : Piece → List Char
  | plain c => [c]
  | placeholder written _ _ => written

/-- What becomes of the part. -/
def expand (arguments : List Char) : Piece → List Char
  | plain c => [c]
  | placeholder _ p _ => p.expand arguments

end Piece

/-- **How a text is cut does not depend on the arguments**: they take the places of placeholders
that are written in it, and of no others. -/
theorem expanded_pieces (text : List Char) :
    ∃ pieces : List Piece, text = pieces.flatMap Piece.written ∧
      ∀ arguments, expanded arguments text = pieces.flatMap (Piece.expand arguments) := by
  induction hlength : text.length using Nat.strongRecOn generalizing text with
  | _ n ih =>
    subst hlength
    by_cases hbegins : Begins text
    · obtain ⟨written, p, behind, hspells, rfl⟩ := hbegins
      obtain ⟨rest, hwritten⟩ := hspells.begins_sign
      have hshort : behind.length < (written ++ behind).length := by
        rw [hwritten, List.length_append, List.length_cons]
        omega
      obtain ⟨pieces, hpieces, hexpanded⟩ := ih _ hshort behind rfl
      refine ⟨.placeholder written p hspells :: pieces, ?_, fun arguments => ?_⟩
      · rw [List.flatMap_cons, ← hpieces]
        rfl
      · rw [expanded_spells hspells, hexpanded, List.flatMap_cons]
        rfl
    · cases text with
      | nil => exact ⟨[], rfl, fun _ => rfl⟩
      | cons c text =>
        obtain ⟨pieces, hpieces, hexpanded⟩ := ih _ (Nat.lt_succ_self _) text rfl
        refine ⟨.plain c :: pieces, ?_, fun arguments => ?_⟩
        · rw [List.flatMap_cons, ← hpieces]
          rfl
        · rw [expanded_cons hbegins, hexpanded, List.flatMap_cons]
          rfl

end Expanded

/-- **Placeholders are expanded once.** An escaped text stands for itself. Of any other text the
first placeholder is expanded, with nothing in front of it changed, and what stands behind it is
expanded for itself. So each text is cut into characters and placeholders in the same way whatever
the arguments are, and what these hold is not looked at. -/
theorem substitute_once :
    (∀ text arguments : String, substitute (String.ofList (escape text.toList)) arguments = text) ∧
      (∀ (before written behind arguments : String) (p : Placeholder), IsFree before.toList →
        Spells written.toList p →
          substitute (before ++ written ++ behind) arguments =
            before ++ String.ofList (p.expand arguments.toList) ++ substitute behind arguments) ∧
      ∀ text : String, ∃ pieces : List Piece,
        text = String.ofList (pieces.flatMap Piece.written) ∧
          ∀ arguments : String, substitute text arguments =
            String.ofList (pieces.flatMap (Piece.expand arguments.toList)) := by
  refine ⟨fun text arguments => ?_, fun before written behind arguments p hfree hspells => ?_,
    fun text => ?_⟩
  · rw [← String.toList_inj, toList_substitute, String.toList_ofList, expanded_escape]
  · rw [← String.toList_inj, toList_substitute]
    simp only [String.toList_append, String.toList_ofList, toList_substitute, List.append_assoc]
    exact expanded_first hfree hspells _ _
  · obtain ⟨pieces, hpieces, hexpanded⟩ := expanded_pieces text.toList
    refine ⟨pieces, ?_, fun arguments => ?_⟩
    · rw [← hpieces, String.ofList_toList]
    · rw [← String.toList_inj, toList_substitute, String.toList_ofList, hexpanded]

/-- Arguments that make a placeholder out of what stands around them. -/
theorem substitute_once_formed :
    IsFree "echo <".toList ∧ Spells "<ARGS>".toList .arguments ∧
      substitute "echo <<ARGS>gs> <lt>args>" "ar" = "echo <args> <args>" := by
  have hfree : IsFree "echo <".toList := by
    rintro _ p ⟨name, -, rfl⟩ hin
    have hmem : '>' ∈ "echo <".toList := hin.subset (by simp)
    exact absurd hmem (by decide)
  have hspells : Spells "<ARGS>".toList .arguments :=
    ⟨"ARGS".toList, ⟨_, List.mem_of_getElem? (i := 0) rfl, by decide, by decide⟩, rfl⟩
  refine ⟨hfree, hspells, ?_⟩
  have hfirst := substitute_once.2.1 "echo <" "<ARGS>" "gs> <lt>args>" "ar" .arguments hfree hspells
  have hbehind : substitute "gs> <lt>args>" "ar" = "gs> <args>" := by decide
  rw [hbehind] at hfirst
  exact hfirst

end Placeholder

end ExScript
