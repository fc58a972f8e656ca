import ExScript.Proofs.Script.DefiningLine
import ExScript.Run.Command

/-!
# Declared numbers of arguments

A definition may say how many arguments the user command takes, in a word in front of the name that
begins with `-nargs`. There are five ways to say it, and every other word makes the definition an
error, before the name is looked at and without any effect.

The numbers among the five are read as decimal numerals and not as the characters `0` and `1`. So
there are more words for these two: zeros may stand in front of the last digit, and a minus in front
of nothing but zeros. These words and no others are taken besides the five.

A list of accepted words alone would say little, so there are two statements. One is about the word:
it is accepted if and only if it is in the list, and for which number (`readArity_eq_ok_iff`). The
other is about `:command`: what the word is decides how the command goes on, with everything else in
the definition as it may be. There may be a `!` in front or not, any blanks between the parts, and
behind the word any text or none; if a name is missing there, or is not allowed, the error is the
one of the name, and only if the word was accepted.

A number of arguments that is declared anywhere but at the front is not one: `:command Foo -nargs=1`
defines `Foo` with the text `-nargs=1`, and such definitions are not meant here.

## Main definitions

* `Arity.DeclaredBy` — how a number of arguments is declared
* `Definition.Declared` — a definition with a declaration, taken apart
* `Definition.ofNamed` — what a definition asks for behind its declaration

## Main results

* `Definition.readArity_eq_ok_iff` — which words declare a number of arguments
* `Definition.Declared.exists_of_begins` — every definition that begins with `-nargs` has a
  declaration
* `Command.run_declared` — a definition with a declaration goes on with the number or is refused
-/

namespace ExScript

/-! ### Numerals for zero and one

Which digits denote zero, and which one? A numeral is ten times the front of it and its last digit,
so the answer comes by induction from the last digit: for both numbers the front is zero. -/

namespace Numeral

/-- The last digit counts once and those in front of it ten times. -/
theorem value_concat (digits : List Char) (c : Char) :
    value (digits ++ [c]) = 10 * value digits + (c.toNat - '0'.toNat) := by
  rw [value, Nat.ofDigitChars_append]
  rfl

/-- A digit is known by its number. -/
theorem eq_digit {c d : Char} (hc : c.isDigit) (h : c.toNat - '0'.toNat = d.toNat - '0'.toNat)
    (hd : d.isDigit) : c = d := by
  have hc := Script.isDigit_iff.mp hc
  have hd := Script.isDigit_iff.mp hd
  have hzero : '0'.toNat = 48 := rfl
  exact Char.toNat_inj.mp (by omega)

/-- Digits that denote zero are zeros. -/
theorem value_eq_zero_iff {digits : List Char} (h : ∀ c ∈ digits, c.isDigit) :
    value digits = 0 ↔ ∃ n, digits = List.replicate n '0' := by
  induction digits using List.reverseRecOn with
  | nil => exact ⟨fun _ => ⟨0, rfl⟩, fun _ => rfl⟩
  | append_singleton digits c ih =>
    rw [List.forall_mem_append] at h
    rw [value_concat, Nat.add_eq_zero_iff, Nat.mul_eq_zero]
    constructor
    · rintro ⟨hvalue, hc⟩
      obtain ⟨n, rfl⟩ := (ih h.1).mp (hvalue.resolve_left (by decide))
      obtain rfl : c = '0' := eq_digit (h.2 c (List.mem_singleton_self c)) hc (by decide)
      exact ⟨n + 1, List.replicate_succ'.symm⟩
    · rintro ⟨n, hzeros⟩
      have hall : ∀ d ∈ digits ++ [c], d = '0' := by
        rw [hzeros]
        exact fun d hd => List.eq_of_mem_replicate hd
      rw [List.forall_mem_append] at hall
      refine ⟨.inr ((ih h.1).mpr ⟨_, List.eq_replicate_iff.mpr ⟨rfl, hall.1⟩⟩), ?_⟩
      rw [hall.2 c (List.mem_singleton_self c), Nat.sub_self]

/-- Digits that denote one are zeros and a one. -/
theorem value_eq_one_iff {digits : List Char} (h : ∀ c ∈ digits, c.isDigit) :
    value digits = 1 ↔ ∃ n, digits = List.replicate n '0' ++ ['1'] := by
  constructor
  · intro hvalue
    rcases List.eq_nil_or_concat' digits with rfl | ⟨before, c, rfl⟩
    · cases hvalue
    rw [List.forall_mem_append] at h
    rw [value_concat] at hvalue
    obtain ⟨n, rfl⟩ := (value_eq_zero_iff h.1).mp (by omega)
    obtain rfl : c = '1' := eq_digit (h.2 c (List.mem_singleton_self c))
      (show c.toNat - '0'.toNat = 1 by omega) (by decide)
    exact ⟨n, rfl⟩
  · rintro ⟨n, rfl⟩
    rw [List.forall_mem_append] at h
    rw [value_concat, (value_eq_zero_iff h.1).mpr ⟨n, rfl⟩]
    rfl

end Numeral

/-! ### Declarations

The three signs are looked at first and numerals are read only behind them. None of the signs is a
numeral, so the order is of no consequence. The digits are those of ASCII: a digit of another script
is not accepted, though it may be one to a regular expression. -/

/-- How a number of arguments is declared: by the sign or digit of its own, or by another numeral
for zero or one. -/
inductive Arity.DeclaredBy : Arity → List Char → Prop where
  | short {arity : Arity} : arity ∈ Arity.declarable →
    DeclaredBy arity ("-nargs=".toList ++ arity.notated.toList)
  | zeros (n : Nat) :
    DeclaredBy ⟨0, some 0⟩ ("-nargs=".toList ++ List.replicate (n + 1) '0')
  | minusZeros (n : Nat) :
    DeclaredBy ⟨0, some 0⟩ ("-nargs=".toList ++ '-' :: List.replicate (n + 1) '0')
  | zerosOne (n : Nat) :
    DeclaredBy ⟨1, some 1⟩ ("-nargs=".toList ++ (List.replicate n '0' ++ ['1']))

namespace Definition

/-- The digits that are read as a number. -/
theorem isNumeral_iff {digits : List Char} :
    (digits.isEmpty || !digits.all Char.isDigit) = false ↔
      digits ≠ [] ∧ ∀ c ∈ digits, c.isDigit = true := by
  simp [List.isEmpty_eq_false_iff]

/-- The integers that are read: decimal digits, with or without a minus in front of them. -/
theorem readInteger?_eq_some_iff {number : List Char} {m : Int} :
    readInteger? number = some m ↔
      ∃ digits : List Char, (digits ≠ [] ∧ ∀ c ∈ digits, c.isDigit = true) ∧
        (number = digits ∧ m = Numeral.value digits ∨
          number = '-' :: digits ∧ m = -Numeral.value digits) := by
  constructor
  · intro h
    rw [readInteger?.eq_def] at h
    split at h
    next digits =>
      split at h
      · cases h
      next hdigits =>
        cases h
        exact ⟨digits, isNumeral_iff.mp (by simpa using hdigits), .inr ⟨rfl, rfl⟩⟩
    next =>
      split at h
      · cases h
      next hdigits =>
        cases h
        exact ⟨number, isNumeral_iff.mp (by simpa using hdigits), .inl ⟨rfl, rfl⟩⟩
  · rintro ⟨digits, hdigits, ⟨rfl, rfl⟩ | ⟨rfl, rfl⟩⟩
    · rw [readInteger?.eq_def]
      split
      next => exact absurd (hdigits.2 '-' List.mem_cons_self) (by decide)
      next => rw [isNumeral_iff.mpr hdigits, if_neg Bool.false_ne_true]
    · rw [readInteger?, isNumeral_iff.mpr hdigits, if_neg Bool.false_ne_true]

/-- Zero can be negative: a minus in front of zeros is accepted. -/
theorem readInteger?_eq_zero_iff {number : List Char} :
    readInteger? number = some 0 ↔
      ∃ n, number = List.replicate (n + 1) '0' ∨ number = '-' :: List.replicate (n + 1) '0' := by
  rw [readInteger?_eq_some_iff]
  constructor
  · rintro ⟨digits, ⟨hne, hdigits⟩, hread⟩
    obtain ⟨n, rfl⟩ := (Numeral.value_eq_zero_iff hdigits).mp (by omega)
    obtain ⟨n, rfl⟩ := Nat.exists_eq_succ_of_ne_zero fun hn : n = 0 => hne (hn ▸ rfl)
    exact ⟨n, hread.imp And.left And.left⟩
  · rintro ⟨n, hnumber⟩
    have hdigits : ∀ c ∈ List.replicate (n + 1) '0', c.isDigit = true :=
      List.forall_mem_replicate.mpr (.inr (by decide))
    have hvalue := (Numeral.value_eq_zero_iff hdigits).mpr ⟨n + 1, rfl⟩
    refine ⟨List.replicate (n + 1) '0', ⟨List.cons_ne_nil _ _, hdigits⟩, ?_⟩
    rw [hvalue]
    exact hnumber.imp (⟨·, rfl⟩) (⟨·, rfl⟩)

/-- One cannot, so there is one form less. -/
theorem readInteger?_eq_one_iff {number : List Char} :
    readInteger? number = some 1 ↔ ∃ n, number = List.replicate n '0' ++ ['1'] := by
  rw [readInteger?_eq_some_iff]
  constructor
  · rintro ⟨digits, ⟨-, hdigits⟩, ⟨rfl, hvalue⟩ | ⟨-, hvalue⟩⟩
    · exact (Numeral.value_eq_one_iff hdigits).mp (by omega)
    · omega
  · rintro ⟨n, rfl⟩
    have hdigits : ∀ c ∈ List.replicate n '0' ++ ['1'], c.isDigit = true :=
      List.forall_mem_append.mpr ⟨List.forall_mem_replicate.mpr (.inr (by decide)),
        List.forall_mem_singleton.mpr rfl⟩
    have hvalue := (Numeral.value_eq_one_iff hdigits).mpr ⟨n, rfl⟩
    exact ⟨_, ⟨by simp, hdigits⟩, .inl ⟨rfl, by rw [hvalue]; rfl⟩⟩

/-- A declaration with a number. None of the three signs is one. -/
theorem readArity_number {number : List Char} {m : Int} (h : readInteger? number = some m) :
    readArity ("-nargs=".toList ++ number) =
      match some m with
      | some 0 => .ok ⟨0, some 0⟩
      | some 1 => .ok ⟨1, some 1⟩
      | _ => .error .invalidArgumentCount := by
  have hbegins : "-nargs=".toList.isPrefixOf? ("-nargs=".toList ++ number) = some number := rfl
  rw [readArity.eq_def, hbegins]
  split
  next hnone => cases hnone
  next hstar => cases hstar; cases h
  next hquestion => cases hquestion; cases h
  next hplus => cases hplus; cases h
  next hnumber =>
    cases hnumber
    exact h ▸ rfl

/-- **Which words declare a number of arguments.** -/
theorem readArity_eq_ok_iff {token : List Char} {arity : Arity} :
    readArity token = .ok arity ↔ arity.DeclaredBy token := by
  constructor
  · intro h
    rw [readArity.eq_def] at h
    cases hbegins : "-nargs=".toList.isPrefixOf? token with
    | none =>
      rw [hbegins] at h
      cases h
    | some number =>
      rw [hbegins] at h
      obtain rfl := List.isPrefixOf?_eq_some_iff_append_eq.mp hbegins
      split at h
      next hnone => cases hnone
      next hstar => cases hstar; cases h; exact .short (by decide)
      next hquestion => cases hquestion; cases h; exact .short (by decide)
      next hplus => cases hplus; cases h; exact .short (by decide)
      next hnumber =>
        cases hnumber
        split at h
        next hzero =>
          cases h
          obtain ⟨n, rfl | rfl⟩ := readInteger?_eq_zero_iff.mp hzero
          · exact .zeros n
          · exact .minusZeros n
        next hone =>
          cases h
          obtain ⟨n, rfl⟩ := readInteger?_eq_one_iff.mp hone
          exact .zerosOne n
        next => cases h
  · rintro (h | n | n | n)
    · exact readArity_notated h
    · exact readArity_number (readInteger?_eq_zero_iff.mpr ⟨n, .inl rfl⟩)
    · exact readArity_number (readInteger?_eq_zero_iff.mpr ⟨n, .inr rfl⟩)
    · exact readArity_number (readInteger?_eq_one_iff.mpr ⟨n, rfl⟩)

/-- There is one way for a declaration to be wrong. -/
theorem readArity_error {token : List Char} {e : Error} (h : readArity token = .error e) :
    e = .invalidArgumentCount := by
  rw [readArity.eq_def] at h
  split at h
  next => cases h; rfl
  next => cases h
  next => cases h
  next => cases h
  next =>
    split at h
    · cases h
    · cases h
    · cases h; rfl

/-! ### Definitions with a declaration

The argument of `:command` is trimmed, freed of the `!` and the blanks behind it, and its first word
is taken off. `Declared` is what these steps undo: the parts, with the blanks between them left
open. That every argument that begins in this way has such parts is `exists_of_begins`, so nothing
is lost by speaking of the parts. -/

/-- A definition with a declaration: the argument of `:command`, whether it begins with the mark
that another definition may be replaced, the word that begins with `-nargs`, and what is behind
it. -/
structure Declared (argument : String) (replace : Bool) (token behind : List Char) : Prop where
  parts : ∃ blanks : List Char, blanks.all isBlank = true ∧
    Text.trim argument.toList = (if replace then '!' :: blanks else []) ++ (token ++ behind)
  begins : "-nargs".toList <+: token
  word : token.any isBlank = false
  ends : behind = [] ∨ Text.startsBlank behind

/-- What a definition asks for behind its declaration: a name, which is checked, and a replacement
text, without which definitions are listed. -/
def ofNamed (replace : Bool) (arity : Arity) (text : List Char) : Except Error Definition :=
  let (name, replacement) := splitWord text
  match checkName name with
  | .error e => .error e
  | .ok () =>
    if replacement.isEmpty then .ok (.list (String.ofList name))
    else .ok (.define replace (String.ofList name) arity (String.ofList replacement))

namespace Declared

variable {argument : String} {replace : Bool} {token behind : List Char}

/-- Every definition in which `-nargs` is the first that is written, behind the mark if there is
one, is one with a declaration. -/
theorem exists_of_begins (h : "-nargs".toList <+: (splitReplace (Text.trim argument.toList)).2) :
    ∃ replace token behind, Declared argument replace token behind := by
  generalize htext : Text.trim argument.toList = text at h
  have parts : ∃ (replace : Bool) (blanks : List Char), blanks.all isBlank = true ∧
      text = (if replace then '!' :: blanks else []) ++ (splitReplace text).2 := by
    rw [splitReplace.eq_def]
    split
    next rest =>
      exact ⟨true, rest.takeWhile isBlank, List.all_takeWhile,
        congrArg ('!' :: ·) List.takeWhile_append_dropWhile.symm⟩
    next => exact ⟨false, [], rfl, rfl⟩
  obtain ⟨replace, blanks, hblanks, hparts⟩ := parts
  generalize (splitReplace text).2 = declared at h hparts
  have hbegins : "-nargs".toList <+: (Text.word declared).1 := by
    have noBlank : "-nargs".toList.all (fun c => !isBlank c) = true := by decide
    obtain ⟨rest, rfl⟩ := h
    rw [Text.word, List.takeWhile_append_of_pos (List.all_eq_true.mp noBlank)]
    exact List.prefix_append _ _
  refine ⟨replace, (Text.word declared).1, (Text.word declared).2,
    ⟨blanks, hblanks, ?_⟩, hbegins, ?_, Script.word_rest declared⟩
  · rw [Text.word_append, htext, hparts]
  · rw [List.any_eq_false]
    intro c hc
    simpa using List.mem_takeWhile_imp hc

theorem token_eq (h : Declared argument replace token behind) : ∃ rest, token = '-' :: rest := by
  obtain ⟨rest, rfl⟩ := h.begins
  exact ⟨_, rfl⟩

theorem not_blank (h : Declared argument replace token behind) : ∀ c ∈ token, isBlank c = false :=
  fun c hc => by simpa using List.any_eq_false.mp h.word c hc

/-- The first word is the one that begins with `-nargs`. -/
theorem splitWord_eq (h : Declared argument replace token behind) :
    splitWord (token ++ behind) = (token, Text.trim behind) := by
  have hne : token ≠ [] := by
    obtain ⟨rest, rfl⟩ := h.token_eq
    exact List.cons_ne_nil _ _
  exact splitWord_of_ends hne h.not_blank h.ends

/-- The mark is taken off with the blanks behind it. -/
theorem splitReplace_eq (h : Declared argument replace token behind) :
    splitReplace (Text.trim argument.toList) = (replace, token ++ behind) := by
  obtain ⟨rest, htoken⟩ := h.token_eq
  obtain ⟨blanks, hblanks, htext⟩ := h.parts
  rw [htext]
  cases replace with
  | true =>
    have start : Text.trimStart (blanks ++ (token ++ behind)) = token ++ behind := by
      rw [Text.trimStart_blanks (List.all_eq_true.mp hblanks), htoken]
      exact Text.trimStart_cons (by decide) _
    exact congrArg (Prod.mk true) start
  | false =>
    rw [htoken]
    rfl

/-- What a definition with a declaration asks for. -/
theorem parse_eq (h : Declared argument replace token behind) :
    parse argument =
      match readArity token with
      | .error e => .error e
      | .ok arity => ofNamed replace arity (Text.trim behind) := by
  have hne : Text.trim argument.toList ≠ [] := by
    intro hnil
    have hreplace := h.splitReplace_eq
    obtain ⟨rest, rfl⟩ := h.token_eq
    rw [hnil] at hreplace
    cases hreplace
  have hdeclared : "-nargs".toList.isPrefixOf (token ++ behind) :=
    List.isPrefixOf_iff_prefix.mpr (h.begins.trans (List.prefix_append token behind))
  rw [parse]
  split
  next hnil => exact absurd hnil hne
  next =>
    rw [h.splitReplace_eq]
    dsimp only
    rw [splitArity, if_pos hdeclared, h.splitWord_eq]
    dsimp only
    cases readArity token with
    | error e => rfl
    | ok arity => rfl

/-- What it asks for if the declaration is accepted, and if it is not. -/
theorem parse_of_declaredBy (h : Declared argument replace token behind) {arity : Arity}
    (harity : arity.DeclaredBy token) :
    parse argument = ofNamed replace arity (Text.trim behind) := by
  simp only [h.parse_eq, readArity_eq_ok_iff.mpr harity]

theorem parse_of_not_declaredBy (h : Declared argument replace token behind)
    (hnone : ∀ arity : Arity, ¬arity.DeclaredBy token) :
    parse argument = .error .invalidArgumentCount := by
  cases hread : readArity token with
  | error e => simp only [h.parse_eq, hread, readArity_error hread]
  | ok arity => exact absurd (readArity_eq_ok_iff.mp hread) (hnone arity)

end Declared

end Definition

namespace Command

/-- **A definition with a declaration goes on with the declared number of arguments, or is
refused.** If the declaration is one of the five, or one of the further numerals for zero and one,
then the name behind it is looked at and defined with that number; otherwise it is an error, and the
session is left as it was. -/
theorem run_declared {argument : String} {replace : Bool} {token behind : List Char}
    (h : Definition.Declared argument replace token behind) (scope : Scope) (s : Session) :
    (∀ arity : Arity, arity.DeclaredBy token →
      run scope s (.defineCommand argument) =
        attempt s ((Definition.ofNamed replace arity (Text.trim behind)).bind (runDefinition s))) ∧
      ((∀ arity : Arity, ¬arity.DeclaredBy token) →
        run scope s (.defineCommand argument) = (.failed .invalidArgumentCount, s)) := by
  constructor
  · intro arity harity
    rw [run, h.parse_of_declaredBy harity]
    cases Definition.ofNamed replace arity (Text.trim behind) with
    | error e => rfl
    | ok definition => rfl
  · intro hnone
    rw [run, h.parse_of_not_declaredBy hnone]
    rfl

/-- A definition that takes any arguments but none, and one with a number that cannot be
declared. -/
theorem run_declared_plusAndTwo :
    run .root {} (.defineCommand "!\t-nargs=+  Say echo <args>") =
        (.finished, { commands := Registry.empty.define "Say" ⟨1, none⟩ "echo <args>" }) ∧
      run .root {} (.defineCommand "-nargs=2 Say echo") = (.failed .invalidArgumentCount, {}) := by
  constructor
  · have hdeclared : Definition.Declared "!\t-nargs=+  Say echo <args>" true "-nargs=+".toList
        "  Say echo <args>".toList :=
      ⟨⟨['\t'], by decide, by decide⟩, by decide, by decide, by decide⟩
    have hnamed : Definition.ofNamed true ⟨1, none⟩ (Text.trim "  Say echo <args>".toList) =
        .ok (.define true "Say" ⟨1, none⟩ "echo <args>") := by
      decide
    rw [(run_declared hdeclared .root {}).1 ⟨1, none⟩ (.short (by decide)), hnamed]
    rfl
  · have hdeclared : Definition.Declared "-nargs=2 Say echo" false "-nargs=2".toList
        " Say echo".toList :=
      ⟨⟨[], by decide, by decide⟩, by decide, by decide, by decide⟩
    refine (run_declared hdeclared .root {}).2 fun arity hread => ?_
    have herror : Definition.readArity "-nargs=2".toList = .error .invalidArgumentCount := by decide
    rw [Definition.readArity_eq_ok_iff.mpr hread] at herror
    cases herror

/-- A declaration that is not one of the five: two zeros are taken for no argument. -/
theorem twoZeros_declared :
    "-nargs=00" ∉ Arity.declarable.map (fun arity => "-nargs=" ++ arity.notated) ∧
      run .root {} (.defineCommand "-nargs=00 Foo echo 1") =
        (.finished, { commands := Registry.empty.define "Foo" ⟨0, some 0⟩ "echo 1" }) := by
  have hparse : Definition.parse "-nargs=00 Foo echo 1" =
      .ok (.define false "Foo" ⟨0, some 0⟩ "echo 1") := by
    decide
  refine ⟨by decide, ?_⟩
  rw [run, hparse]
  rfl

end Command

end ExScript
