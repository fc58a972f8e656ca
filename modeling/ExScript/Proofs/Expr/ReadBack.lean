import ExScript.Expr.Eval
import ExScript.Proofs.Expr.Completeness
import ExScript.Proofs.Expr.VariableName

/-!
# What `string()` writes is read back

The function `string` gives the written form of a value, which is an expression again. Reading it
and working it out gives the value back, whatever the texts in it hold and however deep its lists
are, with one exception: the least number of 64 bits is written with a minus and the digits of a
number that is too large by one. The digits are read before the minus, and they stop at the largest
number.

The way from the characters to the value goes through a derivation tree. Each value has one
(`Value.tree`); the characters of the written form are cut into the tokens at its leaves, if what
stands behind does not go on the last of them (`Lexeme.scansTo_written`), and the structure it
stands for has the value (`Value.eval_tree`).

The tree is what makes this short. That an expression with the tokens of a tree is read as its
structure is known (`Proofs/Expr/Completeness.lean`), so nothing has to be said about precedence or
about how far the parser reads. What is left are two inductions on the value, one for the characters
and one for the value of the structure, and neither knows of the other.

The variables do not matter, since no variable occurs in a written form. And what comes back when
the least number is in a value is said too: `Value.reread` is the value that does, so the exception
is stated exactly and at every depth, and not only left out.

## Main definitions

* `Lexeme.ScansTo` — the tokens at the front of a text, up to a rest
* `Value.Holds` — a number occurs in a value
* `Value.reread` — the value that comes back
* `Value.tree` — the derivation tree of the written form

## Main results

* `Lexeme.scansTo_written` — the tokens of the written form
* `Value.reread_eq_self_iff` — which values come back as they were
* `string_read_back` — the written form is an expression, and its value is the one that comes back
-/

namespace ExScript

open ExScript.Expr (Derivation)

/-! ### Tokens at the front of a text

A written form is put together from parts, so its tokens have to be known with more text behind it.
`ScansTo` is about the front of a text for that reason, and such fronts can be put one behind the
other. The fuel of the scanner stays inside of the definition. -/

namespace Lexeme

open ExScript.Expr (tokensOf)

/-- `ScansTo text ts rest`: the text begins with these tokens, and scanning it goes on with the
rest. -/
def ScansTo (text : List Char) (ts : List Token) (rest : List Char) : Prop :=
  ∀ n, text.length ≤ n →
    ∃ k, rest.length ≤ k ∧ tokensOf (scanUpTo n text) = ts ++ tokensOf (scanUpTo k rest)

namespace ScansTo

variable {text middle rest : List Char} {ts us : List Token}

theorem trans (h : ScansTo text ts middle) (h' : ScansTo middle us rest) :
    ScansTo text (ts ++ us) rest := by
  intro n hn
  obtain ⟨k, hk, htokens⟩ := h n hn
  obtain ⟨l, hl, hmore⟩ := h' k hk
  exact ⟨l, hl, by rw [htokens, hmore, List.append_assoc]⟩

/-- The first token, if it leaves less of the text. -/
theorem next {t : Token} (h : next? text = some ⟨t, rest⟩) (hrest : rest.length < text.length) :
    ScansTo text [t] rest := by
  intro n hn
  cases n with
  | zero => omega
  | succ n =>
    refine ⟨n, by omega, ?_⟩
    rw [scanUpTo, h]
    rfl

/-- A separator is passed over. -/
theorem separator {c : Char} (hc : isSeparator c = true) : ScansTo (c :: rest) [] rest := by
  intro n hn
  rw [List.length_cons] at hn
  refine ⟨n, by omega, ?_⟩
  cases n with
  | zero => rfl
  | succ n => rw [scanUpTo, scanUpTo, next?_separator hc, List.nil_append]

/-- The tokens of a whole text. -/
theorem tokensOf_scan (h : ScansTo text ts []) : tokensOf (scan text) = ts := by
  obtain ⟨k, -, htokens⟩ := h text.length (Nat.le_refl _)
  rw [scan, htokens, scanUpTo_nil]
  exact List.append_nil ts

end ScansTo

/-! ### Tokens of the parts of a value

Behind a number a digit would go on it, and behind a text in single quotes another quote would. What
stands behind an item of a list is a comma or a bracket, and neither of them does. -/

/-- Whether a text can stand behind a number or a text without going on it. -/
def Detached (rest : List Char) : Prop :=
  ∀ c, rest.head? = some c → c.isDigit = false ∧ c ≠ '\''

theorem detached_nil : Detached [] := by
  rintro c ⟨⟩

theorem detached_cons {c : Char} (hc : c.isDigit = false ∧ c ≠ '\'') (rest : List Char) :
    Detached (c :: rest) := by
  rintro _ ⟨⟩
  exact hc

section Parts

variable {rest : List Char}

/-- A character that is a token. -/
theorem scansTo_symbol {c : Char} {t : Token} (hc : isSeparator c = false)
    (h : readFrom c rest = ⟨t, rest⟩) : ScansTo (c :: rest) [t] rest :=
  .next (h ▸ next?_of_not_separator hc rest) (Nat.lt_succ_self _)

/-- A text between single quotes is one token, whatever characters it holds. -/
theorem scansTo_writeSingle (text : List Char) (h : Detached rest) :
    ScansTo (Text.writeSingle text ++ rest) [.text (String.ofList text)] rest := by
  have hwritten : Text.writeSingle text ++ rest =
      '\'' :: (Text.doubleSingles text ++ '\'' :: rest) := by
    simp [Text.writeSingle]
  have hrest : rest.head? ≠ some '\'' := fun hquote => (h '\'' hquote).2 rfl
  rw [hwritten]
  refine .next ?_ (by simp only [List.length_cons, List.length_append]; omega)
  rw [next?_of_not_separator rfl, readFrom, Text.readSingle_writeSingle text rest hrest]
  rfl

/-- A text between double quotes is one token, whatever characters it holds and whatever stands
behind it. -/
theorem scansTo_writeDouble (text : List Char) :
    ScansTo (Text.writeDouble text ++ rest) [.text (String.ofList text)] rest := by
  have hwritten : Text.writeDouble text ++ rest =
      '"' :: (Text.escapeDoubles text ++ '"' :: rest) := by
    simp [Text.writeDouble]
  rw [hwritten]
  refine .next ?_ (by simp only [List.length_cons, List.length_append]; omega)
  rw [next?_of_not_separator rfl, readFrom, Text.readDouble_writeDouble text rest]
  rfl

/-- The digits of a number are one token. What it stands for stops at the largest number. -/
theorem scansTo_toDigits (n : Nat) (h : Detached rest) :
    ScansTo (Nat.toDigits 10 n ++ rest) [.number (Int64.ofNat (min n Numeral.maxInt))] rest := by
  have hall : ∀ c ∈ Nat.toDigits 10 n, c.isDigit = true := fun c hc =>
    Nat.isDigit_of_mem_toDigits (by decide) (by decide) hc
  have hends : rest.takeWhile Char.isDigit = [] ∧ rest.dropWhile Char.isDigit = rest := by
    rcases rest with _ | ⟨c, rest⟩
    · exact ⟨rfl, rfl⟩
    · simp [(h c rfl).1]
  have hsplit : Numeral.digits (Nat.toDigits 10 n ++ rest) = (Nat.toDigits 10 n, rest) := by
    rw [Numeral.digits, List.takeWhile_append_of_pos hall, List.dropWhile_append_of_pos hall,
      hends.1, hends.2, List.append_nil]
  have hpos : 0 < (Nat.toDigits 10 n).length := Nat.length_toDigits_pos
  refine .next ?_ (by rw [List.length_append]; omega)
  cases hdigits : Nat.toDigits 10 n with
  | nil => simp [hdigits] at hpos
  | cons c digits =>
    have hc : c.isDigit = true := hall c (hdigits ▸ List.mem_cons_self)
    have hsep : isSeparator c = false :=
      isSeparator_of_isNameChar (by simp [isNameChar, Char.isAlphanum, hc])
    rw [hdigits] at hsplit
    rw [List.cons_append] at hsplit ⊢
    rw [next?_of_not_separator hsep, readFrom, if_pos hc, readNumber, hsplit]
    simp only [Numeral.valueUpTo, ← hdigits, Numeral.value_repr]

end Parts

end Lexeme

/-! ### Unary expressions

Values are written as unary expressions, and items of lists are expressions of the lowest level. The
levels between them add nothing to the tokens or to the structure. -/

/-- A unary expression, as an expression. -/
def Expr.Derivation.ofUnary (d : Derivation (.level .unary)) :
    Derivation (.level (.chain .or)) :=
  .chain (k := .or) (.chain (k := .and) (.alone (.chain (k := .sum) (.chain (k := .term) d .stop)
    .stop)) .stop) .stop

@[simp] theorem Expr.Derivation.tokens_ofUnary (d : Derivation (.level .unary)) :
    (ofUnary d).tokens = d.tokens := by
  simp only [ofUnary, tokens, List.append_nil]
  rfl

@[simp] theorem Expr.Derivation.ast_ofUnary (d : Derivation (.level .unary)) :
    (ofUnary d).ast = d.ast := rfl

/-! ### What comes back

A list with the least number in it anywhere, however deep, does not come back as it was. The
inductions here and below have two parts, one for values and one for lists of them. -/

namespace Value

/-- Whether a number occurs in a value. -/
inductive Holds (n : Int64) : Value → Prop where
  | here : Holds n (.number n)
  | inside {v : Value} {items : List Value} : v ∈ items → Holds n v → Holds n (.list items)

mutual

/-- The value that comes back when the written form of a value is read: the least number is the next
one. -/
def reread : Value → Value
  | number n => number (if n = -9223372036854775808 then -9223372036854775807 else n)
  | text s => text s
  | list items => list (rereadItems items)

/-- The values that come back for the items of a list. -/
def rereadItems : List Value → List Value
  | [] => []
  | v :: rest => v.reread :: rereadItems rest

end

/-- What occurs in a number is that number, -/
theorem holds_number_iff {n m : Int64} : (number m).Holds n ↔ m = n := by
  constructor
  · rintro ⟨⟩
    rfl
  · rintro rfl
    exact .here

/-- in a text no number does, -/
theorem not_holds_text {n : Int64} {s : String} : ¬(text s).Holds n := by
  rintro ⟨⟩

/-- and in a list what occurs in one of its items. -/
theorem holds_list_iff {n : Int64} {items : List Value} :
    (list items).Holds n ↔ ∃ v ∈ items, v.Holds n := by
  constructor
  · rintro ⟨⟩
    next v h hv => exact ⟨v, hv, h⟩
  · rintro ⟨v, hv, h⟩
    exact .inside hv h

mutual

/-- A value comes back as it was if and only if the least number does not occur in it. -/
theorem reread_eq_self_iff :
    (v : Value) → (v.reread = v ↔ ¬v.Holds (-9223372036854775808))
  | number n => by
    rw [reread, number.injEq, holds_number_iff]
    split
    next h => simp [h]
    next h => simp [h]
  | text s => by simp [reread, not_holds_text]
  | list items => by
    rw [reread, list.injEq, holds_list_iff, rereadItems_eq_self_iff items]
    simp

theorem rereadItems_eq_self_iff : (items : List Value) →
    (rereadItems items = items ↔ ∀ v ∈ items, ¬v.Holds (-9223372036854775808))
  | [] => by simp [rereadItems]
  | v :: rest => by
    rw [rereadItems, List.cons.injEq, List.forall_mem_cons, reread_eq_self_iff v,
      rereadItems_eq_self_iff rest]

end

/-! ### Derivation trees of values

A negative number is a minus and its digits, which are two tokens, so its tree has a sign in it. -/

/-- The token for the digits of a number. -/
def magnitude (n : Int64) : Int64 :=
  Int64.ofNat (min n.toInt.natAbs Numeral.maxInt)

/-- A number with its sign. -/
def signedNumber (n : Int64) : Derivation (.level .unary) :=
  if n.toInt < 0 then .signed .neg (.bare (.number (magnitude n))) else .bare (.number (magnitude n))

mutual

/-- The derivation tree of the written form of a value. -/
def tree : Value → Derivation (.level .unary)
  | number n => signedNumber n
  | text s => .bare (.text s)
  | list [] => .bare (.list .noItems)
  | list (v :: rest) => .bare (.list (.someItems (.ofUnary v.tree) (treeRest rest)))

/-- The derivation tree of the rest of a list, each item behind a comma. -/
def treeRest : List Value → Derivation .moreItems
  | [] => .last
  | v :: rest => .next (.ofUnary v.tree) (treeRest rest)

end

/-! ### The tokens of the written form

The written form of a list grows from left to right with a string that is put in front of each item.
`writtenRest_eq` takes that string out, so that the items can be looked at one by one. -/

theorem toList_decimal (n : Int64) :
    (decimal n).toList =
      if n.toInt < 0 then '-' :: Nat.toDigits 10 n.toInt.natAbs
      else Nat.toDigits 10 n.toInt.natAbs := by
  rw [decimal]
  cases n.toInt with
  | ofNat m =>
    rw [if_neg (by simp)]
    exact String.toList_ofList
  | negSucc m =>
    have hwritten : toString (Int.negSucc m) = "-" ++ Nat.repr (m + 1) := rfl
    rw [if_pos (Int.negSucc_lt_zero m), hwritten]
    simp [Nat.repr]

theorem writtenRest_eq (before : String) (items : List Value) :
    writtenRest before items = before ++ writtenRest "" items := by
  induction items generalizing before with
  | nil => simp [writtenRest]
  | cons v rest ih =>
    rw [writtenRest, writtenRest, ih, ih ("" ++ ", " ++ v.written)]
    simp [String.append_assoc]

theorem toList_writtenRest_cons (v : Value) (rest : List Value) :
    (writtenRest "" (v :: rest)).toList =
      ',' :: ' ' :: (v.written.toList ++ (writtenRest "" rest).toList) := by
  rw [writtenRest, writtenRest_eq]
  simp

/-- Behind an item there is a comma or what stands behind the list. -/
theorem detached_writtenRest (items : List Value) {rest : List Char} (h : Lexeme.Detached rest) :
    Lexeme.Detached ((writtenRest "" items).toList ++ rest) := by
  cases items with
  | nil => exact h
  | cons v items =>
    rw [toList_writtenRest_cons]
    exact Lexeme.detached_cons (by decide) _

end Value

namespace Lexeme

open Value

theorem scansTo_decimal (n : Int64) {rest : List Char} (h : Detached rest) :
    ScansTo ((decimal n).toList ++ rest) (signedNumber n).tokens rest := by
  rw [toList_decimal, signedNumber]
  split
  · have minus {rest : List Char} : ScansTo ('-' :: rest) [.minus] rest := scansTo_symbol rfl rfl
    exact minus.trans (scansTo_toDigits _ h)
  · exact scansTo_toDigits _ h

mutual

/-- **The written form of a value is cut into the tokens of its tree.** -/
theorem scansTo_written : (v : Value) → {rest : List Char} → Detached rest →
    ScansTo (v.written.toList ++ rest) v.tree.tokens rest
  | .number n, rest, h => scansTo_decimal n h
  | .text s, rest, h => by
    rw [written, String.toList_ofList]
    have scanned := scansTo_writeSingle s.toList h
    rwa [String.ofList_toList] at scanned
  | .list [], rest, h => by
    have opened : ScansTo ('[' :: ']' :: rest) [.leftBracket] (']' :: rest) :=
      scansTo_symbol rfl rfl
    have closed : ScansTo (']' :: rest) [.rightBracket] rest := scansTo_symbol rfl rfl
    exact opened.trans closed
  | .list (v :: items), rest, h => by
    have hbracket : Detached (']' :: rest) := detached_cons (by decide) rest
    have opened {text : List Char} : ScansTo ('[' :: text) [.leftBracket] text :=
      scansTo_symbol rfl rfl
    have first := scansTo_written v (detached_writtenRest items hbracket)
    have others := scansTo_writtenRest items hbracket
    have closed : ScansTo (']' :: rest) [.rightBracket] rest := scansTo_symbol rfl rfl
    have scanned := ((opened.trans first).trans others).trans closed
    rw [written, writtenRest_eq]
    simpa [tree, Expr.Derivation.tokens] using scanned

/-- The rest of a list is cut into the tokens of its tree. -/
theorem scansTo_writtenRest : (items : List Value) → {rest : List Char} → Detached rest →
    ScansTo ((writtenRest "" items).toList ++ rest) (treeRest items).tokens rest
  | [], rest, h => fun n hn => ⟨n, hn, rfl⟩
  | v :: items, rest, h => by
    have comma {text : List Char} : ScansTo (',' :: ' ' :: text) [.comma] text :=
      (scansTo_symbol rfl rfl).trans (.separator (c := ' ') rfl)
    have first := scansTo_written v (detached_writtenRest items h)
    have scanned := (comma.trans first).trans (scansTo_writtenRest items h)
    rw [toList_writtenRest_cons]
    simpa [treeRest, Expr.Derivation.tokens] using scanned

end

end Lexeme

/-! ### The value of the written form

Only the numbers have something to show. The digits are read up to the largest number; the minus is
applied to what was read. -/

namespace Value

/-- The digits of a number that is not negative have its value. -/
theorem magnitude_of_nonneg {n : Int64} (h : ¬n.toInt < 0) : magnitude n = n := by
  have hlt := n.toInt_lt
  have hmin : min n.toInt.natAbs Numeral.maxInt = n.toInt.natAbs := by
    rw [Numeral.maxInt]
    omega
  rw [magnitude, hmin, ← Int64.toInt_inj, Int64.toInt_ofNat_of_lt (by omega)]
  omega

/-- The digits of a negative number and the minus in front of them have its value, unless there are
too many. -/
theorem neg_magnitude {n : Int64} (h : n.toInt < 0) :
    -magnitude n = if n = -9223372036854775808 then -9223372036854775807 else n := by
  have hle := n.le_toInt
  have hneg : (-magnitude n).toInt = -(min n.toInt.natAbs Numeral.maxInt : Nat) :=
    Int64.toInt_neg_ofNat_of_le (by rw [Numeral.maxInt]; omega)
  rw [← Int64.toInt_inj, hneg]
  split
  next hn =>
    subst hn
    decide
  next hn =>
    have hleast : n.toInt ≠ -9223372036854775808 := fun heq => hn (Int64.toInt_inj.mp heq)
    rw [Numeral.maxInt]
    omega

theorem eval_signedNumber (vars : Variables) (n : Int64) :
    Expr.eval vars (signedNumber n).ast = .ok (number n).reread := by
  rw [signedNumber, reread]
  split
  next h =>
    rw [← neg_magnitude h]
    rfl
  next h =>
    have hn : n ≠ -9223372036854775808 := by
      rintro rfl
      exact h (by decide)
    rw [if_neg hn]
    exact congrArg (fun m => Except.ok (number m)) (magnitude_of_nonneg h)

mutual

/-- **The structure of the written form has the value that comes back.** -/
theorem eval_tree (vars : Variables) : (v : Value) → Expr.eval vars v.tree.ast = .ok v.reread
  | number n => eval_signedNumber vars n
  | text s => rfl
  | list [] => rfl
  | list (v :: rest) => by
    have first := eval_tree vars v
    have others := evalItems_treeRest vars rest
    show Expr.eval vars (.list (v.tree.ast :: (treeRest rest).ast)) = _
    simp only [Expr.eval, Expr.evalItems, first, others, reread, rereadItems]

theorem evalItems_treeRest (vars : Variables) : (items : List Value) →
    Expr.evalItems vars (treeRest items).ast = .ok (rereadItems items)
  | [] => rfl
  | v :: rest => by
    have first := eval_tree vars v
    have others := evalItems_treeRest vars rest
    show Expr.evalItems vars (v.tree.ast :: (treeRest rest).ast) = _
    simp only [Expr.evalItems, first, others, rereadItems]

end

/-- A text that is cut into the tokens of the tree of a value is an expression, which has the value
that comes back. -/
theorem parse_of_scansTo {s : String} {v : Value} (h : Lexeme.ScansTo s.toList v.tree.tokens []) :
    ∃ e, Expression.parse s = .ok e ∧ ∀ vars, e.eval vars = .ok v.reread := by
  have htokens := h.tokensOf_scan
  rw [← Expr.Derivation.tokens_ofUnary] at htokens
  refine ⟨⟨trimmed s, v.tree.ast⟩, ?_, fun vars => eval_tree vars v⟩
  rw [Expression.parse, Expr.read_of_derivation _ htokens.symm]
  rfl

/-- The written form of a value is an expression, which has the value that comes back. -/
theorem parse_written (v : Value) :
    ∃ e, Expression.parse v.written = .ok e ∧ ∀ vars, e.eval vars = .ok v.reread := by
  have scanned := Lexeme.scansTo_written v Lexeme.detached_nil
  rw [List.append_nil] at scanned
  exact parse_of_scansTo scanned

end Value

/-- **What `string()` writes is read back.** For every value it gives a text that is an expression,
and the value of this expression, with whatever variables, is the value that was written, but for
the least number of 64 bits, in the place of which the next one comes back. The same holds of the
displayed form of a list. -/
theorem string_read_back :
    (∀ (v : Value) (vars vars' : Variables), ∃ (s : String) (e : Expression),
      Function.call vars "string" [v] = .ok (.text s) ∧ Expression.parse s = .ok e ∧
        e.eval vars' = .ok v.reread ∧
          (e.eval vars' = .ok v ↔ ¬v.Holds (-9223372036854775808))) ∧
      ∀ (items : List Value) (vars' : Variables), ∃ e : Expression,
        Expression.parse (Value.list items).display = .ok e ∧
          e.eval vars' = .ok (Value.list items).reread ∧
            (e.eval vars' = .ok (.list items) ↔
              ¬(Value.list items).Holds (-9223372036854775808)) := by
  constructor
  · intro v vars vars'
    obtain ⟨e, hparse, heval⟩ := v.parse_written
    refine ⟨v.written, e, rfl, hparse, heval vars', ?_⟩
    rw [heval, Except.ok.injEq, Value.reread_eq_self_iff]
  · intro items vars'
    obtain ⟨e, hparse, heval⟩ := (Value.list items).parse_written
    refine ⟨e, hparse, heval vars', ?_⟩
    rw [heval, Except.ok.injEq, Value.reread_eq_self_iff]

end ExScript
