import ExScript.Proofs.Expr.ReadBack
import ExScript.Proofs.Script.Bars
import ExScript.Proofs.Script.Separators

/-!
# Expressions in a list

A text that is an expression can be put into brackets with others, commas between them, and the
whole is the list of these expressions. What could go wrong is at the ends of the texts. The tokens
of a text are read one after the other with nothing behind the last, and in the list a comma or a
bracket is behind it. No token goes on with one of these, with one exception: a literal whose quote
was left open reaches to the end of the text, and would take in the comma and all that follows. For
blanks behind a text it is the same, and so they can be left away.

Whether a quote is open behind a text is asked with `Script.openQuote`, which follows the reader of
lines. Outside of literals that reader knows of no quotes but those that begin one, so it can be
asked behind every token.

## How the texts are put together

The unit is a token with something behind it. For each reader of tokens there is a lemma with the
same shape: behind the text stands a character that ends tokens, and then anything; the reader gives
the same token, and what was left is left with the character and the rest behind it
(`Lexeme.followedBy`). From there it goes up to the first lexeme, to all lexemes of a text, and to
the tokens of a list, where what is behind one text is the next one.

That the tokens of a text are those of an expression is taken apart and put together again with
derivation trees: a text has one by soundness, the trees of the texts are the items of a list, and
the list is read by completeness. So nothing is said about readers of expressions here.

## Where it would fail

* An open quote, as above: `'a` alone is read as a text, and `['a, 1]` is not a list of two.
* A token that no expression has. Blanks in front of it are not always separators, so the lemmas on
  blanks ask that all tokens have a meaning, which is so in an expression
  (`Expression.unknown_not_mem`).
* A text with a line break, which cannot stand on a line. This is a matter of `IsConstant` and not
  of the list.

## Main definitions

* `Expression.Denotes` — a text with this value whatever the variables
* `Expression.IsConstant` — a text with such a value, as it is written on a line
* `Expression.listed` — texts in brackets

## Main results

* `Lexeme.scansTo_append` — the tokens of a text are the same with more behind it
* `Expression.parse_trimEnd` — an expression without the blanks behind it
* `Expression.Denotes.listed` — texts that denote values, in brackets
* `Expression.IsConstant.of_isLiteral` — literals are constants
-/

namespace ExScript

open ExScript.Expr (Derivation tokensOf)
open ExScript.Script (openQuote)

/-! ### Blanks around a text

What is trimmed is trimmed from both ends, and a text in the middle of another one is only at one of
them. -/

namespace Text

variable {c : Char} {text : List Char}

theorem trim_cons_blank (hc : isBlank c = true) (text : List Char) :
    trim (c :: text) = trim text := by
  rw [trim, trim, trimStart, List.dropWhile_cons_of_pos hc]
  rfl

theorem trimEnd_trimEnd (text : List Char) : trimEnd (trimEnd text) = trimEnd text :=
  List.rdropWhile_idempotent isBlank text

/-- What stands in front of a text that is not blank does not matter at its end. -/
theorem trimEnd_append_of_ne_nil (h : trimEnd text ≠ []) (before : List Char) :
    trimEnd (before ++ text) = before ++ trimEnd text := by
  have kept : (text.reverse.dropWhile isBlank).isEmpty = false :=
    List.isEmpty_eq_false_iff.mpr fun hnil => h (by rw [trimEnd, hnil, List.reverse_nil])
  simp [trimEnd, List.dropWhile_append, kept]

/-- With something in front that does not begin with a blank only the end is trimmed. -/
theorem trim_append {front : List Char} (hfront : ∃ c rest, front = c :: rest ∧ isBlank c = false)
    (h : trimEnd text ≠ []) : trim (front ++ text) = front ++ trimEnd text := by
  obtain ⟨c, rest, rfl, hc⟩ := hfront
  rw [trim, List.cons_append, trimStart_cons hc, ← List.cons_append]
  exact trimEnd_append_of_ne_nil h (c :: rest)

/-- Blanks at the end may be left away first. -/
theorem trim_trimEnd (text : List Char) : trim (trimEnd text) = trim text := by
  induction text with
  | nil => rfl
  | cons c text ih =>
    cases hc : isBlank c with
    | false => rw [trimEnd_cons hc, trim, trim, trimStart_cons hc, trimStart_cons hc,
        ← trimEnd_cons hc, trimEnd_trimEnd]
    | true =>
      by_cases hnil : trimEnd text = []
      · have hall : ∀ d ∈ text, isBlank d = true := List.rdropWhile_eq_nil_iff.mp hnil
        have nothing : trimEnd (c :: text) = [] :=
          List.rdropWhile_eq_nil_iff.mpr (List.forall_mem_cons.mpr ⟨hc, hall⟩)
        rw [nothing, trim_cons_blank hc, ← ih, hnil]
      · have kept : trimEnd (c :: text) = c :: trimEnd text := trimEnd_append_of_ne_nil hnil [c]
        rw [kept, trim_cons_blank hc, trim_cons_blank hc, ih]

end Text

/-! ### Tokens of expressions -/

/-- Every token of an expression has a meaning. -/
theorem Expr.Derivation.unknown_not_mem {s : Symbol} (d : Derivation s) (c : Char) :
    Token.unknown c ∉ d.tokens := by
  induction d with
  | more op => cases op <;> simp_all [tokens, BinaryOp.token]
  | compare op => cases op <;> simp_all [tokens, BinaryOp.token]
  | signed sign => cases sign <;> simp_all [tokens, Sign.token]
  | _ => simp_all [tokens]

/-- Behind the expression that a text denotes there is a tree with the tokens of the text. -/
theorem Expression.exists_derivation {text : String} {e : Expression}
    (h : Expression.parse text = .ok e) :
    ∃ d : Derivation (.level (.chain .or)),
      d.tokens = tokensOf (Lexeme.scan text.toList) ∧ e = ⟨trimmed text, d.ast⟩ := by
  rw [Expression.parse] at h
  split at h
  next tree hread =>
    cases h
    obtain ⟨d, htokens, rfl⟩ := Expr.exists_derivation_of_read hread
    exact ⟨d, htokens, rfl⟩
  next => cases h

/-- And a tree with the tokens of a text is what the text denotes. -/
theorem Expression.parse_of_derivation {text : String} (d : Derivation (.level (.chain .or)))
    (h : d.tokens = tokensOf (Lexeme.scan text.toList)) :
    Expression.parse text = .ok ⟨trimmed text, d.ast⟩ := by
  rw [Expression.parse, Expr.read_of_derivation d h]

theorem Expression.unknown_not_mem {text : String} {e : Expression}
    (h : Expression.parse text = .ok e) (c : Char) :
    Token.unknown c ∉ tokensOf (Lexeme.scan text.toList) := by
  obtain ⟨d, htokens, -⟩ := exists_derivation h
  exact htokens ▸ d.unknown_not_mem c

/-- A line is not cut in an expression: the bars in it are in literals or two of them together. -/
theorem Expression.cutAtBar_of_parse {text : String} {e : Expression}
    (h : Expression.parse text = .ok e) :
    Script.cutAtBar none text.toList = (text.toList, none) := by
  have known : ∀ l ∈ Lexeme.scan text.toList, ∀ c, l.token ≠ .unknown c := fun l hl c hc =>
    unknown_not_mem h c (hc ▸ List.mem_map_of_mem hl)
  have noBar : ((Lexeme.scan text.toList).find? fun l => l.token == .unknown '|') = none :=
    List.find?_eq_none.mpr fun l hl => by simpa using known l hl '|'
  have hcut := Script.cutAtBar_of_scanUpTo (Nat.le_refl text.toList.length)
    fun l hl hc => absurd hc (known l hl _)
  rwa [← Lexeme.scan, noBar] at hcut

namespace Lexeme

/-! ### Fuel and separators

The scanner counts down the length of the text. A larger count does not change what it finds, and
with the count out of the way it has two equations: there is no lexeme, or a first one and those
behind it. -/

theorem scanUpTo_eq_scan {n : Nat} {text : List Char} (hn : text.length ≤ n) :
    scanUpTo n text = scan text := by
  induction n using Nat.strong_induction_on generalizing text with
  | _ n ih =>
    cases n with
    | zero =>
      obtain rfl := List.eq_nil_of_length_eq_zero (Nat.le_zero.mp hn)
      rfl
    | succ n =>
      rw [scanUpTo, scan]
      cases hlength : text.length with
      | zero =>
        obtain rfl := List.eq_nil_of_length_eq_zero hlength
        rfl
      | succ k =>
        rw [scanUpTo]
        cases hnext : next? text with
        | none => rfl
        | some l =>
          have hrest := Script.length_of_next hnext
          dsimp only
          rw [ih n (Nat.lt_succ_self n) (by omega), ih k (by omega) (by omega)]

theorem scan_eq_nil {text : List Char} (h : next? text = none) : scan text = [] := by
  rw [scan]
  cases text.length with
  | zero => rfl
  | succ k => rw [scanUpTo, h]

theorem scan_eq_cons {text : List Char} {l : Lexeme} (h : next? text = some l) :
    scan text = l :: scan l.rest := by
  have hshort := Script.length_of_next h
  obtain ⟨k, hk⟩ := Nat.exists_eq_succ_of_ne_zero (Nat.ne_zero_of_lt hshort)
  rw [scan, hk, scanUpTo, h]
  exact congrArg (l :: ·) (scanUpTo_eq_scan (by omega))

/-- The lexemes of a text are its first one and those of the text behind that. -/
theorem scan_eq_cons_iff {text : List Char} {l : Lexeme} {others : List Lexeme} :
    scan text = l :: others ↔ next? text = some l ∧ scan l.rest = others := by
  constructor
  · intro h
    cases hnext : next? text with
    | none =>
      rw [scan_eq_nil hnext] at h
      cases h
    | some first =>
      rw [scan_eq_cons hnext] at h
      obtain ⟨rfl, hothers⟩ := List.cons.inj h
      exact ⟨rfl, hothers⟩
  · rintro ⟨hnext, rfl⟩
    exact scan_eq_cons hnext

/-- A text without lexemes is made of separators. -/
theorem separator_of_next_none {text : List Char} (h : next? text = none) :
    ∀ c ∈ text, isSeparator c = true :=
  List.dropWhile_eq_nil_iff.mp (next?_eq_none_iff.mp h)

/-- A separator at the front is passed over. -/
theorem scan_separator {c : Char} (hc : isSeparator c = true) (text : List Char) :
    scan (c :: text) = scan text := by
  have same : next? (c :: text) = next? text := next?_separator hc text
  cases hnext : next? text with
  | none => rw [scan_eq_nil hnext, scan_eq_nil (same.trans hnext)]
  | some l => rw [scan_eq_cons hnext, scan_eq_cons (same.trans hnext)]

/-! ### What can stand behind a token

Numbers and names go on with characters of a class, and none of the ends is in it. Most symbols are
one character, and those of two have no end of a token as their second. -/

/-- Whether no token goes on with a character, unless a quote is open: a comma, a bracket that
closes, or a blank. -/
def EndsToken (c : Char) : Prop :=
  c = ',' ∨ c = ']' ∨ c = ')' ∨ isBlank c = true

instance : DecidablePred EndsToken :=
  fun c => inferInstanceAs (Decidable (c = ',' ∨ c = ']' ∨ c = ')' ∨ isBlank c = true))

section Parts

variable {c d : Char} {text more : List Char}

/-- What is not a quote opens none. -/
theorem openQuote_cons (hsingle : c ≠ '\'') (hdouble : c ≠ '"') (text : List Char) :
    openQuote none (c :: text) = openQuote none text := by
  rw [openQuote] <;> simp_all

/-- In a text without marks there are no quotes. -/
theorem openQuote_of_plain (h : Script.IsPlain text) : openQuote none text = none := by
  induction text with
  | nil => rfl
  | cons c text ih =>
    obtain ⟨hc, htext⟩ := List.forall_mem_cons.mp h
    simp only [Script.isMark, Bool.or_eq_false_iff, beq_eq_false_iff_ne] at hc
    rw [openQuote_cons hc.1.2 hc.2, ih htext]

/-- What is dropped by a class without quotes opens none. -/
theorem openQuote_dropWhile {p : Char → Bool} (hp : p '\'' = false ∧ p '"' = false)
    (text : List Char) : openQuote none (text.dropWhile p) = openQuote none text := by
  induction text with
  | nil => rfl
  | cons c text ih =>
    cases hc : p c with
    | false => rw [List.dropWhile_cons_of_neg (by simp [hc])]
    | true =>
      have hsingle : c ≠ '\'' := Script.ne_of_class hc hp.1
      have hdouble : c ≠ '"' := Script.ne_of_class hc hp.2
      rw [List.dropWhile_cons_of_pos hc, ih, openQuote_cons hsingle hdouble]

/-- No name goes on with an end of a token. -/
theorem EndsToken.not_isNameChar (h : EndsToken d) : isNameChar d = false := by
  rcases h with rfl | rfl | rfl | hblank
  · decide
  · decide
  · decide
  · rw [isNameChar, Bool.or_eq_false_iff, beq_eq_false_iff_ne]
    constructor
    · refine Bool.eq_false_iff.mpr fun hd => ?_
      rw [Script.isBlank_of_isAlphanum hd] at hblank
      cases hblank
    · rintro rfl
      exact absurd hblank (by decide)

theorem EndsToken.not_isDigit (h : EndsToken d) : d.isDigit = false := by
  have name := h.not_isNameChar
  simp only [isNameChar, Char.isAlphanum, Bool.or_eq_false_iff] at name
  exact name.1.2

/-- Only characters that are no ends of tokens have to be told apart from an end of a token. -/
theorem EndsToken.ne (h : EndsToken d) {e : Char} (he : ¬EndsToken e) : d ≠ e := by
  rintro rfl
  exact he h

/-- The token and what is behind it, with more behind that. -/
def followedBy (l : Lexeme) (more : List Char) : Lexeme :=
  ⟨l.token, l.rest ++ more⟩

/-! The readers of numbers and names, each with an end of a token behind the text. -/

theorem readNumber_append (h : EndsToken d) (text more : List Char) :
    readNumber (text ++ d :: more) = (readNumber text).followedBy (d :: more) := by
  have digits : Numeral.digits (text ++ d :: more) =
      ((Numeral.digits text).1, (Numeral.digits text).2 ++ d :: more) := by
    rw [Numeral.digits, Text.takeWhile_break h.not_isDigit, Text.dropWhile_break h.not_isDigit]
    rfl
  rw [readNumber, digits]
  rfl

theorem readName_append (h : EndsToken d) (start text more : List Char) :
    readName start (text ++ d :: more) = (readName start text).followedBy (d :: more) := by
  rw [readName, Text.takeWhile_break h.not_isNameChar, Text.dropWhile_break h.not_isNameChar]
  rfl

theorem readScopedName_append (h : EndsToken d) (c : Char) (text more : List Char) :
    readScopedName c (text ++ d :: more) = (readScopedName c text).followedBy (d :: more) := by
  cases text with
  | nil =>
    have hcolon : d ≠ ':' := h.ne (by decide)
    have unscoped : readScopedName c ([] ++ d :: more) = readName [c] ([] ++ d :: more) := by
      rw [List.nil_append, readScopedName]
      rintro rest ⟨⟩
      exact hcolon rfl
    rw [unscoped, readName_append h]
    rfl
  | cons e text =>
    by_cases hcolon : e = ':'
    · subst hcolon
      rw [List.cons_append, readScopedName, readScopedName]
      split
      · exact readName_append h ..
      · exact readName_append h [c] (':' :: text) more
    · have unscoped (others : List Char) :
          readScopedName c (e :: others) = readName [c] (e :: others) := by
        rw [readScopedName]
        rintro rest ⟨⟩
        exact hcolon rfl
      rw [List.cons_append, unscoped, unscoped]
      exact readName_append h [c] (e :: text) more

/-! And none of them leaves a quote open, or takes one away. -/

theorem openQuote_readNumber (text : List Char) :
    openQuote none (readNumber text).rest = openQuote none text :=
  openQuote_dropWhile (by decide) text

theorem openQuote_readName (start text : List Char) :
    openQuote none (readName start text).rest = openQuote none text :=
  openQuote_dropWhile (by decide) text

theorem openQuote_readScopedName (c : Char) (text : List Char) :
    openQuote none (readScopedName c text).rest = openQuote none text := by
  rw [readScopedName.eq_def]
  split
  · split
    · rw [openQuote_readName, openQuote_cons (by decide) (by decide)]
    · rw [openQuote_readName]
  · rw [openQuote_readName]

/-! ### Literals

A literal that has its closing quote ends there, whatever is behind. Between single quotes two of
them are one of the text, so the character behind may not be another quote, which it is not, being
an end of a token. Between double quotes a backslash takes the next character with it; there is one,
or the quote would be open. -/

theorem readSingle_append (hd : d ≠ '\'') (h : openQuote (some .single) text = none)
    (more : List Char) :
    Text.readSingle (text ++ d :: more) =
        ((Text.readSingle text).1, (Text.readSingle text).2 ++ d :: more) ∧
      openQuote none (Text.readSingle text).2 = none := by
  fun_induction Text.readSingle text with
  | case1 => cases h
  | case2 rest ih =>
    obtain ⟨hread, hrest⟩ := ih h
    rw [List.cons_append, List.cons_append, Text.readSingle, hread]
    exact ⟨rfl, hrest⟩
  | case3 rest hrest =>
    refine ⟨?_, h⟩
    rw [List.cons_append, Text.readSingle]
    rintro others hothers
    cases rest with
    | nil =>
      cases hothers
      exact hd rfl
    | cons e rest =>
      cases hothers
      exact hrest _ rfl
  | case4 c rest _ hc ih =>
    have hne : c ≠ '\'' := fun heq => hc heq
    rw [openQuote] at h
    · obtain ⟨hread, hrest⟩ := ih h
      rw [List.cons_append, Text.readSingle_cons_of_ne hne, hread]
      exact ⟨rfl, hrest⟩
    all_goals simp_all

theorem readDouble_append (h : openQuote (some .double) text = none) (more : List Char) :
    Text.readDouble (text ++ more) =
        ((Text.readDouble text).1, (Text.readDouble text).2 ++ more) ∧
      openQuote none (Text.readDouble text).2 = none := by
  fun_induction Text.readDouble text with
  | case1 => cases h
  | case2 rest => exact ⟨rfl, h⟩
  | case3 => cases h
  | case4 c rest ih =>
    obtain ⟨hread, hrest⟩ := ih h
    rw [List.cons_append, List.cons_append, Text.readDouble, hread]
    exact ⟨rfl, hrest⟩
  | case5 c rest hquote hlast hescape ih =>
    have hb : c ≠ '\\' := by
      rintro rfl
      cases rest with
      | nil => exact hlast rfl rfl
      | cons e rest => exact hescape _ _ rfl rfl
    have hq : c ≠ '"' := fun heq => hquote heq
    rw [openQuote] at h
    · obtain ⟨hread, hrest⟩ := ih h
      rw [List.cons_append, Text.readDouble_cons_of_ne hb hq, hread]
      exact ⟨rfl, hrest⟩
    all_goals simp_all

/-! ### Symbols

The reader of symbols looks at the second character before it decides on the first. -/

/-- The second character of a symbol is not the one behind the text. -/
theorem EndsToken.exists_of_append (h : EndsToken d) {e : Char} (he : ¬EndsToken e)
    {others : List Char} (heq : text ++ d :: more = e :: others) : ∃ rest, text = e :: rest := by
  cases text with
  | nil =>
    cases heq
    exact absurd h he
  | cons c rest =>
    cases heq
    exact ⟨rest, rfl⟩

theorem readSymbol_append (h : EndsToken d) (c : Char) (text more : List Char) :
    readSymbol c (text ++ d :: more) = (readSymbol c text).followedBy (d :: more) := by
  have second {e : Char} (he : ¬EndsToken e) (hno : ∀ rest, text = e :: rest → False) (others) :
      text ++ d :: more = e :: others → False := fun heq => by
    obtain ⟨rest, hrest⟩ := h.exists_of_append he heq
    exact hno rest hrest
  have second' {p : Prop} {e : Char} (he : ¬EndsToken e)
      (hno : ∀ rest, p → text = e :: rest → False) (others) (hp : p) :
      text ++ d :: more = e :: others → False :=
    second he (fun rest => hno rest hp) others
  -- only where a second character was looked for in vain is there anything to be shown
  fun_cases readSymbol c text with
  | case7 _ hdot =>
    rw [readSymbol]
    · rfl
    · exact second (by decide) hdot
  | case10 _ hequal htilde =>
    rw [readSymbol]
    · rfl
    · exact second (by decide) hequal
    · exact second (by decide) htilde
  | case14 _ hequal | case16 _ hequal =>
    rw [readSymbol]
    · rfl
    · exact second (by decide) hequal
  | case24 =>
    rw [readSymbol]
    · rfl
    all_goals first | assumption | exact second' (by decide) (by assumption)
  | _ => rfl

/-- The second character of a symbol is no quote. -/
theorem openQuote_readSymbol (c : Char) (text : List Char) :
    openQuote none (readSymbol c text).rest = openQuote none text := by
  fun_cases readSymbol c text with
  | case6 | case8 | case9 | case11 | case12 | case13 | case15 | case17 | case18 =>
    exact (openQuote_cons (by decide) (by decide) _).symm
  | _ => rfl

/-! ### Whole texts -/

/-- **A token is the same with an end of tokens behind the text**, and no quote is open behind the
token if none is behind the text. -/
theorem readFrom_append (hd : EndsToken d) (h : openQuote none (c :: text) = none)
    (more : List Char) :
    readFrom c (text ++ d :: more) = (readFrom c text).followedBy (d :: more) ∧
      openQuote none (readFrom c text).rest = none := by
  rw [readFrom, readFrom]
  split
  next hdigit =>
    exact ⟨readNumber_append hd (c :: text) more, (openQuote_readNumber (c :: text)).trans h⟩
  next =>
    split
    next hstart =>
      have hquote : c ≠ '\'' ∧ c ≠ '"' := by
        constructor <;> rintro rfl <;> exact absurd hstart (by decide)
      rw [openQuote_cons hquote.1 hquote.2] at h
      exact ⟨readScopedName_append hd c text more, (openQuote_readScopedName c text).trans h⟩
    next =>
      split
      next hdouble =>
        subst hdouble
        have h : openQuote (some .double) text = none := h
        obtain ⟨hread, hrest⟩ := readDouble_append h (d :: more)
        rw [hread]
        exact ⟨rfl, hrest⟩
      next hdouble =>
        split
        next hsingle =>
          subst hsingle
          have hne : d ≠ '\'' := hd.ne (by decide)
          have h : openQuote (some .single) text = none := h
          obtain ⟨hread, hrest⟩ := readSingle_append hne h more
          rw [hread]
          exact ⟨rfl, hrest⟩
        next hsingle =>
          rw [openQuote_cons hsingle hdouble] at h
          exact ⟨readSymbol_append hd c text more, (openQuote_readSymbol c text).trans h⟩

theorem openQuote_separators (text : List Char) :
    openQuote none (text.dropWhile isSeparator) = openQuote none text :=
  openQuote_dropWhile (by decide) text

/-- **The first lexeme of a text** is the same with an end of tokens behind the text. -/
theorem next?_append {l : Lexeme} (hd : EndsToken d) (h : openQuote none text = none)
    (hnext : next? text = some l) (more : List Char) :
    next? (text ++ d :: more) = some (l.followedBy (d :: more)) ∧ openQuote none l.rest = none := by
  rw [← openQuote_separators] at h
  obtain ⟨c, others, hstart, rfl⟩ := next?_eq_some_iff.mp hnext
  rw [hstart] at h
  obtain ⟨hread, hrest⟩ := readFrom_append hd h more
  refine ⟨next?_eq_some_iff.mpr ⟨c, others ++ d :: more, ?_, hread⟩, hrest⟩
  rw [List.dropWhile_append, hstart]
  rfl

/-- Separators at the end of a text are passed over. -/
theorem scansTo_separators (h : ∀ c ∈ text, isSeparator c = true) (more : List Char) :
    ScansTo (text ++ more) [] more := by
  induction text with
  | nil => exact fun n hn => ⟨n, hn, rfl⟩
  | cons c text ih =>
    obtain ⟨hc, htext⟩ := List.forall_mem_cons.mp h
    exact (ScansTo.separator hc).trans (ih htext)

/-- **The tokens of a text are the same with an end of tokens behind it**, if no quote is open
there. -/
theorem scansTo_append (hd : EndsToken d) (h : openQuote none text = none) (more : List Char) :
    ScansTo (text ++ d :: more) (tokensOf (scan text)) (d :: more) := by
  -- The induction is on the length, because a lexeme is followed by a shorter text and not by its
  -- tail.
  induction hlength : text.length using Nat.strong_induction_on generalizing text with
  | _ n ih =>
    subst hlength
    cases hnext : next? text with
    | none =>
      rw [scan_eq_nil hnext]
      exact scansTo_separators (separator_of_next_none hnext) (d :: more)
    | some l =>
      have hshort := Script.length_of_next hnext
      obtain ⟨hbehind, hclosed⟩ := next?_append hd h hnext more
      have head : ScansTo (text ++ d :: more) [l.token] (l.rest ++ d :: more) :=
        .next hbehind (by simp only [List.length_append]; omega)
      rw [scan_eq_cons hnext]
      exact head.trans (ih _ hshort hclosed rfl)

/-! ### Blanks behind a text

Some blanks separate tokens and the others are tokens that no expression has. So in an expression
all of them separate, and a text can be followed by blanks without a change as it can by a comma. -/

theorem openQuote_blanks (quote : Option Script.Quote) (h : ∀ c ∈ text, isBlank c = true) :
    openQuote quote text = quote := by
  induction text with
  | nil => cases quote <;> rfl
  | cons c text ih =>
    obtain ⟨hc, htext⟩ := List.forall_mem_cons.mp h
    have hsingle : c ≠ '\'' := Script.ne_of_class hc (by decide)
    have hdouble : c ≠ '"' := Script.ne_of_class hc (by decide)
    have hbackslash : c ≠ '\\' := Script.ne_of_class hc (by decide)
    rw [openQuote, ih htext] <;> simp_all

/-- Blanks close no quote. -/
theorem openQuote_of_blanks {quote : Option Script.Quote} {blanks : List Char}
    (hblanks : ∀ c ∈ blanks, isBlank c = true) (h : openQuote quote (text ++ blanks) = none) :
    openQuote quote text = none := by
  fun_induction openQuote quote text with
  | case1 quote => rwa [List.nil_append, openQuote_blanks quote hblanks] at h
  | case2 rest ih | case3 rest ih | case4 rest ih | case5 rest ih =>
    rw [List.cons_append, openQuote] at h
    exact ih h
  | case6 c rest ih =>
    rw [List.cons_append, List.cons_append, openQuote] at h
    exact ih h
  | case7 quote c rest hsingle hdouble hclose hclose' hpair ih =>
    rw [List.cons_append, openQuote] at h
    · exact ih h
    · exact hsingle
    · exact hdouble
    · exact hclose
    · exact hclose'
    · rintro e others rfl rfl heq
      cases rest with
      | nil =>
        subst heq
        rw [List.nil_append, openQuote,
          openQuote_blanks _ (List.forall_mem_cons.mp hblanks).2] at h
        cases h
      | cons d rest =>
        cases heq
        exact hpair _ _ rfl rfl rfl

/-- A blank that is no separator is a token without a meaning. -/
theorem readFrom_blank (h : isBlank c = true) (text : List Char) :
    readFrom c text = ⟨.unknown c, text⟩ := by
  have name : isNameChar c = false := EndsToken.not_isNameChar (.inr (.inr (.inr h)))
  have digit : c.isDigit = false := EndsToken.not_isDigit (.inr (.inr (.inr h)))
  have start : isNameStart c = false := by
    simp only [isNameChar, Char.isAlphanum, Bool.or_eq_false_iff] at name
    rw [isNameStart, name.1.1, name.2, Bool.or_false]
  rw [readFrom, digit, start, if_neg Bool.false_ne_true, if_neg Bool.false_ne_true,
    if_neg (Script.ne_of_class h (by decide)), if_neg (Script.ne_of_class h (by decide))]
  fun_cases readSymbol c text with
  | case24 => rfl
  | _ => exact absurd h (by decide)

/-- A blank at the front of a text is a separator, or a token without a meaning. -/
theorem isSeparator_of_isBlank (hc : isBlank c = true)
    (hknown : ∀ d, Token.unknown d ∉ tokensOf (scan (c :: text))) : isSeparator c = true := by
  cases hsep : isSeparator c with
  | true => rfl
  | false =>
    refine absurd ?_ (hknown c)
    rw [scan_eq_cons (next?_of_not_separator hsep _), readFrom_blank hc]
    exact List.mem_cons_self

/-- Blanks in front of a text are no tokens of it that have a meaning. -/
theorem scan_trimStart (hknown : ∀ c, Token.unknown c ∉ tokensOf (scan text)) :
    scan (Text.trimStart text) = scan text := by
  induction text with
  | nil => rfl
  | cons c text ih =>
    cases hc : isBlank c with
    | false => rw [Text.trimStart_cons hc]
    | true =>
      have hsep := isSeparator_of_isBlank hc hknown
      rw [scan_separator hsep] at hknown ⊢
      rw [Text.trimStart, List.dropWhile_cons_of_pos hc]
      exact ih hknown

/-- Blanks are separators, or there is a token without a meaning among them. -/
theorem tokensOf_blanks (h : ∀ c ∈ text, isBlank c = true)
    (hknown : ∀ c, Token.unknown c ∉ tokensOf (scan text)) : tokensOf (scan text) = [] := by
  have nothing : Text.trimStart text = [] := List.dropWhile_eq_nil_iff.mpr h
  rw [← scan_trimStart hknown, nothing]
  rfl

/-- Blanks behind a text add no tokens to it that have a meaning. -/
theorem tokensOf_append_blanks {blanks : List Char} (h : openQuote none text = none)
    (hblanks : ∀ c ∈ blanks, isBlank c = true)
    (hknown : ∀ c, Token.unknown c ∉ tokensOf (scan (text ++ blanks))) :
    tokensOf (scan (text ++ blanks)) = tokensOf (scan text) := by
  cases blanks with
  | nil => rw [List.append_nil]
  | cons d more =>
    have hd : EndsToken d := .inr (.inr (.inr (List.forall_mem_cons.mp hblanks).1))
    obtain ⟨k, hk, htokens⟩ := scansTo_append hd h more _ (Nat.le_refl _)
    rw [scanUpTo_eq_scan hk] at htokens
    have whole : tokensOf (scan (text ++ d :: more)) =
        tokensOf (scan text) ++ tokensOf (scan (d :: more)) :=
      htokens
    rw [whole] at hknown ⊢
    have nothing := tokensOf_blanks hblanks fun c hc => hknown c (List.mem_append_right _ hc)
    rw [nothing, List.append_nil]

end Parts

end Lexeme

namespace Expression

/-! ### Values -/

/-- Whether a text is an expression that has this value whatever the variables. -/
def Denotes (text : String) (v : Value) : Prop :=
  ∃ e, Expression.parse text = .ok e ∧ ∀ vars, e.eval vars = .ok v

/-- A space in front of an expression is no part of it. -/
theorem parse_space (source : String) :
    Expression.parse (" " ++ source) = Expression.parse source := by
  have text : (" " ++ source).toList = ' ' :: source.toList := by simp
  have trims : trimmed (" " ++ source) = trimmed source := by
    rw [trimmed, trimmed, text, Text.trim_cons_blank rfl]
  rw [Expression.parse, Expression.parse, text, Lexeme.scan_separator rfl, trims]

/-- Blanks behind an expression are no part of it, unless a quote was left open. -/
theorem parse_trimEnd {text : String} {e : Expression} (h : Expression.parse text = .ok e)
    (hclosed : openQuote none text.toList = none) :
    Expression.parse (String.ofList (Text.trimEnd text.toList)) = .ok e := by
  have whole : Text.trimEnd text.toList ++ text.toList.rtakeWhile isBlank = text.toList :=
    List.rdropWhile_append_rtakeWhile
  have blanks : ∀ c ∈ text.toList.rtakeWhile isBlank, isBlank c = true :=
    fun c hc => List.mem_rtakeWhile_imp hc
  have known := unknown_not_mem h
  obtain ⟨d, htokens, rfl⟩ := exists_derivation h
  rw [← whole] at hclosed htokens known
  rw [Lexeme.tokensOf_append_blanks (Lexeme.openQuote_of_blanks blanks hclosed) blanks known]
    at htokens
  have same : trimmed (String.ofList (Text.trimEnd text.toList)) = trimmed text := by
    rw [trimmed, trimmed, String.toList_ofList, Text.trim_trimEnd]
  rw [← same]
  exact parse_of_derivation d (by rwa [String.toList_ofList])

/-- A constant as it is written: on one line and with no quote left open. -/
structure IsConstant (text : String) : Prop where
  single : '\n' ∉ text.toList
  closed : openQuote none text.toList = none
  denotes : ∃ v, Denotes text v

/-! ### Brackets -/

/-- Texts between brackets, with commas between them. -/
def listed (texts : List String) : String :=
  "[" ++ ", ".intercalate texts ++ "]"

theorem toList_intercalate_cons (text : String) (texts : List String) :
    (", ".intercalate (text :: texts)).toList =
      text.toList ++ texts.flatMap fun t => ',' :: ' ' :: t.toList := by
  induction texts generalizing text with
  | nil => simp
  | cons next texts ih =>
    rw [String.intercalate_cons_cons, String.toList_append, String.toList_append, ih]
    simp

/-- What is written behind the first text of a list. -/
def behindFirst (texts : List String) : List Char :=
  (texts.flatMap fun t => ',' :: ' ' :: t.toList) ++ [']']

theorem behindFirst_cons (text : String) (texts : List String) :
    behindFirst (text :: texts) = ',' :: ' ' :: (text.toList ++ behindFirst texts) := by
  simp [behindFirst]

theorem toList_listed_cons (text : String) (texts : List String) :
    (listed (text :: texts)).toList = '[' :: (text.toList ++ behindFirst texts) := by
  rw [listed, String.toList_append, String.toList_append, toList_intercalate_cons, behindFirst]
  simp

/-- A text that denotes a value is cut into the tokens of an expression with this value, and behind
it the list goes on. -/
theorem Denotes.scansTo {text : String} {v : Value} (h : Denotes text v)
    (hclosed : openQuote none text.toList = none) (texts : List String) :
    ∃ d : Derivation (.level (.chain .or)),
      Lexeme.ScansTo (text.toList ++ behindFirst texts) d.tokens (behindFirst texts) ∧
        ∀ vars, Expr.eval vars d.ast = .ok v := by
  obtain ⟨e, hparse, heval⟩ := h
  obtain ⟨d, htokens, rfl⟩ := exists_derivation hparse
  refine ⟨d, ?_, heval⟩
  rw [htokens]
  cases texts with
  | nil => exact Lexeme.scansTo_append (.inr (.inl rfl)) hclosed []
  | cons next texts =>
    rw [behindFirst_cons]
    exact Lexeme.scansTo_append (.inl rfl) hclosed _

/-- What follows the first text: a comma, a space and a text each, up to the bracket. -/
theorem scansTo_behindFirst {texts : List String} {values : List Value}
    (h : List.Forall₂ Denotes texts values)
    (hclosed : ∀ t ∈ texts, openQuote none t.toList = none) :
    ∃ d : Derivation .moreItems, Lexeme.ScansTo (behindFirst texts) d.tokens [']'] ∧
      ∀ vars, Expr.evalItems vars d.ast = .ok values := by
  induction h with
  | nil => exact ⟨.last, fun n hn => ⟨n, hn, rfl⟩, fun _ => rfl⟩
  | @cons text v texts values htext _ ih =>
    obtain ⟨hfirst, hothers⟩ := List.forall_mem_cons.mp hclosed
    obtain ⟨item, hitem, hvalue⟩ := htext.scansTo hfirst texts
    obtain ⟨rest, hrest, hvalues⟩ := ih hothers
    have comma {text : List Char} : Lexeme.ScansTo (',' :: ' ' :: text) [.comma] text :=
      (Lexeme.scansTo_symbol rfl rfl).trans (.separator (c := ' ') rfl)
    refine ⟨.next item rest, ?_, fun vars => ?_⟩
    · rw [behindFirst_cons]
      exact (comma.trans hitem).trans hrest
    · show Expr.evalItems vars (item.ast :: rest.ast) = _
      simp only [Expr.evalItems, hvalue, hvalues]

/-- **Texts that denote values, in brackets,** denote the list of these values. -/
theorem Denotes.listed {texts : List String} {values : List Value}
    (h : List.Forall₂ Denotes texts values)
    (hclosed : ∀ t ∈ texts, openQuote none t.toList = none) :
    Denotes (listed texts) (.list values) := by
  have opened {text : List Char} : Lexeme.ScansTo ('[' :: text) [.leftBracket] text :=
    Lexeme.scansTo_symbol rfl rfl
  have closed : Lexeme.ScansTo [']'] [.rightBracket] [] := Lexeme.scansTo_symbol rfl rfl
  obtain ⟨d, hscan, heval⟩ : ∃ d : Derivation .items,
      Lexeme.ScansTo (Expression.listed texts).toList
        (.leftBracket :: (d.tokens ++ [.rightBracket])) [] ∧
          ∀ vars, Expr.evalItems vars d.ast = .ok values := by
    cases h with
    | nil => exact ⟨.noItems, opened.trans closed, fun _ => rfl⟩
    | @cons text v texts values htext hothers =>
      obtain ⟨hfirst, hclosed⟩ := List.forall_mem_cons.mp hclosed
      obtain ⟨item, hitem, hvalue⟩ := htext.scansTo hfirst texts
      obtain ⟨rest, hrest, hvalues⟩ := scansTo_behindFirst hothers hclosed
      refine ⟨.someItems item rest, ?_, fun vars => ?_⟩
      · rw [toList_listed_cons]
        have scanned := opened.trans ((hitem.trans hrest).trans closed)
        simpa [Derivation.tokens] using scanned
      · show Expr.evalItems vars (item.ast :: rest.ast) = _
        simp only [Expr.evalItems, hvalue, hvalues]
  -- The list is a primary expression, so a tree for it is one for an expression.
  let tree : Derivation (.level (.chain .or)) := .ofUnary (.bare (.list d))
  have htokens : tree.tokens = tokensOf (Lexeme.scan (Expression.listed texts).toList) := by
    rw [hscan.tokensOf_scan, Derivation.tokens_ofUnary]
    rfl
  refine ⟨_, parse_of_derivation tree htokens, fun vars => ?_⟩
  show Expr.eval vars (.list d.ast) = _
  simp only [Expr.eval, heval]

/-! ### Constants

Whether a text has the same value with any variables is not decided by looking; that it is a literal
is. -/

theorem IsConstant.exists_values {texts : List String} (h : ∀ t ∈ texts, IsConstant t) :
    ∃ values, List.Forall₂ Denotes texts values := by
  induction texts with
  | nil => exact ⟨[], .nil⟩
  | cons text texts ih =>
    obtain ⟨htext, hothers⟩ := List.forall_mem_cons.mp h
    obtain ⟨v, hv⟩ := htext.denotes
    obtain ⟨values, hvalues⟩ := ih hothers
    exact ⟨v :: values, .cons hv hvalues⟩

end Expression

namespace Expr

mutual

/-- Whether an expression is a number, a text or a list of these. -/
def isLiteral : Expr → Bool
  | .number _ => true
  | .text _ => true
  | .list items => areLiterals items
  | _ => false

/-- Whether all of some expressions are numbers, texts and lists of these. -/
def areLiterals : List Expr → Bool
  | [] => true
  | e :: items => e.isLiteral && areLiterals items

end

mutual

/-- A literal has a value whatever the variables. -/
theorem exists_value : (e : Expr) → e.isLiteral = true → ∃ v, ∀ vars, eval vars e = .ok v
  | .number n, _ => ⟨.number n, fun _ => rfl⟩
  | .text s, _ => ⟨.text s, fun _ => rfl⟩
  | .list items, h => by
    obtain ⟨values, hvalues⟩ := exists_values items h
    exact ⟨.list values, fun vars => by simp only [eval, hvalues]⟩

theorem exists_values : (items : List Expr) → areLiterals items = true →
    ∃ values, ∀ vars, evalItems vars items = .ok values
  | [], _ => ⟨[], fun _ => rfl⟩
  | e :: items, h => by
    rw [areLiterals, Bool.and_eq_true] at h
    obtain ⟨v, hv⟩ := exists_value e h.1
    obtain ⟨values, hvalues⟩ := exists_values items h.2
    exact ⟨v :: values, fun vars => by simp only [evalItems, hv, hvalues]⟩

end

end Expr

/-- Literals are constants. -/
theorem Expression.IsConstant.of_isLiteral {text : String} (single : '\n' ∉ text.toList)
    (closed : openQuote none text.toList = none)
    (hliteral : (Expression.parse text).toOption.any fun e => e.body.isLiteral) :
    IsConstant text := by
  cases hparse : Expression.parse text with
  | error err =>
    rw [hparse] at hliteral
    cases hliteral
  | ok e =>
    rw [hparse] at hliteral
    obtain ⟨v, hv⟩ := Expr.exists_value e.body hliteral
    exact ⟨single, closed, v, e, hparse, hv⟩

end ExScript
