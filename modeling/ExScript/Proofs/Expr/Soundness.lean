import ExScript.Proofs.Expr.Grammar

/-!
# What is read is an expression

The readers of expressions are sound: what one of them takes from the front of a list of lexemes is
the structure of a derivation tree, and the tokens of that tree are those that are gone.

There is a reader for each level of the grammar, built from the reader of the level below. The
tables in which the readers look up operators are compared with the operators of a level once
(`Level.operator?_eq_some`), and from there on a level is a parameter.

## What it says and what it does not

Soundness excludes that a reader takes something for an expression that is none, or makes another
structure of it than the grammar does: a table with an operator on the wrong level, an operand too
few, a bracket that is closed by the other kind. It says nothing of where a reader stops. A reader
that gave up too early, or took less than it could, would be just as sound. That it takes all is the
other half (`Proofs/Expr/Completeness.lean`), and only there the counts matter with which the
readers come to an end. Here they are anything: with too small a count a reader finds less, and what
it finds is right.

## Lexemes and tokens

The readers work on lexemes, which know the text behind them, and the grammar on tokens. What is
gone from the front is therefore given as lexemes, and compared with the tree by its tokens. The
text behind a lexeme is used by `Expression.parseSequence` to cut a text into sources; no reader
looks at it.

## Main results

* `Level.operator?_eq_some` — the readers know the operators of each level
* `readAt_sound` — what is read has a derivation tree
-/

namespace ExScript

namespace Expr

/-- The tokens of a list of lexemes. A tree is compared with these, and a reader gets the
lexemes. -/
def tokensOf (lexemes : List Lexeme) : List Token :=
  lexemes.map fun lexeme => lexeme.token

@[simp] theorem tokensOf_nil : tokensOf [] = [] := rfl

@[simp] theorem tokensOf_cons (lexeme : Lexeme) (rest : List Lexeme) :
    tokensOf (lexeme :: rest) = lexeme.token :: tokensOf rest := rfl

@[simp] theorem tokensOf_append (used rest : List Lexeme) :
    tokensOf (used ++ rest) = tokensOf used ++ tokensOf rest :=
  List.map_append

/-! ### One reader for each level

The function that reads expressions is a composition of readers and has no level in it. The
definition below gives each stage of it a name, and `Level.reader_chain` makes one equation of four
of them. -/

/-- The operators that the readers know on a level: their tables, under one name. -/
def Level.operator? : Level → Token → Option BinaryOp
  | .chain .or => orOp?
  | .chain .and => andOp?
  | .comparison => comparisonOp?
  | .chain .sum => sumOp?
  | .chain .term => termOp?
  | .unary => fun _ => none
  | .primary => fun _ => none

/-- **The readers know the operators of a level by their tokens**, all of them and no others. Both
halves of the comparison with the grammar use this equivalence, and neither looks at a table. -/
theorem Level.operator?_eq_some {l : Level} {t : Token} {op : BinaryOp} :
    l.operator? t = some op ↔ op.level = l ∧ op.token = t := by
  constructor
  · intro h
    rcases l with (_ | _ | _ | _) | _ | _ | _ <;> cases t <;> cases h <;> exact ⟨rfl, rfl⟩
  · rintro ⟨rfl, rfl⟩
    cases op <;> rfl

/-- The reader of a level, given the reader of what stands in brackets. -/
def Level.reader (inner : Reader) : Level → Reader
  | .primary => readPrimary inner
  | .unary => readUnary <| readPrimary inner
  | .chain .term => leftGrouped termOp? <| readUnary <| readPrimary inner
  | .chain .sum => leftGrouped sumOp? <| leftGrouped termOp? <| readUnary <| readPrimary inner
  | .comparison =>
    ungrouped comparisonOp? <| leftGrouped sumOp? <| leftGrouped termOp? <| readUnary <|
      readPrimary inner
  | .chain .and =>
    leftGrouped andOp? <| ungrouped comparisonOp? <| leftGrouped sumOp? <| leftGrouped termOp? <|
      readUnary <| readPrimary inner
  | .chain .or => readLevels inner

/-- Four levels are read in the same way. -/
theorem Level.reader_chain (inner : Reader) (k : Chain) :
    (Level.chain k).reader inner =
      leftGrouped (Level.chain k).operator? (k.operand.reader inner) := by
  cases k <;> rfl

theorem Level.reader_comparison (inner : Reader) :
    Level.comparison.reader inner =
      ungrouped Level.comparison.operator? ((Level.chain .sum).reader inner) := rfl

/-- One more bracket is one more time all levels. -/
theorem readAt_succ (depth : Nat) :
    readAt (depth + 1) = (Level.chain .or).reader (readAt depth) := rfl

/-! ### What is read has a derivation tree

Each lemma is about one reader, with the soundness of the reader below as a hypothesis. In each the
result is followed backwards through the function: where it succeeded, what the parts found are
trees, and the rule of the grammar puts them together. -/

/-- A derivation tree for the lexemes that are gone when `rest` is left. The meaning is that of the
symbol, so it is an expression for a level, and a list of expressions for items. -/
def Finds (s : Symbol) (lexemes : List Lexeme) (meaning : s.Meaning) (rest : List Lexeme) : Prop :=
  ∃ (d : Derivation s) (used : List Lexeme),
    lexemes = used ++ rest ∧ d.tokens = tokensOf used ∧ d.ast = meaning

/-- Whether all that a reader reads has a derivation tree. -/
def Reader.Sound (r : Reader) (l : Level) : Prop :=
  ∀ lexemes e rest, r lexemes = some (e, rest) → Finds (.level l) lexemes e rest

section Sound

variable {r inner : Reader} {k : Chain} {lexemes rest : List Lexeme} {e : Expr}

attribute [local simp] Derivation.tokens

/-- What follows a left operand. The function carries the operand along, and its result is that of
the tree applied to it. -/
theorem readChain_sound (hr : r.Sound k.operand) {n : Nat} {left : Expr}
    (h : readChain (Level.chain k).operator? r n left lexemes = some (e, rest)) :
    ∃ meaning, Finds (.tail k) lexemes meaning rest ∧ meaning left = e := by
  induction n generalizing left lexemes with
  -- A row may always stop, whether the count is used up or no operator follows.
  | zero =>
    cases h
    exact ⟨_, ⟨.stop, [], rfl, rfl, rfl⟩, rfl⟩
  | succ n ih =>
    cases lexemes with
    | nil =>
      cases h
      exact ⟨_, ⟨.stop, [], rfl, rfl, rfl⟩, rfl⟩
    | cons lexeme lexemes =>
      rw [readChain] at h
      cases hop : (Level.chain k).operator? lexeme.token with
      | none =>
        rw [hop] at h
        cases h
        exact ⟨_, ⟨.stop, [], rfl, rfl, rfl⟩, rfl⟩
      | some op =>
        obtain ⟨hlevel, htoken⟩ := Level.operator?_eq_some.mp hop
        rw [hop] at h
        cases hright : r lexemes with
        | none => simp [hright] at h
        | some found =>
          obtain ⟨right, behind⟩ := found
          simp only [hright] at h
          obtain ⟨d, used, rfl, hused, rfl⟩ := hr _ _ _ hright
          obtain ⟨_, ⟨d', used', rfl, hused', rfl⟩, rfl⟩ := ih h
          refine ⟨_, ⟨.more op hlevel d d', lexeme :: (used ++ used'), ?_, ?_, rfl⟩, rfl⟩
          · simp
          · simp [hused, hused', htoken]

/-- A first operand and what follows. -/
theorem leftGrouped_sound (hr : r.Sound k.operand) :
    Reader.Sound (leftGrouped (Level.chain k).operator? r) (.chain k) := by
  intro lexemes e rest h
  rw [leftGrouped] at h
  cases hleft : r lexemes with
  | none => simp [hleft] at h
  | some found =>
    obtain ⟨left, behind⟩ := found
    simp only [hleft] at h
    obtain ⟨d, used, rfl, hused, rfl⟩ := hr _ _ _ hleft
    obtain ⟨_, ⟨d', used', rfl, hused', rfl⟩, rfl⟩ := readChain_sound hr h
    refine ⟨.chain d d', used ++ used', by simp, ?_, rfl⟩
    simp [hused, hused']

/-- One sum or two. A second comparison behind them is left where it is. -/
theorem ungrouped_sound (hr : r.Sound (.chain .sum)) :
    Reader.Sound (ungrouped Level.comparison.operator? r) .comparison := by
  intro lexemes e rest h
  rw [ungrouped] at h
  cases hleft : r lexemes with
  | none => simp [hleft] at h
  | some found =>
    obtain ⟨left, behind⟩ := found
    obtain ⟨d, used, rfl, hused, rfl⟩ := hr _ _ _ hleft
    cases behind with
    | nil =>
      simp only [hleft] at h
      cases h
      exact ⟨.alone d, used, rfl, hused, rfl⟩
    | cons lexeme behind =>
      simp only [hleft] at h
      cases hop : Level.comparison.operator? lexeme.token with
      | none =>
        rw [hop] at h
        cases h
        exact ⟨.alone d, used, rfl, hused, rfl⟩
      | some op =>
        obtain ⟨hlevel, htoken⟩ := Level.operator?_eq_some.mp hop
        rw [hop] at h
        obtain ⟨⟨right, rest⟩, hright, hfound⟩ := Option.map_eq_some_iff.mp h
        cases hfound
        obtain ⟨d', used', rfl, hused', rfl⟩ := hr _ _ _ hright
        refine ⟨.compare op hlevel d d', used ++ lexeme :: used', by simp, ?_, rfl⟩
        simp [hused, hused', htoken]

/-- Items behind a comma are more items. The reader starts anew there, so it may find none, and then
the comma was the last one. -/
theorem exists_afterComma (d : Derivation .items) :
    ∃ d' : Derivation .moreItems, d'.tokens = .comma :: d.tokens ∧ d'.ast = d.ast := by
  cases d with
  | noItems => exact ⟨.lastComma, rfl, rfl⟩
  | someItems first rest => exact ⟨.next first rest, rfl, rfl⟩

/-- What stands in brackets, up to a bracket of the kind that was asked for. -/
theorem readItems_sound (hinner : inner.Sound (.chain .or)) {close : Token} {n : Nat}
    {items : List Expr} (h : readItems inner close n lexemes = some (items, rest)) :
    ∃ c : Lexeme, c.token = close ∧ Finds .items lexemes items (c :: rest) := by
  induction n generalizing lexemes items with
  | zero => cases h
  | succ n ih =>
    cases lexemes with
    | nil => cases h
    | cons lexeme lexemes =>
      rw [readItems] at h
      -- Nothing in front of the bracket, or an item
      by_cases hclose : lexeme.token = close
      · rw [if_pos hclose] at h
        cases h
        exact ⟨lexeme, hclose, .noItems, [], rfl, rfl, rfl⟩
      rw [if_neg hclose] at h
      split at h
      next => cases h
      next => cases h
      next first next behind hfirst =>
        obtain ⟨d, used, hused, htokens, rfl⟩ := hinner _ _ _ hfirst
        -- Behind an item the bracket, or a comma and other items
        by_cases hnext : next.token = close
        · rw [if_pos hnext] at h
          cases h
          refine ⟨next, hnext, .someItems d .last, used, hused, ?_, rfl⟩
          simp [htokens]
        rw [if_neg hnext] at h
        by_cases hcomma : next.token = .comma
        · rw [if_pos hcomma] at h
          obtain ⟨⟨others, behind'⟩, hothers, hfound⟩ := Option.map_eq_some_iff.mp h
          cases hfound
          obtain ⟨c, hc, d', used', rfl, hused', rfl⟩ := ih hothers
          obtain ⟨d'', hd'', hast⟩ := exists_afterComma d'
          refine ⟨c, hc, .someItems d d'', used ++ next :: used', ?_, ?_, ?_⟩
          · rw [hused]
            simp
          · simp [htokens, hd'', hused', hcomma]
          · rw [Derivation.ast, hast]
        · rw [if_neg hcomma] at h
          cases h

/-- A primary expression, by its first token. A name is a variable or a call, depending on what
follows. -/
theorem readPrimary_sound (hinner : inner.Sound (.chain .or)) :
    Reader.Sound (readPrimary inner) .primary := by
  intro lexemes e rest h
  cases lexemes with
  | nil => cases h
  | cons lexeme lexemes =>
    rw [readPrimary] at h
    cases htoken : lexeme.token with
    | number n =>
      rw [htoken] at h
      cases h
      exact ⟨.number n, [lexeme], rfl, by simp [htoken], rfl⟩
    | text s =>
      rw [htoken] at h
      cases h
      exact ⟨.text s, [lexeme], rfl, by simp [htoken], rfl⟩
    -- A name alone, a call, or a name in front of something else
    | name s =>
      rw [htoken] at h
      cases lexemes with
      | nil =>
        cases h
        exact ⟨.name s, [lexeme], rfl, by simp [htoken], rfl⟩
      | cons next behind =>
        dsimp only at h
        by_cases hparen : next.token = .leftParen
        · rw [if_pos hparen] at h
          obtain ⟨⟨items, behind'⟩, hitems, hfound⟩ := Option.map_eq_some_iff.mp h
          cases hfound
          obtain ⟨c, hc, d, used, rfl, hused, rfl⟩ := readItems_sound hinner hitems
          refine ⟨.call s d, lexeme :: next :: (used ++ [c]), by simp, ?_, rfl⟩
          simp [htoken, hparen, hused, hc]
        · rw [if_neg hparen] at h
          cases h
          exact ⟨.name s, [lexeme], rfl, by simp [htoken], rfl⟩
    -- An expression in parentheses, whose tree has them although nothing is left of them
    | leftParen =>
      rw [htoken] at h
      dsimp only at h
      split at h
      next e' next behind hfound =>
        by_cases hparen : next.token = .rightParen
        · rw [if_pos hparen] at h
          cases h
          obtain ⟨d, used, rfl, hused, rfl⟩ := hinner _ _ _ hfound
          refine ⟨.paren d, lexeme :: (used ++ [next]), by simp, ?_, rfl⟩
          simp [htoken, hparen, hused]
        · rw [if_neg hparen] at h
          cases h
      next => cases h
    | leftBracket =>
      rw [htoken] at h
      obtain ⟨⟨items, behind⟩, hitems, hfound⟩ := Option.map_eq_some_iff.mp h
      cases hfound
      obtain ⟨c, hc, d, used, rfl, hused, rfl⟩ := readItems_sound hinner hitems
      refine ⟨.list d, lexeme :: (used ++ [c]), by simp, ?_, rfl⟩
      simp [htoken, hused, hc]
    | _ =>
      rw [htoken] at h
      cases h

/-! The reader of signs has a case for each of them. For what follows there are two: a sign,
whichever it is, or none. -/

theorem readUnary_sign {primary : Reader} {sign : Sign} {lexeme : Lexeme}
    (h : lexeme.token = sign.token) :
    readUnary primary (lexeme :: lexemes) =
      (readUnary primary lexemes).map fun found => (sign.apply found.1, found.2) := by
  rw [readUnary, h]
  cases sign with
  | neg => rfl
  | not => rfl
  | pos => cases readUnary primary lexemes <;> rfl

theorem readUnary_bare {primary : Reader} {lexeme : Lexeme}
    (h : ∀ sign : Sign, sign.token ≠ lexeme.token) :
    readUnary primary (lexeme :: lexemes) = primary (lexeme :: lexemes) := by
  rw [readUnary]
  split
  next htoken => exact absurd htoken.symm (h .neg)
  next htoken => exact absurd htoken.symm (h .not)
  next htoken => exact absurd htoken.symm (h .pos)
  next => rfl

/-- Signs are read one by one, so the induction is on the lexemes. -/
theorem readUnary_sound {primary : Reader} (hprimary : primary.Sound .primary) :
    Reader.Sound (readUnary primary) .unary := by
  have bare {lexemes rest : List Lexeme} {e : Expr} (h : primary lexemes = some (e, rest)) :
      Finds (.level .unary) lexemes e rest := by
    obtain ⟨d, used, hused, htokens, hast⟩ := hprimary _ _ _ h
    exact ⟨.bare d, used, hused, htokens, hast⟩
  intro lexemes
  induction lexemes with
  | nil =>
    intro e rest h
    exact bare h
  | cons lexeme lexemes ih =>
    intro e rest h
    by_cases hsign : ∃ sign : Sign, lexeme.token = sign.token
    · obtain ⟨sign, hsign⟩ := hsign
      rw [readUnary_sign hsign] at h
      obtain ⟨⟨operand, behind⟩, hoperand, hfound⟩ := Option.map_eq_some_iff.mp h
      cases hfound
      obtain ⟨d, used, rfl, hused, rfl⟩ := ih _ _ hoperand
      refine ⟨.signed sign d, lexeme :: used, rfl, ?_, rfl⟩
      simp [hused, hsign]
    · rw [readUnary_bare fun sign hne => hsign ⟨sign, hne.symm⟩] at h
      exact bare h

/-- All levels, from the strongest to the weakest. -/
theorem reader_sound (hinner : inner.Sound (.chain .or)) (l : Level) : (l.reader inner).Sound l := by
  -- One step up for each of the four levels that are alike; the other three have their own lemmas.
  have chain (k : Chain) (h : (k.operand.reader inner).Sound k.operand) :
      ((Level.chain k).reader inner).Sound (.chain k) := by
    rw [Level.reader_chain]
    exact leftGrouped_sound h
  have hprimary : (Level.primary.reader inner).Sound .primary := readPrimary_sound hinner
  have hunary : (Level.unary.reader inner).Sound .unary := readUnary_sound hprimary
  have hsum := chain .sum (chain .term hunary)
  have hcomparison : (Level.comparison.reader inner).Sound .comparison := ungrouped_sound hsum
  rcases l with (_ | _ | _ | _) | _ | _ | _
  · exact chain .or (chain .and hcomparison)
  · exact chain .and hcomparison
  · exact hsum
  · exact chain .term hunary
  · exact hcomparison
  · exact hunary
  · exact hprimary

/-- **What is read has a derivation tree.** The induction is on the depth of brackets, which are the
only place where an expression is a part of a primary one. -/
theorem readAt_sound (depth : Nat) : (readAt depth).Sound (.chain .or) := by
  induction depth with
  | zero =>
    intro lexemes e rest h
    cases h
  | succ depth ih => exact reader_sound ih (.chain .or)

end Sound

end Expr

end ExScript
