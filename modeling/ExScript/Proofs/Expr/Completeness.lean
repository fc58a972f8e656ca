import ExScript.Proofs.Expr.Soundness

/-!
# Expressions are read

The readers of expressions are complete: a derivation tree is read whole if what stands behind it
does not go on its last expression. Together with soundness this makes reading and deriving the
same.

The readers count two things down so that they come to an end: the depth of brackets and, for rows
of operands or items, the lexemes that are left. A tree has no more brackets in each other than
tokens, and an operator or a comma is a token of its own, so neither count is used up before the
tree is (`Derivation.IsRead`).

## What has to be strengthened

That the tokens of a tree are read as the tree cannot be proved by induction as it stands. A part of
a tree is read with the rest of the text behind it, so something may follow; the readers are greedy,
so what follows must not go on the part; and the counts of a part are what the whole has left of its
own. All three are in `Derivation.IsRead`: any lexemes may follow where the piece can end, and the
counts are anything that is large enough for the tokens of the piece. What can end a piece was found
out for the uniqueness of trees, and it is the same condition here, because a greedy reader goes on
exactly where another tree could.

Each kind of symbol is read by another function, so the statement has one clause for each. That all
trees are read is then one lemma for each rule of the grammar, and an induction that names them.

## Both halves

Soundness gives a tree for all that is read and completeness reads every tree; with the uniqueness
of trees the two make an equivalence in which the tree is the only one. The depth that the function
begins with is the number of lexemes, so no text is refused for having too many brackets.

## Main results

* `Derivation.isRead` — a derivation tree is read whole
* `parse_iff_derivation` — a text is an expression if and only if its tokens have a derivation tree
-/

namespace ExScript

namespace Expr

/-! Lexemes are cut where the tokens of a tree are. -/

theorem exists_of_tokensOf_cons {used : List Lexeme} {t : Token} {ts : List Token}
    (h : tokensOf used = t :: ts) :
    ∃ lexeme behind, used = lexeme :: behind ∧ lexeme.token = t ∧ tokensOf behind = ts :=
  List.map_eq_cons_iff.mp h

theorem exists_of_tokensOf_append {used : List Lexeme} {ts ts' : List Token}
    (h : tokensOf used = ts ++ ts') :
    ∃ first behind, used = first ++ behind ∧ tokensOf first = ts ∧ tokensOf behind = ts' :=
  List.map_eq_append_iff.mp h

/-- What `readItems` does behind an item. The grammar has a symbol for it, and the function has it
inside of its recursion. -/
def readMore (item : Reader) (close : Token) (n : Nat) (first : Expr) :
    List Lexeme → Option (List Expr × List Lexeme)
  | [] => none
  | next :: rest =>
    if next.token = close then some ([first], rest)
    else if next.token = .comma then
      (readItems item close n rest).map fun items => (first :: items.1, items.2)
    else none

namespace Derivation

/-- Whether a tree is read whole from the front of any lexemes that have its tokens, if it can end
there; the counts only have to be large enough for its tokens. -/
def IsRead : {s : Symbol} → Derivation s → Prop
  | .level l, d => ∀ depth used rest, tokensOf used = d.tokens → used.length ≤ depth →
    l.Stops (tokensOf rest) → l.reader (readAt depth) (used ++ rest) = some (d.ast, rest)
  | .tail k, d => ∀ depth n left used rest, tokensOf used = d.tokens → used.length ≤ depth →
    used.length ≤ n → (Level.chain k).Stops (tokensOf rest) →
    readChain (Level.chain k).operator? (k.operand.reader (readAt depth)) n left (used ++ rest) =
      some (d.ast left, rest)
  | .items, d => ∀ depth n used close rest, tokensOf used = d.tokens → used.length ≤ depth →
    used.length < n → Closes close.token →
    readItems ((Level.chain .or).reader (readAt depth)) close.token n (used ++ close :: rest) =
      some (d.ast, rest)
  | .moreItems, d => ∀ depth n first used close rest, tokensOf used = d.tokens →
    used.length ≤ depth → used.length ≤ n → Closes close.token →
    readMore ((Level.chain .or).reader (readAt depth)) close.token n first (used ++ close :: rest) =
      some (first :: d.ast, rest)

/-! ### Operators

A first operand is read up to the operator behind it, which the tail begins with or does not; either
way the operand ends there. -/

theorem isRead_chain {k : Chain} {first : Derivation (.level k.operand)} {tail : Derivation (.tail k)}
    (hfirst : first.IsRead) (htail : tail.IsRead) : (chain first tail).IsRead := by
  intro depth used rest hused hdepth hstops
  obtain ⟨u, v, rfl, hu, hv⟩ := exists_of_tokensOf_append hused
  rw [List.length_append] at hdepth
  have hends : k.operand.Stops (tokensOf (v ++ rest)) := by
    rw [tokensOf_append, hv]
    exact tail.stops_operand hstops
  rw [Level.reader_chain, leftGrouped, List.append_assoc,
    hfirst depth u (v ++ rest) hu (by omega) hends]
  exact htail depth _ _ v rest hv (by omega) (by simp) hstops

/-- A row stops where no operator of its level follows, and the table knows no other ones. -/
theorem isRead_stop {k : Chain} : (stop : Derivation (.tail k)).IsRead := by
  intro depth n left used rest hused hdepth hn hstops
  cases List.map_eq_nil_iff.mp hused
  cases n with
  | zero => rfl
  | succ n =>
    cases rest with
    | nil => rfl
    | cons lexeme rest =>
      rw [List.nil_append, readChain]
      cases hop : (Level.chain k).operator? lexeme.token with
      | none => rfl
      | some op =>
        obtain ⟨hlevel, htoken⟩ := Level.operator?_eq_some.mp hop
        rw [tokensOf_cons, ← htoken] at hstops
        exact absurd hlevel hstops.level_ne

/-- One more operator is a token, so the count for the rest is large enough for the rest. -/
theorem isRead_more {k : Chain} {op : BinaryOp} {h : op.level = .chain k}
    {operand : Derivation (.level k.operand)} {tail : Derivation (.tail k)}
    (hoperand : operand.IsRead) (htail : tail.IsRead) : (more op h operand tail).IsRead := by
  intro depth n left used rest hused hdepth hn hstops
  obtain ⟨lexeme, behind, rfl, htoken, hbehind⟩ := exists_of_tokensOf_cons hused
  obtain ⟨u, v, rfl, hu, hv⟩ := exists_of_tokensOf_append hbehind
  simp only [List.length_cons, List.length_append] at hdepth hn
  -- The operand is followed by the tail, whether that stops at once or goes on.
  have hends : k.operand.Stops (tokensOf (v ++ rest)) := by
    rw [tokensOf_append, hv]
    exact tail.stops_operand hstops
  have hop : (Level.chain k).operator? lexeme.token = some op :=
    Level.operator?_eq_some.mpr ⟨h, htoken.symm⟩
  cases n with
  | zero => omega
  | succ n =>
    rw [List.cons_append, readChain, hop, List.append_assoc]
    simp only [hoperand depth u (v ++ rest) hu (by omega) hends]
    exact htail depth n _ v rest hv (by omega) (by omega) hstops

/-- A sum alone is no comparison, since none follows. -/
theorem isRead_alone {operand : Derivation (.level (.chain .sum))} (hoperand : operand.IsRead) :
    (alone operand).IsRead := by
  intro depth used rest hused hdepth hstops
  rw [Level.reader_comparison, ungrouped,
    hoperand depth used rest hused hdepth (hstops.mono (by decide))]
  cases rest with
  | nil => rfl
  | cons lexeme rest =>
    cases hop : Level.comparison.operator? lexeme.token with
    | none => simp only [hop]; rfl
    | some op =>
      obtain ⟨hlevel, htoken⟩ := Level.operator?_eq_some.mp hop
      rw [tokensOf_cons, ← htoken] at hstops
      exact absurd hlevel hstops.level_ne

/-- Two sums with a comparison between them, which ends the first and is weaker than anything in
it. -/
theorem isRead_compare {op : BinaryOp} {h : op.level = .comparison}
    {left right : Derivation (.level (.chain .sum))} (hleft : left.IsRead) (hright : right.IsRead) :
    (compare op h left right).IsRead := by
  intro depth used rest hused hdepth hstops
  obtain ⟨u, behind, rfl, hu, hbehind⟩ := exists_of_tokensOf_append hused
  obtain ⟨lexeme, v, rfl, htoken, hv⟩ := exists_of_tokensOf_cons hbehind
  simp only [List.length_append, List.length_cons] at hdepth
  have hends : (Level.chain .sum).Stops (tokensOf (lexeme :: (v ++ rest))) := by
    rw [tokensOf_cons, htoken]
    exact .comparison h
  have hop : Level.comparison.operator? lexeme.token = some op :=
    Level.operator?_eq_some.mpr ⟨h, htoken.symm⟩
  rw [Level.reader_comparison, ungrouped, List.append_assoc, List.cons_append,
    hleft depth u _ hu (by omega) hends]
  simp only [hop, hright depth v rest hv (by omega) (hstops.mono (by decide))]
  rfl

/-! ### Signs

What is in front of a primary expression is read as far as there are signs, and there is none at its
front. -/

theorem isRead_signed {sign : Sign} {operand : Derivation (.level .unary)}
    (hoperand : operand.IsRead) : (signed sign operand).IsRead := by
  intro depth used rest hused hdepth hstops
  obtain ⟨lexeme, behind, rfl, htoken, hbehind⟩ := exists_of_tokensOf_cons hused
  rw [List.length_cons] at hdepth
  have found := hoperand depth behind rest hbehind (by omega) hstops
  show readUnary (readPrimary (readAt depth)) (lexeme :: (behind ++ rest)) = _
  rw [readUnary_sign htoken]
  exact congrArg (Option.map _) found

/-- Without a sign in front the reader of signs does nothing. -/
theorem isRead_bare {operand : Derivation (.level .primary)} (hoperand : operand.IsRead) :
    (bare operand).IsRead := by
  intro depth used rest hused hdepth hstops
  have found := hoperand depth used rest hused hdepth (hstops.mono (by decide))
  obtain ⟨t, ts, htokens, hsign⟩ := operand.begins_primary
  rw [tokens, htokens] at hused
  obtain ⟨lexeme, behind, rfl, rfl, -⟩ := exists_of_tokensOf_cons hused
  show readUnary (readPrimary (readAt depth)) (lexeme :: (behind ++ rest)) = _
  rw [readUnary_bare hsign]
  exact found

/-! ### Primary expressions

The first token says which it is. Brackets take one from the depth, and there are at least two
tokens more in them than inside. -/

theorem isRead_number {n : Int64} : (number n).IsRead := by
  intro depth used rest hused hdepth hstops
  obtain ⟨lexeme, behind, rfl, htoken, hbehind⟩ := exists_of_tokensOf_cons hused
  cases List.map_eq_nil_iff.mp hbehind
  show readPrimary (readAt depth) (lexeme :: rest) = _
  rw [readPrimary, htoken]
  rfl

theorem isRead_text {x : String} : (text x).IsRead := by
  intro depth used rest hused hdepth hstops
  obtain ⟨lexeme, behind, rfl, htoken, hbehind⟩ := exists_of_tokensOf_cons hused
  cases List.map_eq_nil_iff.mp hbehind
  show readPrimary (readAt depth) (lexeme :: rest) = _
  rw [readPrimary, htoken]
  rfl

/-- A name that is no call: what follows is no parenthesis. -/
theorem isRead_name {x : String} : (name x).IsRead := by
  intro depth used rest hused hdepth hstops
  obtain ⟨lexeme, behind, rfl, htoken, hbehind⟩ := exists_of_tokensOf_cons hused
  cases List.map_eq_nil_iff.mp hbehind
  show readPrimary (readAt depth) (lexeme :: rest) = _
  rw [readPrimary, htoken]
  cases rest with
  | nil => rfl
  | cons next rest =>
    have hparen : next.token ≠ .leftParen := fun hparen => hstops next.token rfl (.inl hparen)
    exact if_neg hparen

/-- A call: the arguments are read up to the parenthesis behind them, which is one of the
lexemes. -/
theorem isRead_call {x : String} {arguments : Derivation .items} (harguments : arguments.IsRead) :
    (call x arguments).IsRead := by
  intro depth used rest hused hdepth hstops
  obtain ⟨lexeme, behind, rfl, htoken, hbehind⟩ := exists_of_tokensOf_cons hused
  obtain ⟨next, behind, rfl, hnext, hbehind⟩ := exists_of_tokensOf_cons hbehind
  obtain ⟨u, v, rfl, hu, hv⟩ := exists_of_tokensOf_append hbehind
  obtain ⟨close, v, rfl, hclose, hv⟩ := exists_of_tokensOf_cons hv
  cases List.map_eq_nil_iff.mp hv
  simp only [List.length_cons, List.length_append] at hdepth
  cases depth with
  | zero => omega
  | succ depth =>
    have found := harguments depth ((u ++ close :: rest).length + 1) u close rest hu (by omega)
      (by rw [List.length_append]; omega) (.inl hclose)
    rw [hclose, ← readAt_succ] at found
    simp only [List.cons_append, List.append_assoc, List.nil_append, Level.reader, readPrimary,
      htoken, hnext, if_true, found]
    rfl

/-- In parentheses any expression ends, because a parenthesis that closes is no operator. -/
theorem isRead_paren {inner : Derivation (.level (.chain .or))} (hinner : inner.IsRead) :
    (paren inner).IsRead := by
  intro depth used rest hused hdepth hstops
  obtain ⟨lexeme, behind, rfl, htoken, hbehind⟩ := exists_of_tokensOf_cons hused
  obtain ⟨u, v, rfl, hu, hv⟩ := exists_of_tokensOf_append hbehind
  obtain ⟨close, v, rfl, hclose, hv⟩ := exists_of_tokensOf_cons hv
  cases List.map_eq_nil_iff.mp hv
  simp only [List.length_cons, List.length_append] at hdepth
  have hends : (Level.chain .or).Stops (tokensOf (close :: rest)) := by
    rw [tokensOf_cons, hclose]
    exact .closing (.inl rfl)
  cases depth with
  | zero => omega
  | succ depth =>
    have found := hinner depth u (close :: rest) hu (by omega) hends
    rw [← readAt_succ] at found
    simp only [List.cons_append, List.append_assoc, List.nil_append, Level.reader, readPrimary,
      htoken, found, hclose, if_true]
    rfl

/-- A list is like the arguments of a call with the other kind of brackets. -/
theorem isRead_list {elements : Derivation .items} (helements : elements.IsRead) :
    (list elements).IsRead := by
  intro depth used rest hused hdepth hstops
  obtain ⟨lexeme, behind, rfl, htoken, hbehind⟩ := exists_of_tokensOf_cons hused
  obtain ⟨u, v, rfl, hu, hv⟩ := exists_of_tokensOf_append hbehind
  obtain ⟨close, v, rfl, hclose, hv⟩ := exists_of_tokensOf_cons hv
  cases List.map_eq_nil_iff.mp hv
  simp only [List.length_cons, List.length_append] at hdepth
  cases depth with
  | zero => omega
  | succ depth =>
    have found := helements depth ((u ++ close :: rest).length + 1) u close rest hu (by omega)
      (by rw [List.length_append]; omega) (.inr hclose)
    rw [hclose, ← readAt_succ] at found
    simp only [List.cons_append, List.append_assoc, List.nil_append, Level.reader, readPrimary,
      htoken, found]
    rfl

/-! ### Items

Whether there is an item in front of the bracket is seen at its first token. -/

/-- A reader that reads an item leaves the rest to what is done behind items. -/
theorem readItems_item {item : Reader} {close : Token} {n : Nat} {lexeme : Lexeme} {e : Expr}
    {lexemes behind : List Lexeme} (hne : lexeme.token ≠ close)
    (h : item (lexeme :: lexemes) = some (e, behind)) :
    readItems item close (n + 1) (lexeme :: lexemes) = readMore item close n e behind := by
  rw [readItems, if_neg hne, h]
  cases behind <;> rfl

/-- An item and more items behind it are read if both are. -/
theorem readItems_isRead {first : Derivation (.level (.chain .or))} {others : Derivation .moreItems}
    (hfirst : first.IsRead) (hothers : others.IsRead) {depth n : Nat} {u v rest : List Lexeme}
    {close : Lexeme} (hu : tokensOf u = first.tokens) (hv : tokensOf v = others.tokens)
    (hdepth : u.length + v.length ≤ depth) (hn : u.length + v.length < n)
    (hclose : Closes close.token) :
    readItems ((Level.chain .or).reader (readAt depth)) close.token n (u ++ (v ++ close :: rest)) =
      some (first.ast :: others.ast, rest) := by
  have hends : (Level.chain .or).Stops (tokensOf (v ++ close :: rest)) := by
    rw [tokensOf_append, hv]
    exact others.stops_item ⟨_, _, rfl, hclose⟩
  have found := hfirst depth u (v ++ close :: rest) hu (by omega) hends
  obtain ⟨t, ts, htokens, -, hne⟩ := first.begins
  rw [htokens] at hu
  obtain ⟨lexeme, u, rfl, rfl, -⟩ := exists_of_tokensOf_cons hu
  rw [List.length_cons] at hdepth hn
  cases n with
  | zero => omega
  | succ n =>
    rw [List.cons_append] at found ⊢
    rw [readItems_item (fun heq => hne (heq ▸ hclose)) found]
    exact hothers depth n _ v close rest hv (by omega) (by omega) hclose

/-- Nothing in front of the bracket. -/
theorem isRead_noItems : noItems.IsRead := by
  intro depth n used close rest hused hdepth hn hclose
  cases List.map_eq_nil_iff.mp hused
  cases n with
  | zero => omega
  | succ n => exact if_pos rfl

theorem isRead_someItems {first : Derivation (.level (.chain .or))}
    {others : Derivation .moreItems} (hfirst : first.IsRead) (hothers : others.IsRead) :
    (someItems first others).IsRead := by
  intro depth n used close rest hused hdepth hn hclose
  obtain ⟨u, v, rfl, hu, hv⟩ := exists_of_tokensOf_append hused
  rw [List.length_append] at hdepth hn
  rw [List.append_assoc]
  exact readItems_isRead hfirst hothers hu hv hdepth hn hclose

theorem isRead_last : last.IsRead := by
  intro depth n first used close rest hused hdepth hn hclose
  cases List.map_eq_nil_iff.mp hused
  exact if_pos rfl

/-- Behind a comma the items go on. -/
theorem readMore_comma {item : Reader} {close : Token} {n : Nat} {first : Expr} {next : Lexeme}
    {rest : List Lexeme} (hclose : Closes close) (hnext : next.token = .comma) :
    readMore item close n first (next :: rest) =
      (readItems item close n rest).map fun items => (first :: items.1, items.2) := by
  have hne : next.token ≠ close := by
    rw [hnext]
    exact hclose.ne_comma.symm
  rw [readMore, if_neg hne, if_pos hnext]

/-- Behind the last comma there are no items in front of the bracket. -/
theorem isRead_lastComma : lastComma.IsRead := by
  intro depth n first used close rest hused hdepth hn hclose
  obtain ⟨next, behind, rfl, hnext, hbehind⟩ := exists_of_tokensOf_cons hused
  cases List.map_eq_nil_iff.mp hbehind
  rw [List.length_singleton] at hdepth hn
  have found := isRead_noItems depth n [] close rest rfl (by simp) hn hclose
  rw [List.nil_append] at found
  rw [List.singleton_append, readMore_comma hclose hnext, found]
  rfl

/-- A comma, an item and more items, as at the beginning. -/
theorem isRead_next {item : Derivation (.level (.chain .or))} {others : Derivation .moreItems}
    (hitem : item.IsRead) (hothers : others.IsRead) : (next item others).IsRead := by
  intro depth n first used close rest hused hdepth hn hclose
  obtain ⟨comma, behind, rfl, hcomma, hbehind⟩ := exists_of_tokensOf_cons hused
  obtain ⟨u, v, rfl, hu, hv⟩ := exists_of_tokensOf_append hbehind
  simp only [List.length_cons, List.length_append] at hdepth hn
  rw [List.cons_append, readMore_comma hclose hcomma, List.append_assoc,
    readItems_isRead hitem hothers hu hv (by omega) (by omega) hclose]
  rfl

/-! ### All trees -/

/-- **A derivation tree is read whole**, if what stands behind it does not go on its last
expression. The induction is on the tree and has a lemma for each rule of the grammar. -/
theorem isRead {s : Symbol} (d : Derivation s) : d.IsRead := by
  induction d with
  | chain _ _ hfirst htail => exact isRead_chain hfirst htail
  | stop => exact isRead_stop
  | more _ _ _ _ hoperand htail => exact isRead_more hoperand htail
  | alone _ hoperand => exact isRead_alone hoperand
  | compare _ _ _ _ hleft hright => exact isRead_compare hleft hright
  | signed _ _ hoperand => exact isRead_signed hoperand
  | bare _ hoperand => exact isRead_bare hoperand
  | number => exact isRead_number
  | text => exact isRead_text
  | name => exact isRead_name
  | call _ _ harguments => exact isRead_call harguments
  | paren _ hinner => exact isRead_paren hinner
  | list _ helements => exact isRead_list helements
  | noItems => exact isRead_noItems
  | someItems _ _ hfirst hothers => exact isRead_someItems hfirst hothers
  | last => exact isRead_last
  | lastComma => exact isRead_lastComma
  | next _ _ hitem hothers => exact isRead_next hitem hothers

end Derivation

/-! ### Texts -/

/-- A tree for all of the lexemes is read, and nothing is left. -/
theorem read_of_derivation (d : Derivation (.level (.chain .or))) {lexemes : List Lexeme}
    (h : d.tokens = tokensOf lexemes) : read lexemes = some (d.ast, []) := by
  have found := d.isRead lexemes.length lexemes [] h.symm (Nat.le_refl _) Level.Stops.nil
  rwa [List.append_nil, ← readAt_succ] at found

/-- If nothing is left, the tree that was found is one for all of the lexemes. -/
theorem exists_derivation_of_read {lexemes : List Lexeme} {e : Expr}
    (h : read lexemes = some (e, [])) :
    ∃ d : Derivation (.level (.chain .or)), d.tokens = tokensOf lexemes ∧ d.ast = e := by
  obtain ⟨d, used, hused, htokens, hast⟩ := readAt_sound _ _ _ _ h
  rw [List.append_nil] at hused
  exact ⟨d, hused ▸ htokens, hast⟩

end Expr

open ExScript.Expr in
/-- **A text is an expression if and only if its tokens have a derivation tree.** The tree is the
only one with these tokens, and the expression that is read is the one that the tree stands for. -/
theorem Expression.parse_iff_derivation (source : String) :
    (∀ x, Expression.parse source = .ok x ↔
      ∃ d : Derivation (.level (.chain .or)),
        d.tokens = (Lexeme.scan source.toList).map (fun lexeme => lexeme.token) ∧
          x = ⟨trimmed source, d.ast⟩) ∧
      ∀ d d' : Derivation (.level (.chain .or)), d.tokens = d'.tokens → d = d' := by
  refine ⟨fun x => ⟨fun h => ?_, ?_⟩, fun d d' h => Derivation.unique h⟩
  · rw [Expression.parse] at h
    split at h
    next e hread =>
      cases h
      obtain ⟨d, htokens, rfl⟩ := exists_derivation_of_read hread
      exact ⟨d, htokens, rfl⟩
    next => cases h
  · rintro ⟨d, htokens, rfl⟩
    rw [Expression.parse, read_of_derivation d htokens]

end ExScript
