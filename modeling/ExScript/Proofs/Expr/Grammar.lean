import ExScript.Expr.Parser

/-!
# The grammar of expressions

Which rows of tokens are expressions, by derivation trees. A tree records every rule that is used,
parentheses and unary plusses included, so that two trees of one row would be two ways to understand
it. The grammar has no ambiguity (`Derivation.unique`), although it leaves the end of an expression
to what follows: `a - b` begins with the expression `a`. What can follow a piece of the grammar
without being taken for a part of it is therefore made explicit (`Symbol.Ends`), and uniqueness is
proved for pieces with something behind them.

The operators of a level and their tokens are read off the operators here, not off the tables of
the readers.

## Why trees, and not only structures

A structure (`Expr`) forgets what it was written with: `(1)`, `+1` and `1` are the same number. If
the grammar was said as a relation between tokens and structures, it could have two ways to derive a
structure and nobody would notice, and precedence would be a matter of which structures are related.
With trees the question whether a text can be understood in two ways is a plain equation, and the
structure comes afterwards as a function of the tree (`Derivation.ast`).

## Why ends are needed

A list of tokens can be cut in front of every operator, so a derivation of a piece does not know
where the piece ends. The induction for uniqueness compares two trees that begin at the same token
and have anything behind them, and asks of what is behind only that it does not go on the piece: no
operator of its level or a stronger one, and no parenthesis, which would make a call out of a name.
Each rule has to show this for its parts. An operand ends at an operator that is weaker than it, and
an item at a comma or a bracket; comparisons end sums, because they are weaker, and do not end each
other, because there is at most one.

## Main definitions

* `Derivation` — the derivation trees
* `Derivation.tokens` — the tokens at the leaves
* `Derivation.ast` — the structure that a tree stands for
* `Symbol.Ends` — what can stand behind a piece of the grammar

## Main results

* `Derivation.unique` — a row of tokens has one derivation tree at most
-/

namespace ExScript

namespace Expr

/-! ### Levels and operators

Four levels work alike: operands with operators between them, grouped to the left. They are one rule
with a parameter. Comparisons do not group, and signs stand in front. -/

/-- The levels whose operators group to the left. -/
inductive Chain where
  | or
  | and
  | sum
  | term
  deriving DecidableEq

/-- The levels of expressions, from the weakest to the strongest operators. -/
inductive Level where
  | chain (k : Chain)
  | comparison
  | unary
  | primary
  deriving DecidableEq

/-- The level whose expressions are the operands of a level. -/
def Chain.operand : Chain → Level
  | .or => .chain .and
  | .and => .comparison
  | .sum => .chain .term
  | .term => .unary

/-- How strong the operators of a level are. -/
def Level.strength : Level → Nat
  | .chain .or => 0
  | .chain .and => 1
  | .comparison => 2
  | .chain .sum => 3
  | .chain .term => 4
  | .unary => 5
  | .primary => 6

/-- Operands are stronger than what they are operands of. This is all that precedence comes to. -/
theorem Chain.strength_operand (k : Chain) :
    (Level.chain k).strength < k.operand.strength := by
  cases k <;> decide

end Expr

open ExScript.Expr (Chain Level)

/-- The level of an operator. -/
def BinaryOp.level : BinaryOp → Level
  | or => .chain .or
  | and => .chain .and
  | eq | ne | lt | le | gt | ge | matching | notMatching => .comparison
  | add | sub | concat => .chain .sum
  | mul | div | rem => .chain .term

/-- The token of an operator. -/
def BinaryOp.token : BinaryOp → Token
  | add => .plus
  | sub => .minus
  | mul => .star
  | div => .slash
  | rem => .percent
  | concat => .dot
  | eq => .equal
  | ne => .notEqual
  | lt => .less
  | le => .lessEqual
  | gt => .greater
  | ge => .greaterEqual
  | matching => .matching
  | notMatching => .notMatching
  | and => .and
  | or => .or

/-- No two operators are written alike. -/
theorem BinaryOp.token_inj {op op' : BinaryOp} (h : op.token = op'.token) : op = op' := by
  cases op <;> cases op' <;> first | rfl | cases h

namespace Expr

/-- What can stand in front of a unary expression. -/
inductive Sign where
  | neg
  | not
  | pos
  deriving DecidableEq

/-- The token of a sign. -/
def Sign.token : Sign → Token
  | neg => .minus
  | not => .bang
  | pos => .plus

/-- What a sign makes of its operand: nothing is left of a plus. -/
def Sign.apply : Sign → Expr → Expr
  | neg, operand => .unary .neg operand
  | not, operand => .unary .not operand
  | pos, operand => operand

/-- No two signs are written alike; but a minus is a sign and an operator, and a plus as well. Which
one it is depends on whether an operand is in front of it. -/
theorem Sign.token_inj {sign sign' : Sign} (h : sign.token = sign'.token) : sign = sign' := by
  cases sign <;> cases sign' <;> first | rfl | cases h

/-! ### Derivations

One constructor for each alternative of a rule, with the trees of its parts. What the grammar writes
with a star is a symbol of its own here, so that trees have no lists of trees in them and the
induction is the one that comes with the type. -/

/-- The symbols of the grammar. -/
inductive Symbol where
  | level (l : Level)
  /-- The operators and operands of a level behind its first operand. -/
  | tail (k : Chain)
  /-- What stands in brackets: expressions with commas between them, or nothing. -/
  | items
  /-- The items behind the first one. -/
  | moreItems

/-- The derivation trees of a symbol. -/
inductive Derivation : Symbol → Type where
  -- `or`, `and`, `sum` and `term`
  | chain {k : Chain} (first : Derivation (.level k.operand)) (rest : Derivation (.tail k)) :
    Derivation (.level (.chain k))
  | stop {k : Chain} : Derivation (.tail k)
  | more {k : Chain} (op : BinaryOp) (h : op.level = .chain k)
    (operand : Derivation (.level k.operand)) (rest : Derivation (.tail k)) : Derivation (.tail k)
  -- `rel`
  | alone (operand : Derivation (.level (.chain .sum))) : Derivation (.level .comparison)
  | compare (op : BinaryOp) (h : op.level = .comparison)
    (left right : Derivation (.level (.chain .sum))) : Derivation (.level .comparison)
  -- `unary`
  | signed (sign : Sign) (operand : Derivation (.level .unary)) : Derivation (.level .unary)
  | bare (operand : Derivation (.level .primary)) : Derivation (.level .unary)
  -- `primary`
  | number (n : Int64) : Derivation (.level .primary)
  | text (s : String) : Derivation (.level .primary)
  | name (s : String) : Derivation (.level .primary)
  | call (s : String) (arguments : Derivation .items) : Derivation (.level .primary)
  | paren (inner : Derivation (.level (.chain .or))) : Derivation (.level .primary)
  | list (elements : Derivation .items) : Derivation (.level .primary)
  -- `items`
  | noItems : Derivation .items
  | someItems (first : Derivation (.level (.chain .or))) (rest : Derivation .moreItems) :
    Derivation .items
  | last : Derivation .moreItems
  | lastComma : Derivation .moreItems
  | next (item : Derivation (.level (.chain .or))) (rest : Derivation .moreItems) :
    Derivation .moreItems

/-- The structure that a symbol stands for. What stands behind a first operand waits for it. -/
def Symbol.Meaning : Symbol → Type
  | level _ => Expr
  | tail _ => Expr → Expr
  | items => List Expr
  | moreItems => List Expr

namespace Derivation

/-- The tokens at the leaves of a tree. -/
def tokens : {s : Symbol} → Derivation s → List Token
  | _, chain first rest => first.tokens ++ rest.tokens
  | _, stop => []
  | _, more op _ operand rest => op.token :: (operand.tokens ++ rest.tokens)
  | _, alone operand => operand.tokens
  | _, compare op _ left right => left.tokens ++ op.token :: right.tokens
  | _, signed sign operand => sign.token :: operand.tokens
  | _, bare operand => operand.tokens
  | _, number n => [.number n]
  | _, text s => [.text s]
  | _, name s => [.name s]
  | _, call s arguments => .name s :: .leftParen :: (arguments.tokens ++ [.rightParen])
  | _, paren inner => .leftParen :: (inner.tokens ++ [.rightParen])
  | _, list elements => .leftBracket :: (elements.tokens ++ [.rightBracket])
  | _, noItems => []
  | _, someItems first rest => first.tokens ++ rest.tokens
  | _, last => []
  | _, lastComma => [.comma]
  | _, next item rest => .comma :: (item.tokens ++ rest.tokens)

/-- The structure that a tree stands for: operators of one level are grouped to the left, and
nothing is left of parentheses and the unary plus. -/
def ast : {s : Symbol} → Derivation s → s.Meaning
  | _, chain first rest => rest.ast first.ast
  | _, stop => fun left => left
  | _, more op _ operand rest => fun left => rest.ast (.binary op left operand.ast)
  | _, alone operand => operand.ast
  | _, compare op _ left right => .binary op left.ast right.ast
  | _, signed sign operand => sign.apply operand.ast
  | _, bare operand => operand.ast
  | _, number n => .number n
  | _, text s => .text s
  | _, name s => .var s
  | _, call s arguments => .call s arguments.ast
  | _, paren inner => inner.ast
  | _, list elements => .list elements.ast
  | _, noItems => []
  | _, someItems first rest => first.ast :: rest.ast
  | _, last => []
  | _, lastComma => []
  | _, next item rest => item.ast :: rest.ast

end Derivation

/-! ### What can follow -/

/-- Whether a token goes on an expression of a level: it makes a call out of a name, or it is an
operator of the level or of a stronger one. -/
def Level.Continues (l : Level) (t : Token) : Prop :=
  t = .leftParen ∨ ∃ op : BinaryOp, op.token = t ∧ l.strength ≤ op.level.strength

/-- Whether an expression of a level ends in front of these tokens. -/
def Level.Stops (l : Level) (rest : List Token) : Prop :=
  ∀ t, rest.head? = some t → ¬l.Continues t

/-- Whether a token closes a bracket. -/
def Closes (t : Token) : Prop :=
  t = .rightParen ∨ t = .rightBracket

theorem Closes.ne_comma {c : Token} (h : Closes c) : c ≠ .comma := by
  rcases h with rfl | rfl <;> decide

/-- Whether a piece of the grammar ends in front of these tokens: items in front of a bracket that
closes, and everything else where no operator goes on. -/
def Symbol.Ends : Symbol → List Token → Prop
  | level l, rest => l.Stops rest
  | tail k, rest => (Level.chain k).Stops rest
  | items, rest => ∃ c behind, rest = c :: behind ∧ Closes c
  | moreItems, rest => ∃ c behind, rest = c :: behind ∧ Closes c

namespace Level.Stops

variable {l l' : Level} {rest : List Token}

theorem nil : l.Stops [] := by
  intro t ht
  cases ht

/-- What ends an expression ends a stronger one. -/
theorem mono (h : l.Stops rest) (hl : l.strength ≤ l'.strength) : l'.Stops rest := by
  intro t ht hcontinues
  refine h t ht ?_
  rcases hcontinues with hparen | ⟨op, hop, hstrength⟩
  · exact .inl hparen
  · exact .inr ⟨op, hop, Nat.le_trans hl hstrength⟩

/-- A weaker operator ends an expression. -/
theorem operator {op : BinaryOp} (h : op.level.strength < l.strength) :
    l.Stops (op.token :: rest) := by
  intro t ht hcontinues
  cases ht
  rcases hcontinues with hparen | ⟨op', hop, hstrength⟩
  · cases op <;> cases hparen
  · rw [BinaryOp.token_inj hop] at hstrength
    omega

/-- A comparison ends a sum. -/
theorem comparison {op : BinaryOp} (h : op.level = .comparison) :
    (Level.chain .sum).Stops (op.token :: rest) := by
  refine operator ?_
  rw [h]
  decide

/-- Commas and brackets are no operators. -/
theorem comma : l.Stops (.comma :: rest) := by
  intro t ht hcontinues
  cases ht
  rcases hcontinues with hparen | ⟨op, hop, -⟩
  · cases hparen
  · cases op <;> cases hop

theorem closing {c : Token} (h : Closes c) : l.Stops (c :: rest) := by
  intro t ht hcontinues
  cases ht
  rcases h with rfl | rfl <;> rcases hcontinues with hparen | ⟨op, hop, -⟩
  · cases hparen
  · cases op <;> cases hop
  · cases hparen
  · cases op <;> cases hop

/-- An operator does not end an expression of its own level. -/
theorem level_ne {op : BinaryOp} (h : l.Stops (op.token :: rest)) : op.level ≠ l := by
  rintro rfl
  exact h op.token rfl (.inr ⟨op, rfl, Nat.le_refl _⟩)

end Level.Stops

namespace Derivation

/-- The first operand of a chain ends where the operators of the level begin. -/
theorem stops_operand {k : Chain} (d : Derivation (.tail k)) {rest : List Token}
    (h : (Level.chain k).Stops rest) : k.operand.Stops (d.tokens ++ rest) := by
  cases d with
  | stop => exact h.mono (Nat.le_of_lt k.strength_operand)
  | more op hop =>
    refine Level.Stops.operator ?_
    rw [hop]
    exact k.strength_operand

/-- An item ends where the comma or bracket behind it stands. -/
theorem stops_item (d : Derivation .moreItems) {rest : List Token} (h : Symbol.moreItems.Ends rest)
    {l : Level} : l.Stops (d.tokens ++ rest) := by
  obtain ⟨c, behind, rfl, hc⟩ := h
  cases d with
  | last => exact .closing hc
  | lastComma => exact .comma
  | next => exact .comma

/-- An expression begins with something that neither separates items nor ends them. -/
theorem begins : {l : Level} → (d : Derivation (.level l)) →
    ∃ t ts, d.tokens = t :: ts ∧ t ≠ .comma ∧ ¬Closes t
  | _, chain first rest => by
    obtain ⟨t, ts, htokens, ht⟩ := begins first
    exact ⟨t, ts ++ rest.tokens, by simp [tokens, htokens], ht⟩
  | _, alone operand => begins operand
  | _, compare op _ left right => by
    obtain ⟨t, ts, htokens, ht⟩ := begins left
    exact ⟨t, ts ++ op.token :: right.tokens, by simp [tokens, htokens], ht⟩
  | _, signed sign _ => ⟨_, _, rfl, by cases sign <;> simp [Sign.token, Closes]⟩
  | _, bare operand => begins operand
  | _, number _ => ⟨_, _, rfl, by simp [Closes]⟩
  | _, text _ => ⟨_, _, rfl, by simp [Closes]⟩
  | _, name _ => ⟨_, _, rfl, by simp [Closes]⟩
  | _, call _ _ => ⟨_, _, rfl, by simp [Closes]⟩
  | _, paren _ => ⟨_, _, rfl, by simp [Closes]⟩
  | _, list _ => ⟨_, _, rfl, by simp [Closes]⟩

/-- So an item is never taken for the end of the items. -/
theorem ne_closing {l : Level} (d : Derivation (.level l)) {c : Token} {rest behind : List Token}
    (hc : Closes c) : d.tokens ++ rest ≠ c :: behind := by
  intro e
  obtain ⟨t, ts, htokens, -, ht⟩ := d.begins
  rw [htokens] at e
  cases e
  exact ht hc

/-- A primary expression begins with no sign. -/
theorem begins_primary (d : Derivation (.level .primary)) :
    ∃ t ts, d.tokens = t :: ts ∧ ∀ sign : Sign, sign.token ≠ t := by
  cases d <;> exact ⟨_, _, rfl, by rintro (_ | _ | _) <;> simp [Sign.token]⟩

/-- So a sign in front of it is never a part of it. -/
theorem ne_sign (d : Derivation (.level .primary)) {sign : Sign} {rest behind : List Token} :
    d.tokens ++ rest ≠ sign.token :: behind := by
  intro e
  obtain ⟨t, ts, htokens, ht⟩ := d.begins_primary
  rw [htokens] at e
  exact ht sign (List.cons.inj e).1.symm

/-! ### Uniqueness -/

/-- Two trees that agree on tokens up to where each can end are the same tree. The tokens behind a
piece are the end of another piece, so the induction carries them along.

In each case the other tree has the same symbol, and there are two possibilities. If it was built by
the same rule, the parts agree one after the other, each up to where the next one begins. If it was
built by another rule, the first token tells the two apart, or a part of one of them ends where in
the other an operator goes on. -/
theorem agree {s : Symbol} {d d' : Derivation s} {rest rest' : List Token} (h : s.Ends rest)
    (h' : s.Ends rest') (e : d.tokens ++ rest = d'.tokens ++ rest') : d = d' ∧ rest = rest' := by
  induction d generalizing rest rest' with
  | chain first tail ihFirst ihTail =>
    cases d' with
    | chain first' tail' =>
      simp only [tokens, List.append_assoc] at e
      obtain ⟨rfl, htail⟩ := ihFirst (tail.stops_operand h) (tail'.stops_operand h') e
      obtain ⟨rfl, rfl⟩ := ihTail h h' htail
      exact ⟨rfl, rfl⟩
  -- If one of the rows stops, the other one would go on with an operator where the first one ends.
  | stop =>
    cases d' with
    | stop => exact ⟨rfl, e⟩
    | more op hop operand tail =>
      rw [tokens, List.nil_append] at e
      subst e
      exact absurd hop h.level_ne
  | more op hop operand tail ihOperand ihTail =>
    cases d' with
    | stop =>
      have e' : rest' = op.token :: (operand.tokens ++ tail.tokens ++ rest) := e.symm
      subst e'
      exact absurd hop h'.level_ne
    | more op' hop' operand' tail' =>
      simp only [tokens, List.cons_append, List.append_assoc, List.cons.injEq] at e
      obtain ⟨hoperator, hoperand⟩ := e
      cases BinaryOp.token_inj hoperator
      obtain ⟨rfl, htail⟩ := ihOperand (tail.stops_operand h) (tail'.stops_operand h') hoperand
      obtain ⟨rfl, rfl⟩ := ihTail h h' htail
      exact ⟨rfl, rfl⟩
  -- The same with a comparison behind a sum
  | alone operand ih =>
    cases d' with
    | alone operand' =>
      obtain ⟨rfl, rfl⟩ := ih (h.mono (by decide)) (h'.mono (by decide)) e
      exact ⟨rfl, rfl⟩
    | compare op hop left right =>
      simp only [tokens, List.append_assoc, List.cons_append] at e
      obtain ⟨rfl, rfl⟩ := ih (h.mono (by decide)) (.comparison hop) e
      exact absurd hop h.level_ne
  | compare op hop left right ihLeft ihRight =>
    cases d' with
    | alone operand =>
      simp only [tokens, List.append_assoc, List.cons_append] at e
      obtain ⟨rfl, rfl⟩ := ihLeft (.comparison hop) (h'.mono (by decide)) e
      exact absurd hop h'.level_ne
    | compare op' hop' left' right' =>
      simp only [tokens, List.append_assoc, List.cons_append] at e
      obtain ⟨rfl, hright⟩ := ihLeft (.comparison hop) (.comparison hop') e
      simp only [List.cons.injEq] at hright
      obtain ⟨hoperator, hright⟩ := hright
      cases BinaryOp.token_inj hoperator
      obtain ⟨rfl, rfl⟩ := ihRight (h.mono (by decide)) (h'.mono (by decide)) hright
      exact ⟨rfl, rfl⟩
  -- Signs are told from primary expressions by their tokens
  | signed sign operand ih =>
    cases d' with
    | signed sign' operand' =>
      simp only [tokens, List.cons_append, List.cons.injEq] at e
      obtain ⟨hsign, hoperand⟩ := e
      cases Sign.token_inj hsign
      obtain ⟨rfl, rfl⟩ := ih h h' hoperand
      exact ⟨rfl, rfl⟩
    | bare operand' =>
      exact absurd e.symm operand'.ne_sign
  | bare operand ih =>
    cases d' with
    | bare operand' =>
      obtain ⟨rfl, rfl⟩ := ih (h.mono (by decide)) (h'.mono (by decide)) e
      exact ⟨rfl, rfl⟩
    | signed sign operand' =>
      exact absurd e operand.ne_sign
  | number n =>
    cases d' with
    | number n' =>
      cases e
      exact ⟨rfl, rfl⟩
    | _ => cases (List.cons.inj e).1
  | text x =>
    cases d' with
    | text x' =>
      cases e
      exact ⟨rfl, rfl⟩
    | _ => cases (List.cons.inj e).1
  -- A name ends where no parenthesis follows, so it is not the name of a call
  | name x =>
    cases d' with
    | name x' =>
      cases e
      exact ⟨rfl, rfl⟩
    | call x' arguments =>
      cases e
      exact absurd (.inl rfl) (h .leftParen rfl)
    | _ => cases (List.cons.inj e).1
  | call x arguments ih =>
    cases d' with
    | name x' =>
      cases e
      exact absurd (.inl rfl) (h' .leftParen rfl)
    | call x' arguments' =>
      simp only [tokens, List.cons_append, List.append_assoc, List.cons.injEq, Token.name.injEq,
        List.nil_append, true_and] at e
      obtain ⟨rfl, hitems⟩ := e
      obtain ⟨rfl, hrest⟩ := ih ⟨_, _, rfl, .inl rfl⟩ ⟨_, _, rfl, .inl rfl⟩ hitems
      cases hrest
      exact ⟨rfl, rfl⟩
    | _ => cases (List.cons.inj e).1
  | paren inner ih =>
    cases d' with
    | paren inner' =>
      simp only [tokens, List.cons_append, List.append_assoc, List.cons.injEq, List.nil_append,
        true_and] at e
      obtain ⟨rfl, hrest⟩ := ih (.closing (.inl rfl)) (.closing (.inl rfl)) e
      cases hrest
      exact ⟨rfl, rfl⟩
    | _ => cases (List.cons.inj e).1
  | list elements ih =>
    cases d' with
    | list elements' =>
      simp only [tokens, List.cons_append, List.append_assoc, List.cons.injEq, List.nil_append,
        true_and] at e
      obtain ⟨rfl, hrest⟩ := ih ⟨_, _, rfl, .inr rfl⟩ ⟨_, _, rfl, .inr rfl⟩ e
      cases hrest
      exact ⟨rfl, rfl⟩
    | _ => cases (List.cons.inj e).1
  -- Items end at a bracket, and an item begins with none
  | noItems =>
    cases d' with
    | noItems => exact ⟨rfl, e⟩
    | someItems first others =>
      obtain ⟨c, behind, rfl, hc⟩ := h
      rw [tokens, tokens, List.append_assoc] at e
      exact absurd e.symm (first.ne_closing hc)
  | someItems first others ihFirst ihOthers =>
    cases d' with
    | noItems =>
      obtain ⟨c, behind, rfl, hc⟩ := h'
      rw [tokens, tokens, List.append_assoc] at e
      exact absurd e (first.ne_closing hc)
    | someItems first' others' =>
      simp only [tokens, List.append_assoc] at e
      obtain ⟨rfl, hothers⟩ := ihFirst (others.stops_item h) (others'.stops_item h') e
      obtain ⟨rfl, rfl⟩ := ihOthers h h' hothers
      exact ⟨rfl, rfl⟩
  | last =>
    cases d' with
    | last => exact ⟨rfl, e⟩
    | lastComma =>
      obtain ⟨c, behind, rfl, hc⟩ := h
      exact absurd (List.cons.inj e).1 hc.ne_comma
    | next item others =>
      obtain ⟨c, behind, rfl, hc⟩ := h
      exact absurd (List.cons.inj e).1 hc.ne_comma
  | lastComma =>
    cases d' with
    | last =>
      obtain ⟨c, behind, rfl, hc⟩ := h'
      exact absurd (List.cons.inj e).1.symm hc.ne_comma
    | lastComma => exact ⟨rfl, (List.cons.inj e).2⟩
    | next item others =>
      obtain ⟨c, behind, rfl, hc⟩ := h
      simp only [tokens, List.cons_append, List.append_assoc, List.cons.injEq, true_and] at e
      exact absurd e.symm (item.ne_closing hc)
  | next item others ihItem ihOthers =>
    cases d' with
    | last =>
      obtain ⟨c, behind, rfl, hc⟩ := h'
      exact absurd (List.cons.inj e).1.symm hc.ne_comma
    | lastComma =>
      obtain ⟨c, behind, rfl, hc⟩ := h'
      simp only [tokens, List.cons_append, List.append_assoc, List.cons.injEq, true_and] at e
      exact absurd e (item.ne_closing hc)
    | next item' others' =>
      simp only [tokens, List.cons_append, List.append_assoc, List.cons.injEq, true_and] at e
      obtain ⟨rfl, hothers⟩ := ihItem (others.stops_item h) (others'.stops_item h') e
      obtain ⟨rfl, rfl⟩ := ihOthers h h' hothers
      exact ⟨rfl, rfl⟩

/-- **The grammar is unambiguous**: a tree is determined by its tokens. -/
theorem unique {l : Level} {d d' : Derivation (.level l)} (h : d.tokens = d'.tokens) : d = d' := by
  have e : d.tokens ++ [] = d'.tokens ++ [] := by rw [h]
  have ends : (Symbol.level l).Ends [] := Level.Stops.nil
  exact (agree ends ends e).1

end Derivation

end Expr

end ExScript
