import ExScript.Pattern.CharSet

/-!
# Search patterns

The right side of `=~` is a pattern, and the question is whether it matches somewhere in a text.
Only that is asked, never where or how, so a pattern denotes a relation between the places of a
text: from a place, which places can a match end at?

`Pattern.reach` answers for sets of places. A place is a gap between characters; a set of places
is a list of flags, one for each place from the start of the text to its end. Repetition is the
closure of a set under its body, reached in at most as many rounds as there are places, so a
search is polynomial in the text whatever the pattern.

The notation and its meaning are those of a library that expressions call and that is no part of the
program. The modules below `Pattern` stand in for it, so that expressions can be evaluated. No
theorem looks at what a pattern matches: where `=~` takes part in one, all that is used is that the
answer depends on the two texts and on nothing else.
-/

namespace ExScript

/-- A condition on a place of a text. -/
inductive Pattern.Boundary where
  | textStart
  | textEnd
  | lineStart
  | lineEnd
  | word
  | notWord
  | wordStart
  | wordEnd
  | wordStartHalf
  | wordEndHalf
  deriving DecidableEq, Repr

/-- A search pattern. -/
inductive Pattern where
  | empty
  | chars (set : Pattern.CharSet)
  | boundary (b : Pattern.Boundary)
  | seq (p q : Pattern)
  | alt (p q : Pattern)
  /-- A group in parentheses, which may have a name. -/
  | group (name : Option (List Char)) (p : Pattern)
  /-- The pattern at least `least` times, and at most `most` times if a limit is given. -/
  | repeated (p : Pattern) (least : Nat) (most : Option Nat)

namespace Pattern

/-! ### Places -/

/-- The characters beside each place of a text, given the character before its first place. -/
def spotsAfter (before : Option Char) : List Char → List (Option Char × Option Char)
  | [] => [(before, none)]
  | c :: rest => (before, some c) :: spotsAfter (some c) rest

/-- The characters before and behind each place of a text. -/
def spots (text : List Char) : List (Option Char × Option Char) :=
  spotsAfter none text

/-- Whether a character is there and part of a word. -/
def isWordAt (c : Option Char) : Bool :=
  c.any isWordChar

/-- Whether a condition holds at the place between two characters. -/
def Boundary.holds (b : Boundary) (before behind : Option Char) : Bool :=
  match b with
  | textStart => before.isNone
  | textEnd => behind.isNone
  | lineStart => before.isNone || before == some '\n'
  | lineEnd => behind.isNone || behind == some '\n'
  | word => isWordAt before != isWordAt behind
  | notWord => isWordAt before == isWordAt behind
  | wordStart => !isWordAt before && isWordAt behind
  | wordEnd => isWordAt before && !isWordAt behind
  | wordStartHalf => !isWordAt before
  | wordEndHalf => !isWordAt behind

/-! ### Sets of places -/

/-- A set of places of a text: a flag for each, from first to last. -/
abbrev Places := List Bool

/-- The places of either set. -/
def Places.union (s t : Places) : Places :=
  s.zipWith (· || ·) t

/-- The places that `step` reaches from a set in exactly `n` rounds. -/
def Places.iterate (step : Places → Places) : Nat → Places → Places
  | 0, s => s
  | n + 1, s => if s.any id then iterate step n (step s) else s

/-- The places that `step` reaches from a set in at most `n` rounds. -/
def Places.closure (step : Places → Places) : Nat → Places → Places
  | 0, s => s
  | n + 1, s =>
    let more := s.union (step s)
    if more == s then s else closure step n more

/-! ### Matching -/

/-- The places where a match that starts at one of the given places can end. -/
def reach (text : List Char) : Pattern → Places → Places
  | empty, s => s
  | chars set, s => false :: s.zipWith (fun here c => here && set.contains c) text
  | boundary b, s => s.zipWith (fun here spot => here && b.holds spot.1 spot.2) (spots text)
  | seq p q, s => reach text q (reach text p s)
  | alt p q, s => (reach text p s).union (reach text q s)
  | group _ p, s => reach text p s
  | repeated p least most, s =>
    let rounds := match most with
      | some m => min (m - least) (text.length + 1)
      | none => text.length + 1
    Places.closure (reach text p) rounds (Places.iterate (reach text p) least s)

/-- Whether the pattern matches somewhere in a text. -/
def isMatch (p : Pattern) (text : List Char) : Bool :=
  (p.reach text (true :: text.map fun _ => true)).any id

/-! ### Well-formedness of the whole -/

/-- The names of the groups. -/
def groupNames : Pattern → List (List Char)
  | empty => []
  | chars _ => []
  | boundary _ => []
  | seq p q => p.groupNames ++ q.groupNames
  | alt p q => p.groupNames ++ q.groupNames
  | group name p => name.toList ++ p.groupNames
  | repeated p _ _ => p.groupNames

/-- About how many steps of an automaton the pattern takes. -/
def weight : Pattern → Nat
  | empty => 1
  | chars set => set.weight
  | boundary _ => 1
  | seq p q => p.weight + q.weight
  | alt p q => p.weight + q.weight + 1
  | group _ p => p.weight + 2
  | repeated p least most => p.weight * max 1 (max least (most.getD 0))

/-- The largest weight that a pattern may have. -/
def maxWeight : Nat := 320000

end Pattern

end ExScript
