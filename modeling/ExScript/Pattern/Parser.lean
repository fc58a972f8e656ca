import ExScript.Numeral
import ExScript.Pattern.Basic

/-!
# Reading search patterns

The notation of patterns: literals, `.`, `^` and `$`, the repetitions `*`, `+`, `?` and
`\x7bn,m\x7d`, alternatives, groups, bracketed sets, and escapes. A group may start with flags, and
flags alone in parentheses hold to the end of the group they stand in. What is no pattern, such as
a repetition of nothing or a bracket that is not closed, is refused, and so are look-around and
back-references, which are no patterns in the sense of `Pattern`.

Whether a repetition is greedy or lazy changes where a match lies, but not whether there is one, so
the mark of laziness is read and forgotten.

As said in `Pattern/Basic.lean`, this stands in for a library, and no theorem is about it.
-/

namespace ExScript.Pattern

/-- What flags change in the meaning of a pattern. -/
structure Flags where
  /-- `i`: letters match whatever their case. -/
  ignoreCase : Bool := false
  /-- `m`: `^` and `$` hold at line breaks too. -/
  multiLine : Bool := false
  /-- `s`: `.` matches a line feed too. -/
  dotAll : Bool := false
  /-- `x`: blanks and comments in the pattern are passed over. -/
  verbose : Bool := false

namespace Flags

/-- The meaning of a set of characters under the flags. -/
def apply (flags : Flags) (set : CharSet) : CharSet :=
  if flags.ignoreCase then .anyCase set else set

/-- Sets or clears the flag that a letter names; `U`, which swaps greedy and lazy, has no effect
on whether there is a match. -/
def set? (flags : Flags) (on : Bool) : Char → Option Flags
  | 'i' => some { flags with ignoreCase := on }
  | 'm' => some { flags with multiLine := on }
  | 's' => some { flags with dotAll := on }
  | 'x' => some { flags with verbose := on }
  | 'U' => some flags
  | _ => none

end Flags

/-! ### Escapes -/

/-- What an escape stands for. -/
inductive Escape where
  | literal (c : Char)
  | charClass (set : CharSet)
  | boundary (b : Boundary)

/-- The value of a hexadecimal digit. -/
def hexValue? (c : Char) : Option Nat :=
  if '0' ≤ c ∧ c ≤ '9' then some (c.toNat - '0'.toNat)
  else if 'a' ≤ c ∧ c ≤ 'f' then some (c.toNat - 'a'.toNat + 10)
  else if 'A' ≤ c ∧ c ≤ 'F' then some (c.toNat - 'A'.toNat + 10)
  else none

/-- The character that hexadecimal digits denote, if there is one. -/
def hexChar? (digits : List Char) : Option Char :=
  if digits.isEmpty then none
  else
    match digits.mapM hexValue? with
    | none => none
    | some values =>
      let n := values.foldl (fun n d => 16 * n + d) 0
      if h : n.isValidChar then some (Char.ofNatAux n h) else none

/-- A character given by its code: digits in braces, or `count` digits without. -/
def readHex (count : Nat) : List Char → Option (Char × List Char)
  | '\x7b' :: rest =>
    match rest.dropWhile (· ≠ '\x7d') with
    | _ :: behind => (hexChar? (rest.takeWhile (· ≠ '\x7d'))).map (·, behind)
    | [] => none
  | rest =>
    if rest.length < count then none else (hexChar? (rest.take count)).map (·, rest.drop count)

/-- The boundary that a name in braces behind `\b` selects. -/
def boundaryNamed? : List Char → Option Boundary
  | ['s', 't', 'a', 'r', 't'] => some .wordStart
  | ['e', 'n', 'd'] => some .wordEnd
  | ['s', 't', 'a', 'r', 't', '-', 'h', 'a', 'l', 'f'] => some .wordStartHalf
  | ['e', 'n', 'd', '-', 'h', 'a', 'l', 'f'] => some .wordEndHalf
  | _ => none

/-- A word boundary, whose kind may follow in braces; other braces are a repetition. -/
def readWordBoundary : List Char → Option (Boundary × List Char)
  | '\x7b' :: rest =>
    let isNameChar := fun c : Char => c.isAlpha || c == '-'
    match rest.takeWhile isNameChar, rest.dropWhile isNameChar with
    | [], [] => none
    | [], _ :: _ => some (.word, '\x7b' :: rest)
    | name, '\x7d' :: behind => (boundaryNamed? name).map (·, behind)
    | _, _ => none
  | rest => some (.word, rest)

/-- What follows a backslash. A punctuation mark of ASCII stands for itself; letters and digits
without a meaning are refused. -/
def readEscape : List Char → Option (Escape × List Char)
  | [] => none
  | 'd' :: rest => some (.charClass .digit, rest)
  | 'D' :: rest => some (.charClass (.complement .digit), rest)
  | 's' :: rest => some (.charClass .blank, rest)
  | 'S' :: rest => some (.charClass (.complement .blank), rest)
  | 'w' :: rest => some (.charClass .word, rest)
  | 'W' :: rest => some (.charClass (.complement .word), rest)
  | 'a' :: rest => some (.literal '\x07', rest)
  | 'f' :: rest => some (.literal '\x0c', rest)
  | 'n' :: rest => some (.literal '\n', rest)
  | 'r' :: rest => some (.literal '\r', rest)
  | 't' :: rest => some (.literal '\t', rest)
  | 'v' :: rest => some (.literal '\x0b', rest)
  | 'x' :: rest => (readHex 2 rest).map fun r => (.literal r.1, r.2)
  | 'u' :: rest => (readHex 4 rest).map fun r => (.literal r.1, r.2)
  | 'U' :: rest => (readHex 8 rest).map fun r => (.literal r.1, r.2)
  | 'A' :: rest => some (.boundary .textStart, rest)
  | 'z' :: rest => some (.boundary .textEnd, rest)
  | 'b' :: rest => (readWordBoundary rest).map fun r => (.boundary r.1, r.2)
  | 'B' :: rest => some (.boundary .notWord, rest)
  | '<' :: rest => some (.boundary .wordStart, rest)
  | '>' :: rest => some (.boundary .wordEnd, rest)
  | c :: rest => if c.toNat < 0x80 ∧ ¬c.isAlphanum then some (.literal c, rest) else none

/-! ### Bracketed sets -/

/-- What stands inside a bracketed set at one place: a character, or a class. -/
inductive Member where
  | char (c : Char)
  | charClass (set : CharSet)

/-- The set of a member alone. -/
def Member.set : Member → CharSet
  | char c => .single c
  | charClass set => set

/-- A member of a bracketed set. -/
def readMember : List Char → Option (Member × List Char)
  | [] => none
  | '\\' :: rest =>
    match readEscape rest with
    | some (.literal c, rest) => some (.char c, rest)
    | some (.charClass set, rest) => some (.charClass set, rest)
    | _ => none
  | c :: rest => some (.char c, rest)

/-- A member of a bracketed set, or a range between two of them. A hyphen before the closing
bracket or before another hyphen makes no range. -/
def readRange (text : List Char) : Option (CharSet × List Char) :=
  match readMember text with
  | none => none
  | some (first, rest) =>
    match rest with
    | [] => none
    | '-' :: ']' :: _ => some (first.set, rest)
    | '-' :: '-' :: _ => some (first.set, rest)
    | '-' :: behind =>
      match first, readMember behind with
      | .char c, some (.char d, rest) => if c ≤ d then some (.range c d, rest) else none
      | _, _ => none
    | _ => some (first.set, rest)

/-- A named class in a bracketed set, if one follows the opening bracket. -/
def readNamedClass : List Char → Option (CharSet × List Char)
  | ':' :: rest =>
    let (negated, rest) := match rest with
      | '^' :: rest => (true, rest)
      | rest => (false, rest)
    match rest.takeWhile (· ≠ ':'), rest.dropWhile (· ≠ ':') with
    | name, ':' :: ']' :: behind =>
      (CharSet.named? (String.ofList name)).map fun set =>
        (if negated then .complement set else set, behind)
    | _, _ => none
  | _ => none

/-- The ways to combine two sets in brackets. -/
inductive SetOp where
  | inter
  | diff
  | symmDiff

/-- What combines two sets. -/
def SetOp.apply : SetOp → CharSet → CharSet → CharSet
  | inter, a, b => .inter a b
  | diff, a, b => a.diff b
  | symmDiff, a, b => a.symmDiff b

/-- A bracketed set while it is read: what stands left of the last operator, and the members since
then. -/
structure SetDraft where
  left : Option (CharSet × SetOp) := none
  members : CharSet := .none

namespace SetDraft

/-- The draft with more members. -/
def add (draft : SetDraft) (set : CharSet) : SetDraft :=
  { draft with members := .union draft.members set }

/-- The set that the draft denotes if nothing follows. -/
def finish (draft : SetDraft) : CharSet :=
  match draft.left with
  | some (a, op) => op.apply a draft.members
  | none => draft.members

/-- The draft behind an operator; operators group to the left. -/
def operator (draft : SetDraft) (op : SetOp) : SetDraft :=
  { left := some (draft.finish, op) }

end SetDraft

/-- The beginning of a bracketed set: whether it is negated, the hyphens that stand for themselves
there, and a closing bracket that does. -/
def openSet (text : List Char) : Bool × SetDraft × List Char :=
  let (negated, rest) := match text with
    | '^' :: rest => (true, rest)
    | rest => (false, rest)
  let draft : SetDraft := { }
  match rest with
  | '-' :: _ => (negated, draft.add (.single '-'), rest.dropWhile (· = '-'))
  | ']' :: behind => (negated, draft.add (.single ']'), behind)
  | _ => (negated, draft, rest)

/-- The members of a bracketed set up to its closing bracket, given the reader of sets nested in
it. Each step reads a character, so the length of the text is enough steps. -/
def readMembers (nested : List Char → Option (CharSet × List Char)) :
    Nat → SetDraft → List Char → Option (CharSet × List Char)
  | 0, _, _ => none
  | _ + 1, _, [] => none
  | _ + 1, draft, ']' :: rest => some (draft.finish, rest)
  | n + 1, draft, '&' :: '&' :: rest => readMembers nested n (draft.operator .inter) rest
  | n + 1, draft, '-' :: '-' :: rest => readMembers nested n (draft.operator .diff) rest
  | n + 1, draft, '~' :: '~' :: rest => readMembers nested n (draft.operator .symmDiff) rest
  | n + 1, draft, '[' :: rest =>
    match readNamedClass rest with
    | some (set, rest) => readMembers nested n (draft.add set) rest
    | none =>
      match nested rest with
      | some (set, rest) => readMembers nested n (draft.add set) rest
      | none => none
  | n + 1, draft, text =>
    match readRange text with
    | some (set, rest) => readMembers nested n (draft.add set) rest
    | none => none

/-- A bracketed set behind its opening bracket, with sets nested in it up to a depth. Case is
ignored in a set before the set is negated. -/
def readSet (flags : Flags) : Nat → List Char → Option (CharSet × List Char)
  | 0, _ => none
  | depth + 1, text =>
    let (negated, draft, rest) := openSet text
    match readMembers (readSet flags depth) (rest.length + 1) draft rest with
    | some (set, rest) =>
      some (if negated then .complement (flags.apply set) else flags.apply set, rest)
    | none => none

/-! ### Groups -/

/-- What an opening parenthesis begins. -/
inductive Opening where
  /-- Flags alone, which hold from here on. -/
  | flags (flags : Flags)
  /-- A group, with its name and the flags inside it. -/
  | group (name : Option (List Char)) (flags : Flags)

/-- Flags up to a colon or closing parenthesis. Each flag may stand once, and a minus must be
followed by a flag. -/
def readFlags (flags : Flags) (on : Bool) (seen : List Char) :
    List Char → Option (Opening × List Char)
  | [] => none
  | ':' :: rest => if seen.head? = some '-' then none else some (.group none flags, rest)
  | ')' :: rest =>
    if seen.isEmpty || seen.head? == some '-' then none else some (.flags flags, rest)
  | '-' :: rest => if on then readFlags flags false ('-' :: seen) rest else none
  | c :: rest =>
    if seen.contains c then none
    else
      match flags.set? on c with
      | some flags => readFlags flags on (c :: seen) rest
      | none => none

/-- Whether a text can name a group. -/
def isGroupName : List Char → Bool
  | [] => false
  | c :: rest =>
    let isStart := fun c : Char => c == '_' || (isWordChar c && !isDecimalDigit c)
    isStart c && rest.all fun c => isWordChar c || c == '.' || c == '[' || c == ']'

/-- The name of a group up to its closing angle bracket. -/
def readGroupName (flags : Flags) (text : List Char) : Option (Opening × List Char) :=
  match text.takeWhile (· ≠ '>'), text.dropWhile (· ≠ '>') with
  | name, _ :: rest => if isGroupName name then some (.group (some name) flags, rest) else none
  | _, [] => none

/-- What follows an opening parenthesis. -/
def readOpening (flags : Flags) : List Char → Option (Opening × List Char)
  | '?' :: '=' :: _ => none
  | '?' :: '!' :: _ => none
  | '?' :: '<' :: '=' :: _ => none
  | '?' :: '<' :: '!' :: _ => none
  | '?' :: 'P' :: '<' :: rest => readGroupName flags rest
  | '?' :: '<' :: rest => readGroupName flags rest
  | '?' :: rest => readFlags flags true [] rest
  | rest => some (.group none flags, rest)

/-! ### Repetition -/

/-- A decimal number with blanks around it, as it stands in the braces of a repetition. -/
def readCount (text : List Char) : Option (Nat × List Char) :=
  let (digits, rest) := Numeral.digits (Text.trimStart text)
  if digits.isEmpty || Numeral.value digits > 0xffff_ffff then none
  else some (Numeral.value digits, Text.trimStart rest)

/-- The bounds of a repetition behind its opening brace. -/
def readBounds (text : List Char) : Option (Nat × Option Nat × List Char) :=
  match readCount text with
  | some (least, '\x7d' :: rest) => some (least, some least, rest)
  | some (least, ',' :: '\x7d' :: rest) => some (least, none, rest)
  | some (least, ',' :: rest) =>
    match readCount rest with
    | some (most, '\x7d' :: rest) => if least ≤ most then some (least, some most, rest) else none
    | _ => none
  | _ => none

/-- The text behind the mark that a repetition is lazy, if it stands there. -/
def dropLazy : List Char → List Char
  | '?' :: rest => rest
  | rest => rest

/-! ### Whole patterns -/

/-- A pattern while it is read: the finished alternatives and the parts of the current one, both
latest first, and whether the last part can be repeated. -/
structure Draft where
  branches : List Pattern := []
  parts : List Pattern := []
  repeatable : Bool := false

namespace Draft

/-- The parts of the current alternative, one after the other. -/
def branch (draft : Draft) : Pattern :=
  match draft.parts with
  | [] => .empty
  | last :: before => before.foldl (fun behind p => .seq p behind) last

/-- The pattern that the draft denotes if nothing follows. -/
def finish (draft : Draft) : Pattern :=
  draft.branches.foldl (fun behind p => .alt p behind) draft.branch

/-- The draft with another part. -/
def push (draft : Draft) (p : Pattern) : Draft :=
  { draft with parts := p :: draft.parts, repeatable := true }

/-- The draft at the beginning of another alternative. -/
def nextBranch (draft : Draft) : Draft :=
  { branches := draft.branch :: draft.branches }

/-- The draft behind flags, which cannot be repeated. -/
def afterFlags (draft : Draft) : Draft :=
  { draft with repeatable := false }

/-- The draft with its last part repeated, if there is one. -/
def repeatLast? (draft : Draft) (least : Nat) (most : Option Nat) : Option Draft :=
  match draft.repeatable, draft.parts with
  | true, p :: before => some { draft with parts := .repeated p least most :: before }
  | _, _ => none

end Draft

/-- The pattern of a single character or escape outside brackets. -/
def readSingle (flags : Flags) : List Char → Option (Pattern × List Char)
  | [] => none
  | '.' :: rest =>
    some (.chars (if flags.dotAll then .any else .complement (.single '\n')), rest)
  | '^' :: rest => some (.boundary (if flags.multiLine then .lineStart else .textStart), rest)
  | '$' :: rest => some (.boundary (if flags.multiLine then .lineEnd else .textEnd), rest)
  | '\\' :: rest =>
    match readEscape rest with
    | some (.literal c, rest) => some (.chars (flags.apply (.single c)), rest)
    | some (.charClass set, rest) => some (.chars set, rest)
    | some (.boundary b, rest) => some (.boundary b, rest)
    | none => none
  | c :: rest => some (.chars (flags.apply (.single c)), rest)

/-- Alternatives up to a closing parenthesis or the end of the text, given the reader of groups
nested in them. Each step reads a character, so the length of the text is enough steps. -/
def readParts (nested : Flags → List Char → Option (Pattern × List Char)) :
    Nat → Flags → Draft → List Char → Option (Pattern × List Char)
  | 0, _, _, _ => none
  | _ + 1, _, draft, [] => some (draft.finish, [])
  | _ + 1, _, draft, ')' :: rest => some (draft.finish, ')' :: rest)
  | n + 1, flags, draft, '|' :: rest => readParts nested n flags draft.nextBranch rest
  | n + 1, flags, draft, '(' :: rest =>
    match readOpening flags rest with
    | none => none
    | some (.flags flags, rest) => readParts nested n flags draft.afterFlags rest
    | some (.group name inner, rest) =>
      match nested inner rest with
      | some (p, ')' :: rest) => readParts nested n flags (draft.push (.group name p)) rest
      | _ => none
  | n + 1, flags, draft, '[' :: rest =>
    match readSet flags (rest.length + 1) rest with
    | some (set, rest) => readParts nested n flags (draft.push (.chars set)) rest
    | none => none
  | n + 1, flags, draft, '*' :: rest =>
    match draft.repeatLast? 0 none with
    | some draft => readParts nested n flags draft (dropLazy rest)
    | none => none
  | n + 1, flags, draft, '+' :: rest =>
    match draft.repeatLast? 1 none with
    | some draft => readParts nested n flags draft (dropLazy rest)
    | none => none
  | n + 1, flags, draft, '?' :: rest =>
    match draft.repeatLast? 0 (some 1) with
    | some draft => readParts nested n flags draft (dropLazy rest)
    | none => none
  | n + 1, flags, draft, '\x7b' :: rest =>
    match readBounds rest with
    | some (least, most, rest) =>
      match draft.repeatLast? least most with
      | some draft => readParts nested n flags draft (dropLazy rest)
      | none => none
    | none => none
  | n + 1, flags, draft, c :: rest =>
    if flags.verbose && isBlank c then readParts nested n flags draft rest
    else if flags.verbose && c == '#' then
      readParts nested n flags draft (rest.dropWhile (· ≠ '\n'))
    else
      match readSingle flags (c :: rest) with
      | some (p, rest) => readParts nested n flags (draft.push p) rest
      | none => none

/-- A pattern with groups nested up to a depth, and what follows it. -/
def readNested : Nat → Flags → List Char → Option (Pattern × List Char)
  | 0, _, _ => none
  | depth + 1, flags, text => readParts (readNested depth) (text.length + 1) flags { } text

/-- Whether no item of a list stands in it twice. -/
def allDistinct : List (List Char) → Bool
  | [] => true
  | a :: rest => !rest.contains a && allDistinct rest

/-- The pattern that a text denotes. Groups have different names, and the whole must not grow too
large when its repetitions are written out. -/
def parse? (text : List Char) : Option Pattern :=
  match readNested (text.length + 1) { } text with
  | some (p, []) =>
    if allDistinct p.groupNames && p.weight ≤ maxWeight then some p else none
  | _ => none

end ExScript.Pattern
