import ExScript.Text.LetterTable

/-!
# Capital and small letters

User commands start with a capital letter of any script, and listings are sorted without regard
to case. Both follow Unicode: a letter is a capital when it has the Uppercase property, and the
small form of a text is that of its letters one by one, except that a capital sigma at the end
of a word becomes the final sigma.
-/

namespace ExScript

/-- Whether a character has the Uppercase property. -/
def isUppercase (c : Char) : Bool :=
  if c.toNat < 0x80 then c.isUpper else uppercaseRuns.any fun run => run.contains c.toNat

/-- The small letter of a single letter; a character without one stands for itself. -/
def smallLetter (c : Char) : Char :=
  if c.toNat < 0x80 then c.toLower
  else ((CodeShift.image? lowercaseShifts c.toNat).map Char.ofNat).getD c

/-- The common form of all letters that are the same letter when case is ignored. -/
def foldCase (c : Char) : Char :=
  if c.toNat < 0x80 then c.toLower
  else ((CodeShift.image? foldExceptions c.toNat).map Char.ofNat).getD (smallLetter c)

namespace Text

/-- Whether the nearest character that is not passed over is a letter with case. -/
def meetsCased (nearby : List Char) : Bool :=
  match nearby.find? fun c => !(caseIgnorableRuns.any fun run => run.contains c.toNat) with
  | some c => casedRuns.any fun run => run.contains c.toNat
  | none => false

/-- The small form of a text, given in reverse what stands before it. -/
def lowercaseAfter (before : List Char) : List Char → List Char
  | [] => []
  | 'Σ' :: rest =>
    (if meetsCased before && !meetsCased rest then 'ς' else 'σ') ::
      lowercaseAfter ('Σ' :: before) rest
  | 'İ' :: rest => 'i' :: '\u0307' :: lowercaseAfter ('İ' :: before) rest
  | c :: rest => smallLetter c :: lowercaseAfter (c :: before) rest

/-- The small form of a text. -/
def lowercase (text : List Char) : List Char :=
  lowercaseAfter [] text

end Text

end ExScript
