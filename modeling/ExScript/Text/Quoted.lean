/-!
# Quoted text

A string literal of an expression stands between single or double quotes. Between single quotes a
quote is written twice and every other character stands for itself; between double quotes a
backslash gives the next character a meaning of its own. Each form has its writer and its reader
here. A literal may lack its closing quote: then it reaches to the end of the text.

## Main results

* `Text.readSingle_writeSingle`, `Text.readDouble_writeDouble` — reading undoes writing
-/

namespace ExScript.Text

/-! ### Single quotes -/

/-- The text with each single quote doubled. -/
def doubleSingles (text : List Char) : List Char :=
  text.flatMap fun c => if c = '\'' then ['\'', '\''] else [c]

theorem doubleSingles_cons (c : Char) (text : List Char) :
    doubleSingles (c :: text) =
      (if c = '\'' then ['\'', '\''] else [c]) ++ doubleSingles text := rfl

/-- The text between single quotes. -/
def writeSingle (text : List Char) : List Char :=
  '\'' :: doubleSingles text ++ ['\'']

/-- The content of a literal whose opening single quote was just read, and what follows it. -/
def readSingle : List Char → List Char × List Char
  | [] => ([], [])
  | '\'' :: '\'' :: rest => ('\'' :: (readSingle rest).1, (readSingle rest).2)
  | '\'' :: rest => ([], rest)
  | c :: rest => (c :: (readSingle rest).1, (readSingle rest).2)

theorem readSingle_cons_of_ne {c : Char} (hc : c ≠ '\'') (rest : List Char) :
    readSingle (c :: rest) = (c :: (readSingle rest).1, (readSingle rest).2) := by
  rw [readSingle]
  · intro r hr
    exact absurd hr hc
  · exact hc

/-- What is written reads back, and reading stops behind it, if no further quote follows. -/
theorem readSingle_writeSingle (text rest : List Char) (h : rest.head? ≠ some '\'') :
    readSingle (doubleSingles text ++ '\'' :: rest) = (text, rest) := by
  induction text with
  | nil =>
    rcases rest with _ | ⟨c, rest⟩
    · rfl
    · have hc : c ≠ '\'' := fun hc => h (by simp [hc])
      simp [doubleSingles, readSingle, hc]
  | cons c text ih =>
    rw [doubleSingles_cons]
    split
    · next hc => simp [readSingle, ih, hc]
    · next hc => simp [readSingle_cons_of_ne hc, ih]

/-! ### Double quotes -/

/-- The character that a backslash followed by `c` stands for between double quotes. -/
def escaped : Char → Char
  | 'n' => '\n'
  | 't' => '\t'
  | 'e' => '\x1b'
  | c => c

/-- The text with a backslash before each backslash and each double quote. -/
def escapeDoubles (text : List Char) : List Char :=
  text.flatMap fun c => if c = '\\' ∨ c = '"' then ['\\', c] else [c]

theorem escapeDoubles_cons (c : Char) (text : List Char) :
    escapeDoubles (c :: text) =
      (if c = '\\' ∨ c = '"' then ['\\', c] else [c]) ++ escapeDoubles text := rfl

/-- The text between double quotes. -/
def writeDouble (text : List Char) : List Char :=
  '"' :: escapeDoubles text ++ ['"']

/-- The content of a literal whose opening double quote was just read, and what follows it. A
backslash at the very end of the text stands for nothing. -/
def readDouble : List Char → List Char × List Char
  | [] => ([], [])
  | '"' :: rest => ([], rest)
  | ['\\'] => ([], [])
  | '\\' :: c :: rest => (escaped c :: (readDouble rest).1, (readDouble rest).2)
  | c :: rest => (c :: (readDouble rest).1, (readDouble rest).2)

theorem readDouble_cons_of_ne {c : Char} (hb : c ≠ '\\') (hq : c ≠ '"') (rest : List Char) :
    readDouble (c :: rest) = (c :: (readDouble rest).1, (readDouble rest).2) := by
  rw [readDouble]
  · exact hq
  · intro h
    exact absurd h hb
  · intro d r h
    exact absurd h hb

/-- What is written reads back, and reading stops behind it. -/
theorem readDouble_writeDouble (text rest : List Char) :
    readDouble (escapeDoubles text ++ '"' :: rest) = (text, rest) := by
  induction text with
  | nil => simp [escapeDoubles, readDouble]
  | cons c text ih =>
    rw [escapeDoubles_cons]
    split
    · next hc =>
      have he : escaped c = c := by rcases hc with rfl | rfl <;> rfl
      simp [readDouble, ih, he]
    · next hc =>
      obtain ⟨hb, hq⟩ := not_or.1 hc
      simp [readDouble_cons_of_ne hb hq, ih]

end ExScript.Text
