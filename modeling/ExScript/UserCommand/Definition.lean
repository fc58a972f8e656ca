import ExScript.Numeral
import ExScript.UserCommand.Basic

/-!
# Definitions of user commands

The argument of `:command`: an optional `!`, which allows to replace a definition, an optional
`-nargs=` with the number of arguments, a name and the replacement text. Without a replacement text
the user commands whose names start with the name are listed, and without a name all of them.

A name starts with a capital letter, and three names are reserved in any case.
-/

namespace ExScript

/-- What `:command` asks for. -/
inductive Definition where
  /-- List the user commands whose names start with a text. -/
  | list (start : String)
  /-- Define a user command, even if there is one of that name if `replace` is set. -/
  | define (replace : Bool) (name : String) (arity : Arity) (text : String)
  deriving DecidableEq, Repr

namespace Definition

/-- The names that no user command may have, in small letters. -/
def reservedNames : List (List Char) :=
  ["x".toList, "next".toList, "print".toList]

/-- Whether a name is reserved, whatever the case of its letters. -/
def isReserved (name : List Char) : Bool :=
  reservedNames.contains (name.map Char.toLower)

/-- The number that a decimal numeral with an optional minus denotes. -/
def readInteger? : List Char → Option Int
  | '-' :: digits =>
    if digits.isEmpty || !digits.all Char.isDigit then none else some (-Numeral.value digits)
  | digits =>
    if digits.isEmpty || !digits.all Char.isDigit then none else some (Numeral.value digits)

/-- The arity that a declaration stands for. A number has to be zero or one. -/
def readArity (token : List Char) : Except Error Arity :=
  match "-nargs=".toList.isPrefixOf? token with
  | none => .error .invalidArgumentCount
  | some ['*'] => .ok ⟨0, none⟩
  | some ['?'] => .ok ⟨0, some 1⟩
  | some ['+'] => .ok ⟨1, none⟩
  | some number =>
    match readInteger? number with
    | some 0 => .ok ⟨0, some 0⟩
    | some 1 => .ok ⟨1, some 1⟩
    | _ => .error .invalidArgumentCount

/-- The first word of a text and what follows it, trimmed. -/
def splitWord (text : List Char) : List Char × List Char :=
  let (word, rest) := Text.word (Text.trimStart text)
  (word, Text.trim rest)

/-- The declared arity at the front of a definition, and what follows it. Without a declaration no
argument is taken. -/
def splitArity (text : List Char) : Except Error (Arity × List Char) :=
  if "-nargs".toList.isPrefixOf text then
    let (token, rest) := splitWord text
    (readArity token).map fun arity => (arity, rest)
  else .ok (⟨0, some 0⟩, text)

/-- Checks the name of a user command that is to be defined. -/
def checkName : List Char → Except Error Unit
  | [] => .error .userCommandUnnamed
  | c :: rest =>
    if !isUppercase c then .error .userCommandNotUppercase
    else if isReserved (c :: rest) then .error .userCommandReserved
    else .ok ()

/-- The mark that a definition may replace another one, and what follows it. -/
def splitReplace : List Char → Bool × List Char
  | '!' :: rest => (true, Text.trimStart rest)
  | rest => (false, rest)

/-- What the argument of `:command` asks for. -/
def parse (argument : String) : Except Error Definition :=
  match Text.trim argument.toList with
  | [] => .ok (.list "")
  | text =>
    let (replace, text) := splitReplace text
    match splitArity text with
    | .error e => .error e
    | .ok (arity, text) =>
      let (name, replacement) := splitWord text
      match checkName name with
      | .error e => .error e
      | .ok () =>
        if replacement.isEmpty then .ok (.list (String.ofList name))
        else .ok (.define replace (String.ofList name) arity (String.ofList replacement))

end Definition

end ExScript
