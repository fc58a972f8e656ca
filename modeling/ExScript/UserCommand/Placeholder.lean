import ExScript.Text.Blank
import ExScript.Text.Letter
import ExScript.Text.Quoted

/-!
# Placeholders

The replacement text of a user command may hold placeholders for the arguments: as they are, quoted
as a whole, or split into quoted fields; and one for the sign that placeholders begin with. The text
is gone through once, so nothing that a placeholder brings in is looked at again.

The name of a placeholder is recognised in whatever case it is written. A long s is an s when case
is ignored, but it is no letter of ASCII, and a placeholder whose name is not made of these letters
counts as the one for the sign.
-/

namespace ExScript

/-- What a placeholder stands for. -/
inductive Placeholder where
  /-- The arguments as they are. -/
  | arguments
  /-- The arguments between double quotes. -/
  | quoted
  /-- The fields of the arguments, each between double quotes, with commas between them. -/
  | fields
  /-- The sign `<`. -/
  | sign
  deriving DecidableEq, Repr

namespace Placeholder

/-- The names of the placeholders. -/
def names : List (List Char × Placeholder) :=
  [("args".toList, arguments), ("q-args".toList, quoted), ("f-args".toList, fields),
   ("lt".toList, sign)]

/-- The fields of the arguments. Blanks separate them; a backslash makes the blank or the backslash
behind it part of the field. What the current field holds so far comes first. -/
def splitFields : List Char → List Char → List (List Char)
  | field, [] => if field.isEmpty then [] else [field]
  | field, '\\' :: c :: rest =>
    if isBlank c || c == '\\' then splitFields (field ++ [c]) rest
    else splitFields (field ++ ['\\']) (c :: rest)
  | field, c :: rest =>
    if isBlank c then
      if field.isEmpty then splitFields [] rest else field :: splitFields [] rest
    else splitFields (field ++ [c]) rest

/-- The text that a placeholder brings in. -/
def expand (arguments : List Char) : Placeholder → List Char
  | .arguments => arguments
  | quoted => Text.writeDouble arguments
  | fields => [','].intercalate ((splitFields [] arguments).map Text.writeDouble)
  | sign => ['<']

/-- The placeholder whose name and closing sign stand at the front of a text, and what follows
it. -/
def read? (text : List Char) : Option (Placeholder × List Char) :=
  names.findSome? fun (name, placeholder) =>
    let written := text.take name.length
    match text.drop name.length with
    | '>' :: rest =>
      if written.map foldCase = name then
        some (if written.map Char.toLower = name then placeholder else sign, rest)
      else none
    | _ => none

/-- The first `n` characters of a text, and what a placeholder begun in them covers, with the
placeholders expanded. -/
def substituteUpTo (arguments : List Char) : Nat → List Char → List Char
  | 0, _ => []
  | _ + 1, [] => []
  | n + 1, c :: rest =>
    if c = '<' then
      match read? rest with
      | some (placeholder, behind) =>
        placeholder.expand arguments ++ substituteUpTo arguments n behind
      | none => c :: substituteUpTo arguments n rest
    else c :: substituteUpTo arguments n rest

/-- The text with its placeholders expanded. -/
def substitute (text arguments : String) : String :=
  String.ofList (substituteUpTo arguments.toList text.toList.length text.toList)

end Placeholder

end ExScript
