import ExScript.Table
import ExScript.Value

/-!
# Variables

Script variables live in one global scope, which a name may mention: `g:count` and `count` are
the same variable. Only one such mark is taken off, so `g:g:count` is the variable `g:count`.
-/

namespace ExScript

/-- The variables of a session, by their bare names. -/
structure Variables where
  table : Table Value
  deriving Inhabited

namespace Variables

/-- A name without the mark of the global scope. -/
def bareName (name : String) : String :=
  match name.toList with
  | 'g' :: ':' :: rest => String.ofList rest
  | _ => name

/-- No variables. -/
def empty : Variables := ⟨∅⟩

/-- The value of a variable. -/
def get? (vars : Variables) (name : String) : Option Value :=
  vars.table.get? (bareName name)

/-- Whether a variable has a value. -/
def contains (vars : Variables) (name : String) : Bool :=
  (vars.get? name).isSome

/-- Gives a variable a value. -/
def set (vars : Variables) (name : String) (v : Value) : Variables :=
  ⟨vars.table.insert (bareName name) v⟩

/-- Takes a variable away. -/
def erase (vars : Variables) (name : String) : Variables :=
  ⟨vars.table.erase (bareName name)⟩

theorem get?_set (vars : Variables) (name : String) (v : Value) (other : String) :
    (vars.set name v).get? other =
      if bareName other = bareName name then some v else vars.get? other :=
  Table.get?_insert ..

theorem get?_erase (vars : Variables) (name other : String) :
    (vars.erase name).get? other =
      if bareName other = bareName name then none else vars.get? other :=
  Table.get?_erase ..

/-- Whether a text is a legal name of a variable: a letter or underscore followed by letters,
digits and underscores, all of ASCII, with or without the mark of the global scope. -/
def isLegalName (name : List Char) : Bool :=
  let bare := match name with
    | 'g' :: ':' :: rest => rest
    | rest => rest
  match bare with
  | [] => false
  | c :: rest => (c.isAlpha || c == '_') && rest.all fun c => c.isAlphanum || c == '_'

end Variables

end ExScript
