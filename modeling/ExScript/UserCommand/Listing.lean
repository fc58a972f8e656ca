import ExScript.UserCommand.Basic

/-!
# Listings of user commands

A listing has a header and a row for each user command whose name starts with a given text. The rows
are in the order of their small letters. They are made from the entries of a registry in whatever
order these come, and as long as no two rows differ in case alone that order does not show.
-/

namespace ExScript.Registry

/-- The first line of a listing. -/
def listingHeader : String := "Name        Args       Definition"

/-- A text filled up with blanks to a width; a longer one is left as it is. -/
def padded (width : Nat) (s : String) : String :=
  s ++ String.ofList (List.replicate (width - s.length) ' ')

/-- The row of a user command. -/
def listingRow (name : String) (c : UserCommand) : String :=
  padded 12 name ++ padded 11 c.arity.notated ++ c.definition

/-- What rows are sorted by. -/
def sortKey (row : String) : String :=
  String.ofList (Text.lowercase row.toList)

/-- The sorted rows of the entries whose names start with a text. -/
def listingRows (entries : List (String × UserCommand)) (start : String) : List String :=
  let rows := (entries.filter fun e => start.toList.isPrefixOf e.1.toList).map fun e =>
    listingRow e.1 e.2
  ((rows.map fun row => (sortKey row, row)).mergeSort fun a b => a.1 ≤ b.1).map (·.2)

/-- The listing of the user commands whose names start with a text. -/
def listing (registry : Registry) (start : String) : List String :=
  listingHeader :: listingRows registry.table.entries start

end ExScript.Registry
