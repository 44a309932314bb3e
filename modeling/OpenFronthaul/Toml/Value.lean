import OpenFronthaul.Toml.DateTime
import OpenFronthaul.Toml.Decimal

/-!
# Values of a configuration text

A value is a scalar, an array or a table, and a table knows where in the text it comes from.  This
decides how later lines may extend it: a table written as one value is closed, a table with a header
of its own takes no second header and no dotted keys from elsewhere, a table that only lies on the
way to another one may still get its header.  `Value.insert`, `Value.openTable` and `Value.openItem`
are the three ways in which a line extends a table.
-/

namespace OpenFronthaul.Toml

/-- Where a table comes from. -/
inductive Origin where
  /-- It is written as one value. -/
  | inline
  /-- It has a header of its own. -/
  | header
  /-- It lies on the way to a table with a header. -/
  | implied
  /-- It lies on the way of a dotted key. -/
  | dotted
deriving DecidableEq

/-- A value of a configuration text. -/
inductive Value where
  | string (text : String)
  | integer (value : Int)
  | decimal (number : Decimal)
  | infinite (negative : Bool)
  | notANumber
  | dateTime (moment : DateTime)
  | boolean (value : Bool)
  /-- Values in order; an array of tables with headers may be continued. -/
  | array (continued : Bool) (items : List Value)
  /-- Values by name. -/
  | table (origin : Origin) (entries : List (String × Value))

/-- Values by name, each name once. -/
abbrev Entries := List (String × Value)

namespace Entries

/-- The value of a name. -/
def find? (entries : Entries) (name : String) : Option Value :=
  List.lookup name entries

/-- The entries with another value for a name, which is added if it is new. -/
def put (entries : Entries) (name : String) (value : Value) : Entries :=
  if (entries.find? name).isSome then
    entries.map fun entry => if entry.1 = name then (name, value) else entry
  else entries ++ [(name, value)]

end Entries

/-- The most levels of tables in a path, and of arrays and tables in a value. -/
def maxNesting : Nat := 79

namespace Value

/-- Change the table at the end of a path.  Tables that are missing on the way are made with the
origin `way`; an array of tables stands for its last item; a dotted key does not lead through a
table that has a header. -/
def updateAt (way : Origin) (change : Origin → Entries → Option Value) :
    List String → Origin → Entries → Option Value
  | [], origin, entries => change origin entries
  | name :: path, origin, entries => do
    let value ←
      match entries.find? name with
      | none => updateAt way change path way []
      | some (.table .inline _) => none
      | some (.table .header inner) =>
        if way = .dotted then none else updateAt way change path .header inner
      | some (.table o inner) => updateAt way change path o inner
      | some (.array true items) =>
        match items.getLast? with
        | some (.table o inner) => do
          let item ← updateAt way change path o inner
          pure (.array true (items.dropLast ++ [item]))
        | _ => none
      | some _ => none
    return .table origin (entries.put name value)

/-- Give a name in a table its value.  Only a table made by dotted keys takes an entry by a dotted
key, and a name has one value. -/
def insert (path : List String) (name : String) (value : Value) :
    Origin → Entries → Option Value :=
  updateAt .dotted
    (fun origin entries =>
      if (origin = .dotted ↔ path = []) ∨ (entries.find? name).isSome then none
      else some (.table origin (entries.put name value)))
    path

/-- Open a table by its header: a new table, or one that so far only lies on the way to others. -/
def openTable (path : List String) (name : String) : Origin → Entries → Option Value :=
  updateAt .implied
    (fun origin entries =>
      match entries.find? name with
      | none => some (.table origin (entries.put name (.table .header [])))
      | some (.table .implied inner) =>
        some (.table origin (entries.put name (.table .header inner)))
      | some _ => none)
    path

/-- Open the next item of an array of tables by its header. -/
def openItem (path : List String) (name : String) : Origin → Entries → Option Value :=
  updateAt .implied
    (fun origin entries =>
      match entries.find? name with
      | none => some (.table origin (entries.put name (.array true [.table .header []])))
      | some (.array true items) =>
        some (.table origin (entries.put name (.array true (items ++ [.table .header []]))))
      | some _ => none)
    path

end Value

end OpenFronthaul.Toml
