import OpenFronthaul.Toml.Value

/-!
# Reading records

A record is written as a table of its fields, or as an array of them in order.  Fields that are
unknown or beyond the last one are ignored; a field without a default must be there.  A date or time
counts as a table of unknown fields.
-/

namespace OpenFronthaul.Toml

-- Powers are those of the core library, whatever else is imported.
attribute [local instance (high)] instPowNat

/-- The fields of a record that are still to be read. -/
inductive Fields where
  | named (entries : Entries)
  | inOrder (values : List Value)

/-- A reader of the fields of a record, one after the other. -/
abbrev RecordReader := StateT Fields Option

namespace RecordReader

variable {α : Type}

/-- The value of the next field, if it is there. -/
def next? (name : String) : RecordReader (Option Value)
  | .named entries => some (entries.find? name, .named entries)
  | .inOrder [] => some (none, .inOrder [])
  | .inOrder (value :: values) => some (some value, .inOrder values)

/-- A field that must be there. -/
def required (name : String) (read : Value → Option α) : RecordReader α := do
  match ← next? name with
  | some value => read value
  | none => failure

/-- A field with a default. -/
def optional (name : String) (read : Value → Option α) (default : α) : RecordReader α := do
  match ← next? name with
  | some value => read value
  | none => return default

/-- Read the fields of a table. -/
def ofEntries (reader : RecordReader α) (entries : Entries) : Option α :=
  (reader.run (.named entries)).map Prod.fst

end RecordReader

namespace Value

variable {α : Type}

/-- A record.  A date or time is taken for a table that has none of the fields. -/
def record? (reader : RecordReader α) : Value → Option α
  | .table _ entries => reader.ofEntries entries
  | .array _ values => (reader.run (.inOrder values)).map Prod.fst
  | .dateTime _ => reader.ofEntries []
  | _ => none

/-- A string. -/
def string? : Value → Option String
  | .string text => some text
  | _ => none

/-- A truth value. -/
def boolean? : Value → Option Bool
  | .boolean value => some value
  | _ => none

/-- A number that fits the given count of bits. -/
def nat? (bits : Nat) : Value → Option Nat
  | .integer value => if 0 ≤ value ∧ value < 2 ^ bits then some value.toNat else none
  | _ => none

/-- A number of eight bits. -/
def uint8? (v : Value) : Option UInt8 :=
  (v.nat? 8).map UInt8.ofNat

/-- A number of sixteen bits. -/
def uint16? (v : Value) : Option UInt16 :=
  (v.nat? 16).map UInt16.ofNat

/-- A number of thirty-two bits. -/
def uint32? (v : Value) : Option UInt32 :=
  (v.nat? 32).map UInt32.ofNat

/-- An array. -/
def list? (read : Value → Option α) : Value → Option (List α)
  | .array _ values => values.mapM read
  | _ => none

/-- Whether a value is an array or a table without contents. -/
def isEmpty : Value → Bool
  | .array _ values => values.isEmpty
  | .table _ entries => entries.isEmpty
  | _ => false

/-- One of several words, written as a string or as the only entry of a table, without contents. -/
def word? (ofWord : String → Option α) : Value → Option α
  | .string text => ofWord text
  | .table _ [(text, contents)] => if contents.isEmpty then ofWord text else none
  | _ => none

end Value

end OpenFronthaul.Toml
