import OpenFronthaul.Toml.Scalar

/-!
# Documents

A document is a sequence of lines: entries, headers of tables, headers of items of arrays of
tables, and blank lines.  The lines are scanned first; then each extends the table that the lines
before it have built.  An entry belongs to the table of the last header.
-/

namespace OpenFronthaul.Toml

open Scanner

/-! ## Values -/

/-- An array; the last comma may be left without a value. -/
def array (item : Scanner Value) : Scanner Value := do
  exactly '['
  space
  let items ← (do
      let items ← separated (exactly ',') (do
        space
        let value ← item
        space
        return value)
      exactly ',' <|> pure ()
      return items)
    <|> pure []
  space
  exactly ']'
  return .array false items

/-- A key and its value. -/
def pair (item : Scanner Value) : Scanner (List String × String × Value) := do
  let (path, last) ← key
  exactly '='
  blanks
  let value ← item
  return (path, last, value)

/-- The entries of a table from pairs in order. -/
def entriesOf (pairs : List (List String × String × Value)) : Option Entries :=
  pairs.foldlM
    (fun entries (path, last, value) =>
      match Value.insert path last value .inline entries with
      | some (.table _ entries) => some entries
      | _ => none)
    []

/-- A table written as one value, on one line. -/
def inlineTable (item : Scanner Value) : Scanner Value := do
  exactly '{'
  let pairs ← separated (exactly ',') (do
      let pair ← pair item
      blanks
      return pair)
    <|> (do blanks; return [])
  exactly '}'
  match entriesOf pairs with
  | some entries => return .table .inline entries
  | none => failure

/-- A value with at most the given number of arrays and tables inside one another. -/
def value : Nat → Scanner Value
  | 0 => scalar
  | depth + 1 => scalar <|> array (value depth) <|> inlineTable (value depth)

/-! ## Lines -/

/-- A line of a document. -/
inductive Line where
  | blank
  | entry (path : List String) (name : String) (value : Value)
  | header (path : List String) (name : String)
  | item (path : List String) (name : String)

namespace Line

/-- A line without contents; it takes at least its line end or its comment. -/
def scanBlank : Scanner Line :=
  (do newline; return blank) <|> do
    comment
    newline <|> atEnd
    return blank

/-- The header of an item of an array of tables. -/
def scanItem : Scanner Line := do
  word "[["
  let (path, name) ← key
  word "]]"
  lineEnd
  return item path name

/-- The header of a table. -/
def scanHeader : Scanner Line := do
  exactly '['
  let (path, name) ← key
  exactly ']'
  lineEnd
  return header path name

/-- An entry. -/
def scanEntry : Scanner Line := do
  let (path, name, value) ← pair (value maxNesting)
  lineEnd
  return entry path name value

/-- The next line, with the blanks in front of the one after it. -/
def scan : Scanner Line := do
  let line ← scanBlank <|> scanItem <|> scanHeader <|> scanEntry
  blanks
  return line

end Line

/-- A document as far as it has been read. -/
structure Document where
  /-- The outermost table. -/
  entries : Entries := []
  /-- The names that lead to the table of the last header. -/
  current : List String := []

namespace Document

/-- The document with its outermost table extended. -/
def extend (d : Document) (change : Origin → Entries → Option Value) (current : List String) :
    Option Document :=
  match change .header d.entries with
  | some (.table _ entries) => some ⟨entries, current⟩
  | _ => none

/-- The document with one more line. -/
def addLine (d : Document) : Line → Option Document
  | .blank => some d
  | .entry path name value =>
    d.extend (Value.updateAt .implied (Value.insert path name value) d.current) d.current
  | .header path name => d.extend (Value.openTable path name) (path ++ [name])
  | .item path name => d.extend (Value.openItem path name) (path ++ [name])

/-- The lines of a text; a byte order mark in front is skipped. -/
def lines (text : String) : Option (List Line) := do
  let scan : Scanner (List Line) := do
    exactly '\ufeff' <|> pure ()
    blanks
    let lines ← many Line.scan
    atEnd
    return lines
  let (lines, _) ← scan text.toList
  return lines

end Document

/-- The outermost table of a text. -/
def parse (text : String) : Option Entries := do
  let document ← (← Document.lines text).foldlM Document.addLine {}
  return document.entries

end OpenFronthaul.Toml
