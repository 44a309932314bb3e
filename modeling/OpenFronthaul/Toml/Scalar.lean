import OpenFronthaul.Toml.Digits
import OpenFronthaul.Toml.Value

/-!
# Strings, numbers and keys

Strings are basic (in double quotes, with escapes) or literal (in single quotes), on one line or on
several.  An integer fits sixty-four bits with sign.
-/

namespace OpenFronthaul.Toml

-- Powers are those of the core library, whatever else is imported.
attribute [local instance (high)] instPowNat

open Scanner

/-! ## Strings -/

/-- A character named by its number in the given count of hexadecimal digits. -/
def codePoint (count : Nat) : Scanner Char := do
  let n ← fixedDigits 16 count
  if n.isValidChar then return Char.ofNat n else failure

/-- The rest of an escape, after its backslash. -/
def escaped : Scanner Char := do
  match ← satisfy fun _ => true with
  | 'b' => return '\x08'
  | 't' => return '\t'
  | 'n' => return '\n'
  | 'f' => return '\x0c'
  | 'r' => return '\r'
  | '"' => return '"'
  | '\\' => return '\\'
  | 'u' => codePoint 4
  | 'U' => codePoint 8
  | _ => failure

/-- A character of a basic string. -/
def basicChar : Scanner Char :=
  satisfy (fun c => isText c && c ≠ '"' && c ≠ '\\') <|> do
    exactly '\\'
    escaped

/-- A basic string on one line. -/
def basicString : Scanner String := do
  exactly '"'
  let text ← many basicChar
  exactly '"'
  return String.ofList text

/-- A literal string on one line. -/
def literalString : Scanner String := do
  exactly '\''
  let text ← takeWhile fun c => isText c && c ≠ '\''
  exactly '\''
  return String.ofList text

/-- One or two quotes inside a string on several lines. -/
def innerQuotes (quote : Char) : Scanner (List Char) := do
  let run ← takeWhile (· = quote)
  if run.length = 1 ∨ run.length = 2 then return run else failure

/-- The end of a string on several lines: three quotes, with up to two more that belong to the
text. -/
def outerQuotes (quote : Char) : Scanner (List Char) := do
  let run ← takeWhile (· = quote)
  if 3 ≤ run.length ∧ run.length ≤ 5 then return run.drop 3 else failure

/-- The end of a line inside a string on several lines. -/
def innerNewline : Scanner (List Char) := do
  newline
  return ['\n']

/-- A backslash at the end of a line, which takes away all blanks and ends of lines that follow. -/
def lineContinuation : Scanner (List Char) := do
  exactly '\\'
  blanks
  newline
  let _ ← many ((do let _ ← satisfy isBlank) <|> newline)
  return []

/-- A string on several lines in the given quotes, of pieces of text between ends of lines. -/
def longString (quote : Char) (piece : Scanner (List Char)) : Scanner String := do
  word (String.ofList [quote, quote, quote])
  newline <|> pure ()
  let pieces ← many (piece <|> innerNewline <|> innerQuotes quote)
  let last ← outerQuotes quote
  return String.ofList (pieces.flatten ++ last)

/-- A string of any form. -/
def string : Scanner String :=
  longString '"' ((do return [← basicChar]) <|> lineContinuation)
    <|> longString '\'' (do return [← satisfy fun c => isText c && c ≠ '\''])
    <|> basicString
    <|> literalString

/-! ## Numbers -/

/-- An integer that fits sixty-four bits with sign. -/
def wordInteger (value : Int) : Scanner Value :=
  if -(2 ^ (63 : Nat)) ≤ value ∧ value < 2 ^ (63 : Nat) then return .integer value else failure

/-- An integer in a base other than ten. -/
def basedInteger (mark : String) (base : Nat) : Scanner Value := do
  word mark
  wordInteger (ofDigits base (← digits base))

/-- An integer. -/
def integer : Scanner Value :=
  basedInteger "0x" 16 <|> basedInteger "0o" 8 <|> basedInteger "0b" 2 <|> do
    let negative ← sign
    wordInteger (signedBy negative (ofDigits 10 (← wholeDigits)))

/-- An infinite number, or what is not a number. -/
def special : Scanner Value := do
  let negative ← sign
  (do word "inf"; return .infinite negative) <|> (do word "nan"; return .notANumber)

/-- A truth value. -/
def boolean : Scanner Value :=
  (do word "true"; return .boolean true) <|> (do word "false"; return .boolean false)

/-- A value that is neither an array nor a table.  A date and a decimal number both start as an
integer does, so they come first. -/
def scalar : Scanner Value :=
  (do return .string (← string))
    <|> (do return .dateTime (← DateTime.scan))
    <|> (do return .decimal (← Decimal.scan))
    <|> special
    <|> integer
    <|> boolean

/-! ## Keys -/

/-- The characters of a name without quotes. -/
def isNameChar (c : Char) : Bool :=
  c.isAlphanum || c = '_' || c = '-'

/-- A name, with or without quotes. -/
def name : Scanner String :=
  basicString <|> literalString <|> do
    let text ← takeWhile isNameChar
    if text.isEmpty then failure
    return String.ofList text

/-- A key: names with dots between them, apart into the names on the way and the last one. -/
def key : Scanner (List String × String) := do
  let names ← separated (exactly '.') (do
    blanks
    let text ← name
    blanks
    return text)
  match names.getLast? with
  | some last => if names.length ≤ maxNesting then return (names.dropLast, last) else failure
  | none => failure

end OpenFronthaul.Toml
