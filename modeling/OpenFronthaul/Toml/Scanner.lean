/-!
# Scanning characters

A scanner takes characters off the front of a text, or fails.  Of two scanners joined by `<|>` the
second starts where the first did.  `many` repeats a scanner that takes at least one character each
time, so the number of characters bounds the repetitions.
-/

namespace OpenFronthaul.Toml

/-- A scanner takes characters off the front of a text and gives a result, or fails. -/
abbrev Scanner := StateT (List Char) Option

namespace Scanner

variable {α : Type}

/-- The next character, which passes a test. -/
def satisfy (test : Char → Bool) : Scanner Char
  | c :: rest => if test c then some (c, rest) else none
  | [] => none

/-- The given character. -/
def exactly (c : Char) : Scanner Unit := do
  let _ ← satisfy (· = c)

/-- The given characters in order. -/
def word (text : String) : Scanner Unit :=
  text.toList.forM exactly

/-- The characters up to the first that fails a test. -/
def takeWhile (test : Char → Bool) : Scanner (List Char)
  | text => some (text.takeWhile test, text.dropWhile test)

/-- The end of the text. -/
def atEnd : Scanner Unit
  | [] => some ((), [])
  | _ :: _ => none

/-- Repeat a scanner up to its first failure, at most the given number of times. -/
def atMost (scan : Scanner α) : Nat → Scanner (List α)
  | 0, text => some ([], text)
  | n + 1, text =>
    match scan text with
    | none => some ([], text)
    | some (first, rest) => do
      let (others, rest) ← atMost scan n rest
      return (first :: others, rest)

/-- Repeat a scanner, which takes at least one character each time, up to its first failure. -/
def many (scan : Scanner α) : Scanner (List α)
  | text => atMost scan text.length text

/-- One result or more, with a separator between each two. -/
def separated (separator : Scanner Unit) (scan : Scanner α) : Scanner (List α) := do
  let first ← scan
  let others ← many (do separator; scan)
  return first :: others

/-! ## Blanks and comments -/

/-- The blanks within a line. -/
def isBlank (c : Char) : Bool :=
  c = ' ' || c = '\t'

/-- The characters that may stand in a comment or a string: all but the controls. -/
def isText (c : Char) : Bool :=
  c = '\t' || (' ' ≤ c && c ≠ '\x7f')

/-- Blanks within a line, if any. -/
def blanks : Scanner Unit := do
  let _ ← takeWhile isBlank

/-- The end of a line, with or without a carriage return. -/
def newline : Scanner Unit :=
  exactly '\n' <|> word "\r\n"

/-- A comment, up to the end of its line. -/
def comment : Scanner Unit := do
  exactly '#'
  let _ ← takeWhile isText

/-- What may follow on a line: blanks, a comment, and the end of the line or of the text. -/
def lineEnd : Scanner Unit := do
  blanks
  comment <|> pure ()
  newline <|> atEnd

/-- Blanks, comments and ends of lines, if any. -/
def space : Scanner Unit := do
  let _ ← many ((do let _ ← satisfy isBlank) <|> newline <|> (do comment; newline))

end Scanner

end OpenFronthaul.Toml
