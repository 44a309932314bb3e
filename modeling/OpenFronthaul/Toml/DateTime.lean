import OpenFronthaul.Toml.Digits

/-!
# Dates and times

A moment is written as a date, as a time of the day, or as both, and then with an offset from
universal time, if any.  All numbers have a fixed count of digits, but for the fraction of a second,
of which the digits up to the nanoseconds count.
-/

namespace OpenFronthaul.Toml

open Scanner

/-- A day of the calendar. -/
structure Date where
  year : Nat
  month : Nat
  day : Nat

/-- A time of the day; the second numbered sixty is a leap second. -/
structure Time where
  hour : Nat
  minute : Nat
  second : Nat
  nanosecond : Nat

/-- A date, a time of the day, or both. -/
inductive DateTime where
  | date (date : Date)
  | time (time : Time)
  /-- The offset is in minutes, and it is positive where clocks are ahead. -/
  | both (date : Date) (time : Time) (offset : Option Int)

/-- A number in two decimal digits, within bounds. -/
def twoDigits (low high : Nat) : Scanner Nat := do
  let n ← fixedDigits 10 2
  if low ≤ n ∧ n ≤ high then return n else failure

namespace Date

/-- Whether a year has a leap day. -/
def isLeapYear (year : Nat) : Bool :=
  year % 4 = 0 && (year % 100 ≠ 0 || year % 400 = 0)

/-- The number of days of a month. -/
def daysInMonth (year month : Nat) : Nat :=
  if month = 2 then if isLeapYear year then 29 else 28
  else if [4, 6, 9, 11].contains month then 30
  else 31

/-- A date: year, month and day. -/
def scan : Scanner Date := do
  let year ← fixedDigits 10 4
  exactly '-'
  let month ← twoDigits 1 12
  exactly '-'
  let day ← twoDigits 1 (daysInMonth year month)
  return { year, month, day }

end Date

namespace Time

/-- The nanoseconds of a fraction of a second; digits beyond the ninth do not count. -/
def scanFraction : Scanner Nat := do
  exactly '.'
  let digits ← takeWhile Char.isDigit
  if digits.isEmpty then failure
  return ofDigits 10 ((digits ++ List.replicate 9 '0').take 9)

/-- A time: hour, minute and second, with a fraction of the second, if any. -/
def scan : Scanner Time := do
  let hour ← twoDigits 0 23
  exactly ':'
  let minute ← twoDigits 0 59
  exactly ':'
  let second ← twoDigits 0 60
  let nanosecond ← scanFraction <|> pure 0
  return { hour, minute, second, nanosecond }

end Time

namespace DateTime

/-- An offset from universal time in minutes; the letter stands for none. -/
def scanOffset : Scanner Int :=
  (do
    let _ ← satisfy fun c => c = 'Z' || c = 'z'
    return 0)
  <|> do
    let mark ← satisfy fun c => c = '+' || c = '-'
    let hour ← twoDigits 0 23
    exactly ':'
    let minute ← twoDigits 0 59
    return signedBy (mark = '-') (60 * hour + minute)

/-- A date, a time, or both with a letter or a blank between them. -/
def scan : Scanner DateTime :=
  (do
    let date ← Date.scan
    (do
      let _ ← satisfy fun c => c = 'T' || c = 't' || c = ' '
      let time ← Time.scan
      let offset ← (do return some (← scanOffset)) <|> pure none
      return both date time offset)
    <|> return DateTime.date date)
  <|> do
    return DateTime.time (← Time.scan)

end DateTime

end OpenFronthaul.Toml
