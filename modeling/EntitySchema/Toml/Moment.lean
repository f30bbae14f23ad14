import EntitySchema.Text.Digit
import EntitySchema.Text.Reader
import EntitySchema.Toml.Basic

/-!
# Dates and times in TOML

A date, a time of day, or a date with a time of day and perhaps an offset. Every part has a fixed
width, and the day has to be one of its month.
-/

namespace EntitySchema.Toml.Moment

open Text (Reader)

/-- A number of exactly so many digits. -/
def fixedNumber (width : Nat) : Reader Nat := do
  return Text.ofDigits 10 (← Reader.times Char.isDigit width)

/-- A number of two digits within bounds. -/
def pairWithin (least most : Nat) : Reader Nat := do
  let n ← fixedNumber 2
  Reader.ensure (least ≤ n && n ≤ most)
  return n

/-- Whether the year has a 29th of February. -/
def isLeapYear (year : Nat) : Bool := year % 4 == 0 && (year % 100 != 0 || year % 400 == 0)

/-- How many days the month has. -/
def daysIn (year month : Nat) : Nat :=
  if month == 2 then if isLeapYear year then 29 else 28
  else if [4, 6, 9, 11].contains month then 30
  else 31

/-- A date. -/
def date : Reader Unit := do
  let year ← fixedNumber 4
  Reader.literal ['-']
  let month ← pairWithin 1 12
  Reader.literal ['-']
  let _ ← pairWithin 1 (daysIn year month)

/-- A time of day; a minute may have a leap second. -/
def time : Reader Unit := do
  let _ ← pairWithin 0 23
  Reader.literal [':']
  let _ ← pairWithin 0 59
  Reader.literal [':']
  let _ ← pairWithin 0 60
  let _ ← Reader.optional do
    Reader.literal ['.']
    Reader.span1 Char.isDigit

/-- How far a time is off from universal time. -/
def offset : Reader Unit := do
  let mark ← Reader.char fun c => ['Z', 'z', '+', '-'].contains c
  if mark == '+' || mark == '-' then
    let _ ← pairWithin 0 23
    Reader.literal [':']
    let _ ← pairWithin 0 59

/-- A date with a time of day, if one follows it. -/
def dateAndTime : Reader Unit := do
  date
  let _ ← Reader.optional do
    let _ ← Reader.char fun c => ['T', 't', ' '].contains c
    time
    Reader.optional offset

/-- A date, a time, or both. -/
def value : Reader Toml := do
  let (_, literal) ← Reader.withText (dateAndTime <|> time)
  return .moment (String.ofList literal)

end EntitySchema.Toml.Moment
