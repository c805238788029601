import KnownAnswer.Toml.Number

/-!
# Dates and times

Dates of the Gregorian calendar, times of day, and both together with or without an offset.
-/

namespace KnownAnswer.Toml

open Reader

def isLeapYear (year : Nat) : Bool :=
  year % 4 == 0 && (year % 100 != 0 || year % 400 == 0)

def daysInMonth (year month : Nat) : Nat :=
  if month = 2 then (if isLeapYear year then 29 else 28)
  else if month = 4 ∨ month = 6 ∨ month = 9 ∨ month = 11 then 30
  else 31

/-- A number of exactly so many digits, from `least` to `most`. -/
def fixedNumber (width least most : Nat) : Reader Nat := do
  let n := valueOf 10 (← exactly width Char.isDigit)
  if least ≤ n ∧ n ≤ most then return n else failure

def fullDate : Reader Unit := do
  let year ← fixedNumber 4 0 9999
  char '-'
  let month ← fixedNumber 2 1 12
  char '-'
  let _ ← fixedNumber 2 1 (daysInMonth year month)

/-- Hours, minutes and seconds, the last with a fraction or without; second 60 is a leap second. -/
def timeOfDay : Reader Unit := do
  let _ ← fixedNumber 2 0 23
  char ':'
  let _ ← fixedNumber 2 0 59
  char ':'
  let _ ← fixedNumber 2 0 60
  if ← optional '.' then
    let _ ← satisfy Char.isDigit
    let _ ← takeWhile Char.isDigit

/-- The distance from universal time, if one is given. -/
def offset : Reader Unit := do
  match ← peek with
  | some 'Z' => char 'Z'
  | some 'z' => char 'z'
  | some '+' | some '-' =>
    let _ ← satisfy fun _ => true
    let _ ← fixedNumber 2 0 23
    char ':'
    let _ ← fixedNumber 2 0 59
  | _ => return

/-- A time after a date.  A blank parts the two only if a digit follows it. -/
def timeAfterDate : Reader Unit := do
  match ← get with
  | ' ' :: c :: _ =>
    if c.isDigit then
      char ' '
      timeOfDay
      offset
  | c :: _ =>
    if c == 'T' || c == 't' then
      char c
      timeOfDay
      offset
  | [] => return

/-- Whether a text begins like a date or a time: with four digits and a dash, or with two digits
and a colon. -/
def looksLikeDateTime (text : List Char) : Bool :=
  match text with
  | a :: b :: ':' :: _ => a.isDigit && b.isDigit
  | a :: b :: c :: d :: '-' :: _ => a.isDigit && b.isDigit && c.isDigit && d.isDigit
  | _ => false

def dateTime : Reader Value := do
  let start ← get
  match start with
  | _ :: _ :: ':' :: _ => timeOfDay
  | _ =>
    fullDate
    timeAfterDate
  let rest ← get
  return .dateTime (String.ofList (start.take (start.length - rest.length)))

end KnownAnswer.Toml
