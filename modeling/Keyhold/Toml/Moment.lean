import Keyhold.Text.Numeral
import Keyhold.Toml.Reader

/-!
# TOML dates and times

A moment is a date, a time of day, or both with an optional offset from universal time. The
days of a month follow the calendar; a minute may have a leap second.
-/

namespace Keyhold.Toml.Moment

open Reader

/-- A number of exactly the given count of digits. -/
def number (width : Nat) : Reader Nat := do
  let digits ← times (fun c => (Text.digitOf? 10 c).isSome) width
  pure ((Text.natural? 10 digits).getD 0)

/-- A number of two digits within limits. -/
def within (least greatest : Nat) : Reader Nat := do
  let value ← number 2
  if least ≤ value ∧ value ≤ greatest then pure value else refuse

/-- Whether a year has a leap day. -/
def isLeap (year : Nat) : Bool := year % 4 == 0 && (year % 100 != 0 || year % 400 == 0)

/-- The number of days in a month. -/
def daysIn (year month : Nat) : Nat :=
  if month = 2 then if isLeap year then 29 else 28
  else if month = 4 ∨ month = 6 ∨ month = 9 ∨ month = 11 then 30
  else 31

/-- A date. -/
def date : Reader Unit := do
  let year ← number 4
  exactly '-'
  let month ← within 1 12
  exactly '-'
  let _ ← within 1 (daysIn year month)

/-- A fraction of a second. -/
def fraction : Reader Unit := do
  exactly '.'
  let _ ← run1 fun c => (Text.digitOf? 10 c).isSome

/-- A time of day. -/
def timeOfDay : Reader Unit := do
  let _ ← within 0 23
  exactly ':'
  let _ ← within 0 59
  exactly ':'
  let _ ← within 0 60
  let _ ← optional fraction

/-- An offset from universal time. -/
def offset : Reader Unit :=
  (do let _ ← one fun c => c == 'Z' || c == 'z') <|> do
    let _ ← one fun c => c == '+' || c == '-'
    let _ ← within 0 23
    exactly ':'
    let _ ← within 0 59

/-- A time of day after a date. -/
def timeAfterDate : Reader Unit := do
  let _ ← one fun c => c == 'T' || c == 't' || c == ' '
  timeOfDay
  let _ ← optional offset

/-- A date, perhaps with a time. -/
def dateAndTime : Reader Unit := do
  date
  let _ ← optional timeAfterDate

/-- A moment, as it is spelled. -/
def any : Reader String := do
  let (_, text) ← spelling (dateAndTime <|> timeOfDay)
  pure (String.ofList text)

end Keyhold.Toml.Moment
