import ModemLink.Record
import ModemLink.Text.Digit
import ModemLink.Text.Scan

/-!
# Dates and times of day

A date, a time of day, or a date with a time of day, which may have an offset.  Dates follow the
calendar; a minute may have a leap second; an offset is at most a day.
-/

namespace ModemLink.Toml

open Text

/-- The number of days of a month. -/
def daysIn (year month : Nat) : Nat :=
  if month = 2 then
    if year % 4 = 0 ∧ (year % 100 ≠ 0 ∨ year % 400 = 0) then 29 else 28
  else if month ∈ [4, 6, 9, 11] then 30
  else 31

/-- A number of exactly so many digits, within bounds. -/
def bounded (digits low high : Nat) : Scan Nat := do
  let n := ofDigits 10 (← Scan.exactly digits isDigit)
  if low ≤ n ∧ n ≤ high then return n else failure

/-- Takes a date off. -/
def date : Scan Unit := do
  let year ← bounded 4 0 9999
  Scan.expect "-"
  let month ← bounded 2 1 12
  Scan.expect "-"
  let _ ← bounded 2 1 (daysIn year month)

/-- Takes a time of day off. -/
def timeOfDay : Scan Unit := do
  let _ ← bounded 2 0 23
  Scan.expect ":"
  let _ ← bounded 2 0 59
  Scan.expect ":"
  let _ ← bounded 2 0 60
  if ← Scan.accept "." then
    let fraction ← Scan.span isDigit
    if fraction.isEmpty then failure

/-- Takes the offset of a time of day off, if there is one. -/
def offset : Scan Unit := do
  match ← Scan.peek with
  | none => return
  | some c =>
    let _ ← Scan.next
    if c == 'Z' || c == 'z' then return
    if c == '+' || c == '-' then
      let _ ← bounded 2 0 23
      Scan.expect ":"
      let _ ← bounded 2 0 59
    else failure

/-- Takes a date, a time of day or both off. -/
def moment : Scan Unit := do
  match ← optional date with
  | none => timeOfDay
  | some _ =>
    match ← Scan.peek with
    | none => return
    | some c =>
      let _ ← Scan.next
      if c == 'T' || c == 't' || c == ' ' then
        timeOfDay
        offset
      else failure

/-- Whether a text is a date, a time of day or both. -/
def isMoment (text : List Char) : Bool := (moment.whole? text).isSome

end ModemLink.Toml
