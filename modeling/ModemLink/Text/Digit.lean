/-!
# Digits

The digits of bases up to sixteen, and the numbers they are written for.

Main statement: `ofDigits_append`.
-/

namespace ModemLink.Text

/-- A decimal digit. -/
def isDigit (c : Char) : Bool := '0' ≤ c && c ≤ '9'

/-- A hexadecimal digit. -/
def isHexDigit (c : Char) : Bool := isDigit c || ('a' ≤ c && c ≤ 'f') || ('A' ≤ c && c ≤ 'F')

/-- The number that a digit of any base up to sixteen stands for. -/
def digitValue (c : Char) : Nat :=
  if isDigit c then c.toNat - '0'.toNat
  else if 'a' ≤ c then c.toNat - 'a'.toNat + 10
  else c.toNat - 'A'.toNat + 10

/-- The number that digits of a base stand for, the highest first. -/
def ofDigits (base : Nat) (digits : List Char) : Nat :=
  digits.foldl (fun n c => n * base + digitValue c) 0

/-- Digits that follow others count for the lower places. -/
theorem ofDigits_append (base : Nat) (front digits : List Char) :
    ofDigits base (front ++ digits) =
      digits.foldl (fun n c => n * base + digitValue c) (ofDigits base front) := by
  simp [ofDigits, List.foldl_append]

end ModemLink.Text
