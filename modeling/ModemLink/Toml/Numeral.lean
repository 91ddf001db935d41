import ModemLink.Record
import ModemLink.Text.Digit

/-!
# Numerals

Whole numbers are written in base ten with a sign, or in base sixteen, eight or two without one, and
fit into 64 bits.  Numbers with a fraction or an exponent are kept as they are written; one so large
that no double is near is refused.  Underscores may stand between digits, and base ten has no zeros
in front.
-/

namespace ModemLink.Toml

open Text

/-- Splits a list at every occurrence of a character. -/
def splitAt (mark : Char) : List Char → List (List Char)
  | [] => [[]]
  | c :: rest =>
    if c = mark then [] :: splitAt mark rest
    else
      match splitAt mark rest with
      | [] => [[c]]
      | part :: parts => (c :: part) :: parts

/-- Digits with single underscores between them, without the underscores. -/
def grouped? (member : Char → Bool) (text : List Char) : Option (List Char) :=
  let groups := splitAt '_' text
  if groups.all fun group => !group.isEmpty && group.all member then some groups.flatten else none

/-- Takes a sign off, and tells whether it was a minus. -/
def unsigned : List Char → Bool × List Char
  | '-' :: rest => (true, rest)
  | '+' :: rest => (false, rest)
  | text => (false, text)

/-- A whole number of base ten without sign: no zeros in front. -/
def whole? (text : List Char) : Option (List Char) :=
  match text with
  | '0' :: _ :: _ => none
  | _ => grouped? isDigit text

/-- A whole number that fits into 64 bits. -/
def inRange? (n : Int) : Option Int :=
  if -9223372036854775808 ≤ n ∧ n < 9223372036854775808 then some n else none

/-- A whole number. -/
def integer? (text : List Char) : Option Int := do
  match text with
  | '0' :: 'x' :: digits => inRange? (ofDigits 16 (← grouped? isHexDigit digits))
  | '0' :: 'o' :: digits =>
    inRange? (ofDigits 8 (← grouped? (fun c => '0' ≤ c && c ≤ '7') digits))
  | '0' :: 'b' :: digits =>
    inRange? (ofDigits 2 (← grouped? (fun c => c == '0' || c == '1') digits))
  | _ =>
    let (negative, digits) := unsigned text
    let n : Int := ofDigits 10 (← whole? digits)
    inRange? (if negative then -n else n)

/-- The parts of a text around the first character of a class, or the text alone. -/
def cut (mark : Char → Bool) (text : List Char) : List Char × Option (List Char) :=
  match text.dropWhile fun c => !mark c with
  | [] => (text, none)
  | _ :: rest => (text.takeWhile fun c => !mark c, some rest)

/-- Whether `digits · 10^power` is so large that it rounds to infinity: no double is greater than
2^1024 - 2^971, and from half a step above it on there is none to round to. -/
def isHuge (digits : Nat) (power : Int) : Bool :=
  if digits = 0 then false
  else
    let length : Int := (Nat.toDigits 10 digits).length
    if length + power < 300 then false
    else if 320 < length + power then true
    else
      decide ((Nat.pow 2 1024 - Nat.pow 2 970) * Nat.pow 10 (-power).toNat ≤
        digits * Nat.pow 10 power.toNat)

/-- Whether a text is a number with a fraction, an exponent, or both, and not too large. -/
def isDecimal (text : List Char) : Bool := Option.isSome do
  let (negative, size) := unsigned text
  if size = "inf".toList ∨ size = "nan".toList then return
  let (mantissa, exponent) := cut (fun c => c == 'e' || c == 'E') size
  let (front, fraction) := cut (· == '.') mantissa
  if fraction.isNone && exponent.isNone then failure
  let front ← whole? front
  let fraction ← (fraction.map (grouped? isDigit)).getD (some [])
  let power : Int ←
    match exponent with
    | none => pure 0
    | some exponent =>
      let (down, digits) := unsigned exponent
      let n : Int := ofDigits 10 (← grouped? isDigit digits)
      pure (if down then -n else n)
  if !negative && isHuge (ofDigits 10 (front ++ fraction)) (power - fraction.length) then failure

/-- A number. -/
def number? (text : List Char) : Option Value :=
  match integer? text with
  | some n => some (.integer n)
  | none => if isDecimal text then some (.decimal (String.ofList text)) else none

end ModemLink.Toml
