import ModemLink.Binary64

/-!
# Shortest decimals

The text of a double is the shortest decimal that reads back as that double, and among the shortest
ones the nearest to it.  It is written positionally, without an exponent, and without a point if it
is whole.

A decimal with few digits that reads back lies within half a unit of the last place of the double.
On the grid of decimals with a given last place the two neighbours of the double are the only
candidates worth trying: if any decimal of the grid reads back, one of them does.
-/

namespace ModemLink

namespace Binary64

/-- A decimal: a whole number times a power of ten. -/
structure Decimal where
  digits : Nat
  /-- How many of the digits stand behind the point. -/
  places : Nat
  /-- How many zeros follow the digits in front of the point. -/
  zeros : Nat
deriving DecidableEq

/-- The double nearest to a decimal. -/
def Decimal.toBinary64 (d : Decimal) : Binary64 :=
  round (d.digits * Nat.pow 10 d.zeros) (Nat.pow 10 d.places)

/-- Whether two doubles have the same value. -/
def sameValue (x y : Binary64) : Bool :=
  decide (x.numerator * y.denominator = y.numerator * x.denominator)

/-- The nearest decimal to a double on a grid, if it reads back: `places` digits behind the point,
or, if `zeros` is positive, so many zeros in front of it.  A tie goes up. -/
def onGrid? (x : Binary64) (places zeros : Nat) : Option Decimal :=
  let num := x.numerator * Nat.pow 10 places
  let den := x.denominator * Nat.pow 10 zeros
  let low := num / den
  let below : Decimal := ⟨low, places, zeros⟩
  let above : Decimal := ⟨low + 1, places, zeros⟩
  let upFirst := decide (den ≤ 2 * (num % den))
  let reads (d : Decimal) := sameValue d.toBinary64 x
  if upFirst then
    if reads above then some above else if reads below then some below else none
  else
    if reads below then some below else if reads above then some above else none

/-- Tries the grids from the coarsest: the power of ten of the last digit falls from `power` on. -/
def search (x : Binary64) : Nat → Int → Decimal
  | 0, power =>
    ⟨x.numerator * Nat.pow 10 (-power).toNat / (x.denominator * Nat.pow 10 power.toNat),
      (-power).toNat, power.toNat⟩
  | tries + 1, power =>
    match onGrid? x (-power).toNat power.toNat with
    | some d => d
    | none => search x tries (power - 1)

/-- The power of ten not above a positive double, or the next one. -/
def magnitude (x : Binary64) : Int :=
  let bits := (x.numerator.log2 : Int) - x.drop
  bits * 30103 / 100000 + 1

/-- The shortest decimal that reads back as the double.  Seventeen digits always do. -/
def shortest (x : Binary64) : Decimal :=
  if x.mantissa = 0 then ⟨0, 0, 0⟩ else search x 20 x.magnitude

end Binary64

namespace Binary64.Decimal

/-- The text of a decimal, without an exponent. -/
def text (d : Decimal) : String :=
  if d.places = 0 then toString (d.digits * Nat.pow 10 d.zeros)
  else
    let whole := d.digits / Nat.pow 10 d.places
    let fraction := toString (d.digits % Nat.pow 10 d.places)
    let padding := String.ofList (List.replicate (d.places - fraction.length) '0')
    s!"{whole}.{padding}{fraction}"

end Binary64.Decimal

/-- The text of a double. -/
def Binary64.text (x : Binary64) : String := x.shortest.text

end ModemLink
