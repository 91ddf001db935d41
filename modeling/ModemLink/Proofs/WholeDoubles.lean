import Mathlib.Data.Rat.Defs
import Mathlib.Algebra.Order.Field.Rat
import Mathlib.Tactic.Ring
import ModemLink.Binary64

/-!
# Whole numbers as doubles

Below 2^53 every whole number is a double, and sums of whole numbers are exact: rounding has nothing
to do there.

* `round_mul_self` -- a fraction whose value is a whole number below 2^53 is rounded to that number;
* `ofNat_add_ofNat` -- sums below 2^53 are exact;
* `value_ofNat` -- the double of a whole number has its value.
-/

namespace ModemLink

namespace Binary64

/-- The exact value. -/
def value (x : Binary64) : ℚ := x.numerator / x.denominator

/-- A fraction scaled down by a power of two, or up by a negative one. -/
def scale (num den : Nat) (down : Int) : Nat × Nat :=
  if 0 ≤ down then (num, den * Nat.pow 2 down.toNat) else (num * Nat.pow 2 (-down).toNat, den)

/-- How far a fraction is scaled down before it is rounded. -/
def scaling (num den : Nat) : Int :=
  let gap := (num.log2 : Int) - den.log2 - 52
  if (scale num den gap).1 < 4503599627370496 * (scale num den gap).2 then gap - 1 else gap

theorem round_eq {num den : Nat} (hnum : num ≠ 0) (hden : den ≠ 0) :
    round num den =
      ⟨roundQuotient (scale num den (scaling num den)).1 (scale num den (scaling num den)).2,
        (scaling num den).toNat, (-scaling num den).toNat⟩ :=
  if_neg (by simp [hnum, hden])

/-- Scaling up multiplies the numerator. -/
theorem scale_neg (num den up : Nat) : scale num den (-(up : Int)) = (num * 2 ^ up, den) := by
  unfold scale
  split
  · have hup : up = 0 := by omega
    subst hup
    simp
  · rw [Int.neg_neg, Int.toNat_natCast]
    rfl

theorem roundQuotient_mul_self (n : Nat) {den : Nat} (hden : 0 < den) :
    roundQuotient (n * den) den = n := by
  unfold roundQuotient
  rw [Nat.mul_mod_left, Nat.mul_div_cancel _ hden]
  exact if_pos hden

/-- The bits of a product are those of its factors, or one more. -/
theorem log2_mul {m n : Nat} (hm : m ≠ 0) (hn : n ≠ 0) :
    (m * n).log2 = m.log2 + n.log2 ∨ (m * n).log2 = m.log2 + n.log2 + 1 := by
  have hmn : m * n ≠ 0 := Nat.mul_ne_zero hm hn
  have hlow : 2 ^ (m.log2 + n.log2) ≤ m * n := by
    rw [Nat.pow_add]
    exact Nat.mul_le_mul (Nat.log2_self_le hm) (Nat.log2_self_le hn)
  have hhigh : m * n < 2 ^ (m.log2 + n.log2 + 2) := by
    calc m * n < 2 ^ (m.log2 + 1) * 2 ^ (n.log2 + 1) :=
          Nat.mul_lt_mul'' Nat.lt_log2_self Nat.lt_log2_self
      _ = 2 ^ (m.log2 + n.log2 + 2) := by rw [← Nat.pow_add]; congr 1; omega
  have h1 := (Nat.le_log2 hmn).mpr hlow
  have h2 := (Nat.log2_lt hmn).mpr hhigh
  omega

/-- A whole number below 2^53 is scaled up until it has 53 bits. -/
theorem scaling_mul_self {n den : Nat} (hn : n ≠ 0) (hden : den ≠ 0)
    (hlt : n < 9007199254740992) :
    scaling (n * den) den = -((52 - n.log2 : Nat) : Int) := by
  have hbits : n.log2 < 53 := (Nat.log2_lt hn).mpr hlt
  obtain ⟨up, hup⟩ : ∃ up, 52 = n.log2 + up := ⟨52 - n.log2, by omega⟩
  have hup' : 52 - n.log2 = up := by omega
  have hlow : 2 ^ n.log2 ≤ n := Nat.log2_self_le hn
  have hhigh : n < 2 ^ (n.log2 + 1) := Nat.lt_log2_self
  have hpower : 2 ^ n.log2 * 2 ^ up = 4503599627370496 := by
    rw [← Nat.pow_add, ← hup]
  unfold scaling
  rw [hup']
  rcases log2_mul hn hden with hlog | hlog
  · -- the quotient has 53 bits already
    have hgap : ((n * den).log2 : Int) - den.log2 - 52 = -(up : Int) := by omega
    simp only [hgap, scale_neg]
    refine if_neg (Nat.not_lt.mpr ?_)
    calc 4503599627370496 * den = 2 ^ n.log2 * 2 ^ up * den := by rw [hpower]
      _ ≤ n * 2 ^ up * den := Nat.mul_le_mul_right _ (Nat.mul_le_mul_right _ hlow)
      _ = n * den * 2 ^ up := Nat.mul_right_comm _ _ _
  · -- the quotient is one bit short
    cases up with
    | zero =>
        have hgap : ((n * den).log2 : Int) - den.log2 - 52 = 1 := by omega
        simp only [hgap]
        refine if_pos ?_
        change n * den < 4503599627370496 * (den * 2)
        calc n * den < 9007199254740992 * den := Nat.mul_lt_mul_of_pos_right hlt (by omega)
          _ = 4503599627370496 * (den * 2) := by ring
    | succ k =>
        have hgap : ((n * den).log2 : Int) - den.log2 - 52 = -(k : Int) := by omega
        simp only [hgap, scale_neg]
        rw [if_pos, Int.natCast_succ, Int.neg_add]
        · rfl
        calc n * den * 2 ^ k = n * 2 ^ k * den := Nat.mul_right_comm _ _ _
          _ < 2 ^ (n.log2 + 1) * 2 ^ k * den :=
            Nat.mul_lt_mul_of_pos_right (Nat.mul_lt_mul_of_pos_right hhigh (Nat.two_pow_pos k))
              (by omega)
          _ = 4503599627370496 * den := by
            rw [← hpower, ← Nat.pow_add, ← Nat.pow_add]
            congr 2
            omega

/-- A fraction whose value is a positive whole number below 2^53 is not rounded at all. -/
theorem round_of_whole {n den : Nat} (hn : n ≠ 0) (hden : den ≠ 0) (hlt : n < 9007199254740992) :
    round (n * den) den = ⟨n * 2 ^ (52 - n.log2), 0, 52 - n.log2⟩ := by
  rw [round_eq (Nat.mul_ne_zero hn hden) hden, scaling_mul_self hn hden hlt, scale_neg,
    Nat.mul_right_comm, roundQuotient_mul_self _ (Nat.pos_of_ne_zero hden), Int.neg_neg,
    Int.toNat_natCast, Int.toNat_neg_natCast]

/-- A fraction whose value is a whole number below 2^53 is rounded to that number. -/
theorem round_mul_self {n den : Nat} (hden : den ≠ 0) (hlt : n < 9007199254740992) :
    round (n * den) den = ofNat n := by
  by_cases hn : n = 0
  · subst hn
    simp [ofNat, round]
  · have hone := round_of_whole hn Nat.one_ne_zero hlt
    rw [Nat.mul_one] at hone
    rw [round_of_whole hn hden hlt, ofNat, hone]

theorem denominator_ne_zero (x : Binary64) : x.denominator ≠ 0 :=
  Nat.ne_of_gt (Nat.two_pow_pos x.drop)

theorem numerator_ofNat {n : Nat} (hlt : n < 9007199254740992) :
    (ofNat n).numerator = n * (ofNat n).denominator := by
  by_cases hn : n = 0
  · subst hn
    rfl
  · have hone := round_of_whole hn Nat.one_ne_zero hlt
    rw [Nat.mul_one] at hone
    rw [ofNat, hone]
    exact Nat.mul_one _

/-- Sums of whole numbers below 2^53 are exact. -/
theorem ofNat_add_ofNat {m n : Nat} (hlt : m + n < 9007199254740992) :
    ofNat m + ofNat n = ofNat (m + n) := by
  change round ((ofNat m).numerator * (ofNat n).denominator +
    (ofNat n).numerator * (ofNat m).denominator) ((ofNat m).denominator * (ofNat n).denominator) = _
  rw [numerator_ofNat (by omega), numerator_ofNat (by omega)]
  rw [show m * (ofNat m).denominator * (ofNat n).denominator +
      n * (ofNat n).denominator * (ofNat m).denominator =
      (m + n) * ((ofNat m).denominator * (ofNat n).denominator) by ring]
  exact round_mul_self (Nat.mul_ne_zero (denominator_ne_zero _) (denominator_ne_zero _)) hlt

/-- The double of a whole number below 2^53 has its value. -/
theorem value_ofNat {n : Nat} (hlt : n < 9007199254740992) : (ofNat n).value = n := by
  rw [value, numerator_ofNat hlt, Nat.cast_mul, mul_div_assoc, div_self, mul_one]
  exact Nat.cast_ne_zero.mpr (denominator_ne_zero _)

end Binary64

end ModemLink
