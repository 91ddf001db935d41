/-!
# Ranges of characters

Classes of characters that are given by ranges of code points.

Main statement: `inRanges_of_mem`.
-/

namespace ModemLink.Text

/-- Whether the code point of a character lies in one of the ranges. -/
def inRanges (ranges : List (Nat × Nat)) (c : Char) : Bool :=
  ranges.any fun (first, last) => decide (first ≤ c.toNat ∧ c.toNat ≤ last)

/-- A code point between the ends of a range lies in the ranges. -/
theorem inRanges_of_mem {ranges : List (Nat × Nat)} {first last : Nat} {c : Char}
    (h : (first, last) ∈ ranges) (hf : first ≤ c.toNat) (hl : c.toNat ≤ last) :
    inRanges ranges c := by
  rw [inRanges, List.any_eq_true]
  exact ⟨(first, last), h, by simp [hf, hl]⟩

end ModemLink.Text
