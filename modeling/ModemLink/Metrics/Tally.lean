import ModemLink.Decimal

/-!
# Tallies and histograms

The two sorts of sample in an exposition.  A tally is a number for each key seen so far, added up in
doubles.  A histogram counts how many values lie at or below each of its bounds and adds the values
up.
-/

namespace ModemLink

/-- A number for each key seen so far. -/
structure Tally (κ : Type) where
  rows : List (κ × Binary64)
deriving Inhabited

namespace Tally

variable {κ : Type} [DecidableEq κ]

/-- No key seen yet. -/
def empty : Tally κ := ⟨[]⟩

/-- Adds an amount to the row of a key. -/
def bumpRow (key : κ) (amount : Binary64) : List (κ × Binary64) → List (κ × Binary64)
  | [] => [(key, .zero + amount)]
  | (first, value) :: rest =>
    if first = key then (first, value + amount) :: rest
    else (first, value) :: bumpRow key amount rest

/-- Adds an amount to a key. -/
def bump (tally : Tally κ) (key : κ) (amount : Binary64) : Tally κ :=
  ⟨bumpRow key amount tally.rows⟩

end Tally

/-- How many values fell into each range between bounds, their sum and their number. -/
structure Histogram where
  /-- For each bound the values above the bound before it and not above this one. -/
  buckets : List Nat
  sum : Binary64
  count : Nat
deriving Inhabited

namespace Histogram

/-- No values yet. -/
def empty (bounds : List Binary64) : Histogram := ⟨bounds.map fun _ => 0, .zero, 0⟩

/-- Counts a value in the first bucket whose bound it does not exceed. -/
def place (value : Binary64) : List Binary64 → List Nat → List Nat
  | bound :: bounds, n :: ns =>
    if value.le bound then (n + 1) :: ns else n :: place value bounds ns
  | _, ns => ns

/-- Adds a value. -/
def observe (histogram : Histogram) (bounds : List Binary64) (value : Binary64) : Histogram :=
  { buckets := place value bounds histogram.buckets
    sum := histogram.sum + value
    count := histogram.count + 1 }

/-- The running sums of a list, without the zero at the start. -/
def runningSums (start : Nat) : List Nat → List Nat
  | [] => []
  | n :: ns => (start + n) :: runningSums (start + n) ns

/-- For each bound the number of values not above it. -/
def cumulative (histogram : Histogram) : List Nat := runningSums 0 histogram.buckets

end Histogram

end ModemLink
