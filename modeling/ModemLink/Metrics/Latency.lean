import ModemLink.Duration
import ModemLink.RequestKind

/-!
# Latencies

For each kind of request the number of completions, the sum of their latencies and the longest one.
The average is taken in one of two ways: counts of 32 bits divide whole seconds and the rest apart
and carry the remainder over; larger counts divide the nanoseconds at once and keep 64 bits of the
quotient.

Main statement: `splitQuotient_mul_le`.
-/

namespace ModemLink

/-- What is known of the latencies of one kind of request. -/
structure Latency where
  count : UInt64
  total : Duration
  max : Duration
deriving DecidableEq

namespace Latency

/-- Nothing measured yet. -/
def none : Latency := ⟨0, .zero, .zero⟩

instance : Inhabited Latency := ⟨none⟩

/-- Adds one latency.  The completion is counted before the sum is tried. -/
def record (latency : Duration) : Clocked Latency Unit := fun stats =>
  let counted := { stats with count := stats.count + 1 }
  match stats.total.add? latency with
  | .ok total => .ok () { counted with total, max := stats.max.longer latency }
  | .error overflow => .error overflow counted

/-- Divides whole seconds and nanoseconds apart; the seconds left over join the nanoseconds left
over in a third division. -/
def splitQuotient (seconds nanos count : Nat) : Nat :=
  seconds / count * 1000000000 +
    (nanos / count + (seconds % count * 1000000000 + nanos % count) / count)

theorem splitQuotient_mul_le (seconds nanos count : Nat) :
    splitQuotient seconds nanos count * count ≤ seconds * 1000000000 + nanos := by
  unfold splitQuotient
  have hs := Nat.div_add_mod seconds count
  have hn := Nat.div_add_mod nanos count
  have hr := Nat.div_mul_le_self (seconds % count * 1000000000 + nanos % count) count
  rw [Nat.add_mul, Nat.add_mul, Nat.mul_right_comm, Nat.mul_comm (seconds / count) count,
    Nat.mul_comm (nanos / count) count]
  generalize (seconds % count * 1000000000 + nanos % count) / count * count = x at *
  generalize count * (seconds / count) = y at *
  generalize count * (nanos / count) = z at *
  omega

theorem splitQuotient_le (seconds nanos count : Nat) :
    splitQuotient seconds nanos count ≤ seconds * 1000000000 + nanos := by
  rcases Nat.eq_zero_or_pos count with rfl | hc
  · simp [splitQuotient]
  · exact Nat.le_trans (Nat.le_mul_of_pos_right _ hc) (splitQuotient_mul_le seconds nanos count)

theorem seconds_mul_add_subsecond (d : Duration) :
    d.seconds * 1000000000 + d.subsecond = d.nanos := by
  unfold Duration.seconds Duration.subsecond
  omega

/-- The mean of the latencies, rounded down to a nanosecond; zero if there are none. -/
def average (stats : Latency) : Duration :=
  if stats.count = 0 then .zero
  else if stats.count.toNat < 4294967296 then
    ⟨splitQuotient stats.total.seconds stats.total.subsecond stats.count.toNat,
      Nat.le_trans (splitQuotient_le _ _ _)
        (Nat.le_trans (Nat.le_of_eq (seconds_mul_add_subsecond _)) stats.total.nanos_le)⟩
  else
    ⟨stats.total.nanos / stats.count.toNat % 18446744073709551616, by
      have :=
        Nat.mod_lt (stats.total.nanos / stats.count.toNat) (y := 18446744073709551616) (by decide)
      unfold Duration.maxNanos
      omega⟩

end Latency

/-- The latencies of the kinds of which a request was completed. -/
structure LatencyTable where
  rows : List (RequestKind × Latency)
deriving DecidableEq, Inhabited

namespace LatencyTable

/-- No rows. -/
def empty : LatencyTable := ⟨[]⟩

/-- The row of a kind. -/
def get? (table : LatencyTable) (kind : RequestKind) : Option Latency := table.rows.lookup kind

/-- Writes the row of a kind. -/
def set (kind : RequestKind) (stats : Latency) :
    List (RequestKind × Latency) → List (RequestKind × Latency)
  | [] => [(kind, stats)]
  | (first, old) :: rest =>
    if first = kind then (kind, stats) :: rest else (first, old) :: set kind stats rest

/-- Adds one latency to the row of its kind. -/
def record (kind : RequestKind) (latency : Duration) : Clocked LatencyTable Unit := fun table =>
  match Latency.record latency ((table.get? kind).getD .none) with
  | .ok () stats => .ok () ⟨set kind stats table.rows⟩
  | .error overflow stats => .error overflow ⟨set kind stats table.rows⟩

/-- The rows in the order of kinds. -/
def toList (table : LatencyTable) : List (RequestKind × Latency) :=
  RequestKind.all.filterMap fun kind => (table.get? kind).map (kind, ·)

theorem lookup_set_self (kind : RequestKind) (stats : Latency)
    (rows : List (RequestKind × Latency)) : (set kind stats rows).lookup kind = some stats := by
  induction rows with
  | nil => simp [set]
  | cons row rest ih =>
    rcases row with ⟨first, old⟩
    unfold set
    split
    · simp
    · rename_i h
      simp [List.lookup_cons, beq_eq_false_iff_ne.2 (Ne.symm h), ih]

end LatencyTable

end ModemLink
