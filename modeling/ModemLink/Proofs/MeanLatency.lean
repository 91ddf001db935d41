import Mathlib.Algebra.Order.BigOperators.Group.List
import Mathlib.Algebra.Order.Ring.Nat
import Mathlib.Algebra.Group.Action.Defs
import Mathlib.Data.List.MinMax
import Mathlib.Tactic.Ring
import ModemLink.Proofs.Totals

/-!
# The mean latency

The mean of some latencies is their sum divided by their number, rounded down to a nanosecond.  Two
divisions stand for it: that of whole seconds and nanoseconds apart, with remainders carried over,
and for counts beyond 32 bits that of all nanoseconds, of which 64 bits are kept.  They say the
same.

* `splitQuotient_eq` -- nothing is lost by dividing apart;
* `quotient_lt_size` -- nor by keeping 64 bits, since the count has more than 32;
* `nanos_average` -- so the mean is the quotient, whatever the count;
* `Shows.total_le` -- the sum of latencies is at most their number times the longest;
* `average_rounds_down` -- the mean of what was recorded.
-/

namespace ModemLink

namespace Latency

/-! ## The two divisions -/

/-- The remainders carried over make up for what the first two divisions leave. -/
theorem splitQuotient_eq {count : Nat} (hcount : 0 < count) (seconds nanos : Nat) :
    splitQuotient seconds nanos count = (seconds * 1000000000 + nanos) / count := by
  have hseconds := Nat.div_add_mod seconds count
  have hnanos := Nat.div_add_mod nanos count
  have hsum : seconds * 1000000000 + nanos =
      count * (seconds / count * 1000000000 + nanos / count) +
        (seconds % count * 1000000000 + nanos % count) := by
    calc seconds * 1000000000 + nanos
        = (count * (seconds / count) + seconds % count) * 1000000000 +
            (count * (nanos / count) + nanos % count) := by rw [hseconds, hnanos]
      _ = _ := by ring
  rw [hsum, Nat.mul_add_div hcount, splitQuotient, Nat.add_assoc]

/-- A count of more than 32 bits leaves a quotient of at most 64. -/
theorem quotient_lt_size (total : Duration) {count : Nat} (hcount : 4294967296 ≤ count) :
    total.nanos / count < UInt64.size := by
  have htotal := total.nanos_le
  rw [Nat.div_lt_iff_lt_mul (by omega)]
  calc total.nanos < UInt64.size * 4294967296 := by
        unfold Duration.maxNanos at htotal
        unfold UInt64.size
        omega
    _ ≤ UInt64.size * count := Nat.mul_le_mul_left _ hcount

/-- The mean is the quotient of sum and count, on both sides of 2^32. -/
theorem nanos_average {stats : Latency} (hcount : stats.count ≠ 0) :
    stats.average.nanos = stats.total.nanos / stats.count.toNat := by
  have hpos : 0 < stats.count.toNat := by
    rw [Nat.pos_iff_ne_zero]
    exact fun hzero => hcount (UInt64.toNat_inj.mp hzero)
  unfold average
  rw [if_neg hcount]
  split
  · exact (splitQuotient_eq hpos _ _).trans (by rw [seconds_mul_add_subsecond])
  · rename_i hwide
    exact Nat.mod_eq_of_lt (quotient_lt_size stats.total (by omega))

/-! ## Recording -/

/-- Adds latencies, one after the other. -/
def recordAll (latencies : List Duration) : Clocked Latency Unit := latencies.forM record

/-- A latency is added as long as the sum is a duration. -/
theorem exists_record {stats : Latency} {latency : Duration}
    (hfits : stats.total.nanos + latency.nanos ≤ Duration.maxNanos) :
    ∃ after, record latency stats = .ok () after := by
  have hadd : stats.total.add? latency = .ok ⟨_, hfits⟩ := Duration.add?_eq_ok_iff.mpr rfl
  simp only [record, hadd]
  exact ⟨_, rfl⟩

variable {stats : Latency} {latencies : List Duration}

theorem Shows.exists_record (h : stats.Shows latencies) (latency : Duration)
    (hfits : ((latency :: latencies).map (·.nanos)).sum ≤ Duration.maxNanos) :
    ∃ after, Latency.record latency stats = .ok () after ∧ after.Shows (latency :: latencies) := by
  rw [List.map_cons, List.sum_cons, Nat.add_comm, ← h.total] at hfits
  obtain ⟨after, hafter⟩ := Latency.exists_record hfits
  exact ⟨after, hafter, (Clocked.wp_of_ok hafter).mp (h.record latency)⟩

/-- Latencies whose sum is a duration can all be recorded. -/
theorem Shows.exists_recordAll (h : stats.Shows latencies) (more : List Duration)
    (hfits : ((more.reverse ++ latencies).map (·.nanos)).sum ≤ Duration.maxNanos) :
    ∃ after, recordAll more stats = .ok () after ∧ after.Shows (more.reverse ++ latencies) := by
  induction more generalizing stats latencies with
  | nil => exact ⟨stats, rfl, h⟩
  | cons first rest ih =>
      have hsplit : (first :: rest).reverse ++ latencies = rest.reverse ++ first :: latencies := by
        simp
      rw [hsplit] at hfits ⊢
      obtain ⟨next, hnext, hshows⟩ := h.exists_record first (by
        rw [List.map_append, List.sum_append] at hfits
        omega)
      obtain ⟨after, hafter, hall⟩ := ih hshows hfits
      exact ⟨after, (Clocked.bind_of_ok hnext _).trans hafter, hall⟩

/-- No latency is longer than the longest, which is one of them. -/
theorem Shows.max_spec (h : stats.Shows latencies) :
    (∀ latency ∈ latencies, latency ≤ stats.max) ∧ (latencies ≠ [] → stats.max ∈ latencies) := by
  refine ⟨fun latency hlatency => ?_, fun hsome => ?_⟩
  · change latency.nanos ≤ stats.max.nanos
    rw [h.max]
    exact List.le_max_of_le (List.mem_map_of_mem hlatency) (Nat.le_refl _)
  · have hmem : stats.max.nanos ∈ latencies.map (·.nanos) := by
      rw [h.max]
      exact List.maximum_mem (List.foldr_max_of_ne_nil (by simpa using hsome)).symm
    obtain ⟨latency, hlatency, heq⟩ := List.mem_map.mp hmem
    rwa [← Duration.ext heq]

/-- The sum of latencies is at most their number times the longest. -/
theorem Shows.total_le (h : stats.Shows latencies) :
    stats.total.nanos ≤ latencies.length * stats.max.nanos := by
  have hle : ∀ n ∈ latencies.map (·.nanos), n ≤ stats.max.nanos := by
    intro n hn
    obtain ⟨latency, hlatency, rfl⟩ := List.mem_map.mp hn
    exact h.max_spec.1 latency hlatency
  have hsum := List.sum_le_card_nsmul _ _ hle
  rwa [← h.total, List.length_map, smul_eq_mul] at hsum

/-- **The mean latency is rounded down to a nanosecond.**  For every count and every sum the mean is
their quotient, and a count beyond 32 bits leaves a quotient that 64 bits hold.  So whatever
latencies are recorded, as long as their sum is a duration and 64 bits can count them: the mean is
at most the longest of them, and it is the greatest number of nanoseconds that, taken as often as
there are latencies, does not exceed their sum. -/
theorem average_rounds_down :
    (∀ stats : Latency, stats.count ≠ 0 →
      stats.average.nanos = stats.total.nanos / stats.count.toNat ∧
      (4294967296 ≤ stats.count.toNat →
        stats.total.nanos / stats.count.toNat < UInt64.size)) ∧
    ∀ latencies : List Duration, latencies ≠ [] → latencies.length < UInt64.size →
      (latencies.map (·.nanos)).sum ≤ Duration.maxNanos →
      ∃ stats, recordAll latencies none = .ok () stats ∧
        stats.count.toNat = latencies.length ∧
        stats.total.nanos = (latencies.map (·.nanos)).sum ∧
        stats.max ∈ latencies ∧ (∀ latency ∈ latencies, latency ≤ stats.max) ∧
        stats.average ≤ stats.max ∧
        stats.average.nanos * stats.count.toNat ≤ stats.total.nanos ∧
        stats.total.nanos < (stats.average.nanos + 1) * stats.count.toNat := by
  refine ⟨fun stats hcount => ⟨nanos_average hcount, quotient_lt_size stats.total⟩, ?_⟩
  intro latencies hsome hlength hsum
  obtain ⟨stats, hstats, hshows⟩ := shows_none.exists_recordAll latencies (by
    rwa [List.append_nil, List.map_reverse, List.sum_reverse])
  rw [List.append_nil] at hshows
  have hnumber : latencies.reverse.length = latencies.length := List.length_reverse
  have hcount : stats.count.toNat = latencies.length := by
    rw [hshows.count, UInt64.toNat_ofNat_of_lt' (hnumber ▸ hlength), hnumber]
  have hpos : 0 < stats.count.toNat := hcount ▸ List.length_pos_iff.mpr hsome
  have hmean : stats.average.nanos = stats.total.nanos / stats.count.toNat := by
    refine nanos_average fun hzero => ?_
    rw [hzero] at hpos
    exact Nat.lt_irrefl _ hpos
  obtain ⟨hle, hmem⟩ := hshows.max_spec
  refine ⟨stats, hstats, hcount, ?_, ?_, ?_, ?_, ?_, ?_⟩
  · rw [hshows.total, List.map_reverse, List.sum_reverse]
  · exact List.mem_reverse.mp (hmem (by simpa using hsome))
  · exact fun latency hlatency => hle latency (List.mem_reverse.mpr hlatency)
  · have htotal := hshows.total_le
    rw [hnumber, ← hcount] at htotal
    change stats.average.nanos ≤ stats.max.nanos
    rw [hmean]
    exact Nat.div_le_of_le_mul htotal
  · rw [hmean]
    exact Nat.div_mul_le_self _ _
  · rw [hmean, Nat.mul_comm]
    exact Nat.lt_mul_div_succ _ hpos

/-- So it is for the longest sum there is, divided by the first count beyond 32 bits, and for 10 and
31 nanoseconds. -/
theorem average_rounds_down_beyond_32_bits :
    (⟨4294967296, ⟨Duration.maxNanos, Nat.le_refl _⟩, .zero⟩ : Latency).average.nanos =
      4294967295999999999 ∧
    ∃ stats, recordAll [⟨10, by decide⟩, ⟨31, by decide⟩] none = .ok () stats ∧
      stats.average.nanos = 20 ∧ stats.average ≤ stats.max := by
  refine ⟨(average_rounds_down.1 _ (by decide)).1.trans (by decide), ?_⟩
  obtain ⟨stats, hstats, hcount, htotal, -, -, hmax, -, -⟩ :=
    average_rounds_down.2 [⟨10, by decide⟩, ⟨31, by decide⟩] (by decide) (by decide) (by decide)
  have hcount : stats.count.toNat = 2 := hcount
  refine ⟨stats, hstats, ?_, hmax⟩
  rw [(average_rounds_down.1 stats fun hzero => by rw [hzero] at hcount; cases hcount).1, hcount,
    htotal]
  decide

end Latency

end ModemLink
