import Mathlib.Algebra.Order.Ring.Nat
import Mathlib.Algebra.BigOperators.Group.Finset.Basic
import ModemLink.Proofs.Settlements

/-!
# What the counters count

A counter of 64 bits starts over, and a table of latencies forgets the single ones.  Beside the
books in memory stand totals that do neither: each measurement adds to a number without bound or to
the list of completions.  The books show the totals as far as 64 bits can tell; that is all they
are.

* `Totals.enter` -- what a measurement adds;
* `Latency.Shows.record`, `Metrics.Shows.record` -- books that show totals go on to show them;
* `Metrics.Shows.sum_counts` -- the rows of the table of latencies add up to the completions.
-/

namespace ModemLink

open Clocked

/-! ## Latencies -/

/-- The latencies among some completions that belong to a kind. -/
def latenciesOf (kind : RequestKind) (times : List (RequestKind × Duration)) : List Duration :=
  (times.filter (·.1 = kind)).map (·.2)

namespace Latency

/-- A row of the table shows some latencies: how many there are, their sum, and the longest. -/
structure Shows (stats : Latency) (latencies : List Duration) : Prop where
  count : stats.count = UInt64.ofNat latencies.length
  total : stats.total.nanos = (latencies.map (·.nanos)).sum
  max : stats.max.nanos = (latencies.map (·.nanos)).foldr Nat.max 0

variable {stats : Latency} {latencies : List Duration}

theorem shows_none : none.Shows [] := ⟨rfl, rfl, rfl⟩

theorem Shows.record (h : stats.Shows latencies) (latency : Duration) :
    wp (record latency) (fun _ after => after.Shows (latency :: latencies)) (fun _ => True)
      stats := by
  unfold wp Latency.record
  cases hsum : stats.total.add? latency with
  | error overflow => trivial
  | ok total =>
      refine ⟨?_, ?_, ?_⟩
      · change stats.count + 1 = _
        rw [h.count, List.length_cons, UInt64.ofNat_add]
        rfl
      · change total.nanos = _
        rw [Duration.add?_eq_ok_iff.mp hsum, h.total, List.map_cons, List.sum_cons, Nat.add_comm]
      · change (stats.max.longer latency).nanos = _
        rw [Duration.nanos_longer, h.max, List.map_cons, List.foldr_cons]
        exact Nat.max_comm _ _

end Latency

namespace LatencyTable

variable {table : LatencyTable} {times : List (RequestKind × Duration)}

/-- The row of a kind; a kind without completions has none. -/
def row (table : LatencyTable) (kind : RequestKind) : Latency := (table.get? kind).getD .none

/-- Each row of a table shows the latencies of its kind. -/
def Shows (table : LatencyTable) (times : List (RequestKind × Duration)) : Prop :=
  ∀ kind, (table.row kind).Shows (latenciesOf kind times)

theorem Shows.record (h : table.Shows times) (kind : RequestKind) (latency : Duration) :
    wp (record kind latency) (fun _ after => after.Shows ((kind, latency) :: times))
      (fun _ => True) table := by
  have hrow := (h kind).record latency
  unfold wp at hrow ⊢
  simp only [LatencyTable.record]
  rw [row] at hrow
  cases hrecord : Latency.record latency ((table.get? kind).getD .none) with
  | error overflow stats => trivial
  | ok answer stats =>
      rw [hrecord] at hrow
      intro other
      by_cases hother : other = kind
      · subst hother
        have hlatencies : latenciesOf other ((other, latency) :: times) =
            latency :: latenciesOf other times := by simp [latenciesOf]
        rw [hlatencies]
        simp only [row, get?, lookup_set_self, Option.getD_some]
        exact hrow
      · have hlatencies :
          latenciesOf other ((kind, latency) :: times) = latenciesOf other times := by
          simp [latenciesOf, Ne.symm hother]
        rw [hlatencies]
        simp only [row, get?, lookup_set_of_ne hother]
        exact h other

end LatencyTable

/-! ## Totals -/

/-- A completion, as it is entered. -/
structure Completion where
  kind : RequestKind
  outcome : Outcome
  latency : Duration

/-- What was measured, without bounds; the completions, the latest in front. -/
structure Totals where
  submitted : Nat := 0
  completions : List Completion := []
  violations : Nat := 0
  acks : Nat := 0
  timeouts : Nat := 0
  drained : Nat := 0
  bound : Nat := 0
  refused : Nat := 0

namespace Totals

/-- What a measurement adds. -/
def enter (totals : Totals) : Measurement → Totals
  | .submitted _ => { totals with submitted := totals.submitted + 1 }
  | .completed kind outcome latency =>
    { totals with completions := ⟨kind, outcome, latency⟩ :: totals.completions }
  | .violation => { totals with violations := totals.violations + 1 }
  | .ackReceived => { totals with acks := totals.acks + 1 }
  | .localAck => totals
  | .indication _ _ => totals
  | .wakelockTimeout _ => { totals with timeouts := totals.timeouts + 1 }
  | .death drained => { totals with drained := totals.drained + drained }
  | .bind true => { totals with bound := totals.bound + 1 }
  | .bind false => { totals with refused := totals.refused + 1 }

/-- The completions with an outcome. -/
def ended (totals : Totals) (outcome : Outcome) : Nat :=
  totals.completions.countP (·.outcome = outcome)

/-- The kinds and the latencies of the completions. -/
def times (totals : Totals) : List (RequestKind × Duration) :=
  totals.completions.map fun completion => (completion.kind, completion.latency)

theorem length_times (totals : Totals) : totals.times.length = totals.completions.length :=
  List.length_map _

theorem ended_le (totals : Totals) (outcome : Outcome) :
    totals.ended outcome ≤ totals.completions.length :=
  List.countP_le_length

/-- Every completion has one outcome. -/
theorem sum_ended (totals : Totals) :
    totals.ended .success + totals.ended .rejected + totals.ended .unavailable +
      totals.ended .timedOut = totals.completions.length := by
  unfold ended
  induction totals.completions with
  | nil => rfl
  | cons completion rest ih =>
      obtain ⟨kind, outcome, latency⟩ := completion
      rw [List.length_cons, ← ih]
      cases outcome <;> simp <;> omega

end Totals

/-! ## The books in memory -/

namespace Metrics

variable {metrics : Metrics} {totals : Totals}

/-- The books in memory show totals, as far as 64 bits can tell. -/
structure Shows (metrics : Metrics) (totals : Totals) : Prop where
  submitted : metrics.counters.submitted = UInt64.ofNat totals.submitted
  outcomes : ∀ outcome, metrics.counters.ofOutcome outcome = UInt64.ofNat (totals.ended outcome)
  violations : metrics.counters.violations = UInt64.ofNat totals.violations
  acks : metrics.counters.acksReceived = UInt64.ofNat totals.acks
  timeouts : metrics.counters.wakelockTimeouts = UInt64.ofNat totals.timeouts
  drained : metrics.counters.drained = UInt64.ofNat totals.drained
  bound : metrics.counters.binds = UInt64.ofNat totals.bound
  refused : metrics.counters.bindFailures = UInt64.ofNat totals.refused
  latency : metrics.latency.Shows totals.times

theorem shows_fresh : Shows {} {} :=
  ⟨rfl, fun outcome => by cases outcome <;> rfl, rfl, rfl, rfl, rfl, rfl, rfl,
    fun _ => Latency.shows_none⟩

/-- One more is counted. -/
theorem ofNat_succ (n : Nat) : UInt64.ofNat n + 1 = UInt64.ofNat (n + 1) :=
  (UInt64.ofNat_add n 1).symm

/-- A completion is counted under its outcome and no other. -/
theorem ofOutcome_addOutcome (counters : Counters) (outcome other : Outcome) :
    (counters.addOutcome outcome).ofOutcome other =
      counters.ofOutcome other + if outcome = other then 1 else 0 := by
  cases outcome <;> cases other <;> simp [Counters.addOutcome, Counters.ofOutcome]

/-- Books that show totals show them with one measurement more. -/
theorem Shows.record (h : metrics.Shows totals) (m : Measurement) :
    wp (record m) (fun _ after => after.Shows (totals.enter m)) (fun _ => True) metrics := by
  cases m with
  | submitted kind =>
      refine ⟨?_, h.outcomes, h.violations, h.acks, h.timeouts, h.drained, h.bound, h.refused,
        h.latency⟩
      exact (congrArg (· + 1) h.submitted).trans (ofNat_succ _)
  | completed kind outcome latency =>
      have htable := h.latency.record kind latency
      unfold wp at htable ⊢
      simp only [Metrics.record]
      cases hrecord : LatencyTable.record kind latency metrics.latency with
      | error overflow table => trivial
      | ok answer table =>
          rw [hrecord] at htable
          have hother (counters : Counters) :
              (counters.addOutcome outcome).submitted = counters.submitted ∧
              (counters.addOutcome outcome).violations = counters.violations ∧
              (counters.addOutcome outcome).acksReceived = counters.acksReceived ∧
              (counters.addOutcome outcome).wakelockTimeouts = counters.wakelockTimeouts ∧
              (counters.addOutcome outcome).drained = counters.drained ∧
              (counters.addOutcome outcome).binds = counters.binds ∧
              (counters.addOutcome outcome).bindFailures = counters.bindFailures := by
            cases outcome <;> exact ⟨rfl, rfl, rfl, rfl, rfl, rfl, rfl⟩
          obtain ⟨hsubmitted, hviolations, hacks, htimeouts, hdrained, hbound, hrefused⟩ :=
            hother metrics.counters
          refine ⟨hsubmitted.trans h.submitted, fun other => ?_, hviolations.trans h.violations,
            hacks.trans h.acks, htimeouts.trans h.timeouts, hdrained.trans h.drained,
            hbound.trans h.bound, hrefused.trans h.refused, htable⟩
          change (metrics.counters.addOutcome outcome).ofOutcome other = _
          rw [ofOutcome_addOutcome, h.outcomes other]
          by_cases hsame : outcome = other
          · simp [Totals.ended, Totals.enter, hsame, UInt64.ofNat_add]
          · simp [Totals.ended, Totals.enter, hsame]
  | violation =>
      refine ⟨h.submitted, h.outcomes, ?_, h.acks, h.timeouts, h.drained, h.bound, h.refused,
        h.latency⟩
      exact (congrArg (· + 1) h.violations).trans (ofNat_succ _)
  | ackReceived =>
      refine ⟨h.submitted, h.outcomes, h.violations, ?_, h.timeouts, h.drained, h.bound, h.refused,
        h.latency⟩
      exact (congrArg (· + 1) h.acks).trans (ofNat_succ _)
  | localAck => exact ⟨h.1, h.2, h.3, h.4, h.5, h.6, h.7, h.8, h.9⟩
  | indication kind subscribers => exact ⟨h.1, h.2, h.3, h.4, h.5, h.6, h.7, h.8, h.9⟩
  | wakelockTimeout guard =>
      refine ⟨h.submitted, h.outcomes, h.violations, h.acks, ?_, h.drained, h.bound, h.refused,
        h.latency⟩
      exact (congrArg (· + 1) h.timeouts).trans (ofNat_succ _)
  | death drained =>
      refine ⟨h.submitted, h.outcomes, h.violations, h.acks, h.timeouts, ?_, h.bound, h.refused,
        h.latency⟩
      exact (congrArg (· + UInt64.ofNat drained) h.drained).trans (UInt64.ofNat_add _ _).symm
  | bind success =>
      cases success with
      | true =>
          refine ⟨h.submitted, h.outcomes, h.violations, h.acks, h.timeouts, h.drained, ?_,
              h.refused,
            h.latency⟩
          exact (congrArg (· + 1) h.bound).trans (ofNat_succ _)
      | false =>
          refine ⟨h.submitted, h.outcomes, h.violations, h.acks, h.timeouts, h.drained, h.bound, ?_,
            h.latency⟩
          exact (congrArg (· + 1) h.refused).trans (ofNat_succ _)

/-- All completions together. -/
theorem Shows.completed (h : metrics.Shows totals) :
    metrics.counters.completed = UInt64.ofNat totals.completions.length := by
  rw [← totals.sum_ended, UInt64.ofNat_add, UInt64.ofNat_add, UInt64.ofNat_add,
    ← h.outcomes, ← h.outcomes, ← h.outcomes, ← h.outcomes]
  rfl

/-- The rows of all kinds have as many latencies as there are completions. -/
theorem sum_length_latenciesOf (times : List (RequestKind × Duration)) :
    (RequestKind.all.map fun kind => (latenciesOf kind times).length).sum = times.length := by
  have hnodup : RequestKind.all.Nodup := by decide
  have hlength (kind : RequestKind) :
      (latenciesOf kind times).length =
        Multiset.count kind (times.map (·.1) : List RequestKind) := by
    rw [latenciesOf, List.length_map, Multiset.coe_count, List.count, List.countP_map,
      List.countP_eq_length_filter]
    congr 1
  simp only [hlength]
  rw [← List.sum_toFinset _ hnodup, Multiset.sum_count_eq_card, Multiset.coe_card, List.length_map]
  exact fun kind _ => List.mem_toFinset.mpr (RequestKind.mem_all kind)

/-- The counts of the table add up to the completions. -/
theorem Shows.sum_counts (h : metrics.Shows totals)
    (hlt : totals.completions.length < UInt64.size) :
    (metrics.latency.toList.map (·.2.count.toNat)).sum = totals.completions.length := by
  have hcount (kind : RequestKind) :
      (metrics.latency.row kind).count.toNat = (latenciesOf kind totals.times).length := by
    rw [(h.latency kind).count, UInt64.toNat_ofNat_of_lt']
    refine Nat.lt_of_le_of_lt ?_ hlt
    rw [← totals.length_times, latenciesOf, List.length_map]
    exact List.length_filter_le _ _
  have hrows (kinds : List RequestKind) :
      ((kinds.filterMap fun kind => (metrics.latency.get? kind).map (kind, ·)).map
        (·.2.count.toNat)).sum =
        (kinds.map fun kind => (metrics.latency.row kind).count.toNat).sum := by
    induction kinds with
    | nil => rfl
    | cons kind rest ih =>
        rw [List.filterMap_cons, List.map_cons, List.sum_cons, ← ih, LatencyTable.row]
        cases metrics.latency.get? kind with
        | none => simp [Latency.none]
        | some stats => simp
  rw [LatencyTable.toList, hrows]
  simp only [hcount]
  rw [sum_length_latenciesOf, totals.length_times]

end Metrics

end ModemLink
