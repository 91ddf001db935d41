import ModemLink.Metrics.Recorder
import ModemLink.Proofs.ExportedSums
import ModemLink.Proofs.MeanLatency

/-!
# Two stores of the same measurements

A recorder enters every measurement into the books in memory and into the exposition.  The books
have one counter for what the exposition splits up by labels, and a row of a table for what it keeps
as a histogram, so the two can only be compared by sums.  Whatever library of collectors is behind
the exposition, as long as it adds up exactly and latencies add up to durations, the sums agree.

* `Counters.Keeps` -- a counter goes along with what is entered under a name and some labels;
* `Keeps.toNat_foldl` -- so it shows that much;
* `Recorder.exists_recordAll` -- all measurements get to both stores;
* `StoresAgree` -- the two stores say the same;
* `Recorder.stores_agree` -- after any measurements they do.
-/

namespace ModemLink

/-! ## Counters and entries -/

namespace Counters

variable {name : String} {wanted : List (String × String)}

/-- A counter goes up by what a measurement enters under a name and some labels. -/
def Keeps (get : Counters → UInt64) (name : String) (wanted : List (String × String)) : Prop :=
  ∀ counters m,
    get (counters.count m) = get counters + UInt64.ofNat (sumWhere name (wanted ⊆ ·) m.entries)

/-- A measurement adds to each counter what it enters under the name, and among others the labels,
that the counter goes along with. -/
theorem count_eq (counters : Counters) (m : Measurement) :
    counters.count m =
      { submitted := counters.submitted +
          UInt64.ofNat (sumWhere "ril_requests_submitted_total" ([] ⊆ ·) m.entries)
        success := counters.success + UInt64.ofNat (sumWhere "ril_requests_completed_total"
          ([("outcome", Outcome.success.name)] ⊆ ·) m.entries)
        rejected := counters.rejected + UInt64.ofNat (sumWhere "ril_requests_completed_total"
          ([("outcome", Outcome.rejected.name)] ⊆ ·) m.entries)
        unavailable := counters.unavailable + UInt64.ofNat (sumWhere "ril_requests_completed_total"
          ([("outcome", Outcome.unavailable.name)] ⊆ ·) m.entries)
        timedOut := counters.timedOut + UInt64.ofNat (sumWhere "ril_requests_completed_total"
          ([("outcome", Outcome.timedOut.name)] ⊆ ·) m.entries)
        violations := counters.violations +
          UInt64.ofNat (sumWhere "ril_protocol_violations_total" ([] ⊆ ·) m.entries)
        acksReceived := counters.acksReceived +
          UInt64.ofNat (sumWhere "ril_acks_received_total" ([] ⊆ ·) m.entries)
        localAcks := counters.localAcks +
          UInt64.ofNat (sumWhere "ril_local_acks_sent_total" ([] ⊆ ·) m.entries)
        indications := counters.indications +
          UInt64.ofNat (sumWhere "ril_indications_total" ([] ⊆ ·) m.entries)
        wakelockTimeouts := counters.wakelockTimeouts +
          UInt64.ofNat (sumWhere "ril_wakelock_timeouts_total" ([] ⊆ ·) m.entries)
        deaths := counters.deaths +
          UInt64.ofNat (sumWhere "ril_endpoint_deaths_total" ([] ⊆ ·) m.entries)
        drained := counters.drained +
          UInt64.ofNat (sumWhere "ril_drained_requests_total" ([] ⊆ ·) m.entries)
        binds := counters.binds + UInt64.ofNat (sumWhere "ril_bind_attempts_total"
          ([("result", "success")] ⊆ ·) m.entries)
        bindFailures := counters.bindFailures + UInt64.ofNat (sumWhere "ril_bind_attempts_total"
          ([("result", "failed")] ⊆ ·) m.entries) } := by
  cases m with
  | completed kind outcome latency =>
      cases outcome <;> simp [count, addOutcome, sumWhere, Measurement.entries, Outcome.name]
  | bind success =>
      cases success <;> simp [count, sumWhere, Measurement.entries, Exposition.bindResult]
  | _ => simp [count, sumWhere, Measurement.entries]

theorem keeps_ofOutcome (outcome : Outcome) :
    Keeps (·.ofOutcome outcome) "ril_requests_completed_total" [("outcome", outcome.name)] := by
  intro counters m
  rw [count_eq]
  cases outcome <;> rfl

variable {get : Counters → UInt64}

theorem Keeps.foldl (h : Keeps get name wanted) (hfresh : get {} = 0) (ms : List Measurement) :
    get (ms.foldl count {}) = UInt64.ofNat (entered name wanted ms) := by
  induction ms using List.reverseRecOn with
  | nil => exact hfresh
  | append_singleton ms m ih =>
      rw [List.foldl_append, List.foldl_cons, List.foldl_nil, h, ih, entered_append,
        UInt64.ofNat_add]

/-- As long as nothing gets to 2^53 under any labels, a counter of 64 bits does not start over. -/
theorem Keeps.toNat_foldl (h : Keeps get name wanted) (hfresh : get {} = 0)
    {ms : List Measurement} (hexact : Exact ms) :
    (get (ms.foldl count {})).toNat = entered name wanted ms := by
  rw [h.foldl hfresh, UInt64.toNat_ofNat_of_lt' (entered_lt hexact)]

end Counters

/-! ## Latencies and completions -/

/-- The kind and the latency of a completion. -/
def Measurement.timed? : Measurement → Option (RequestKind × Duration)
  | .completed kind _ latency => some (kind, latency)
  | _ => none

/-- How many subscribers an indication of a kind is delivered to. -/
def Measurement.heard (kind : IndicationKind) : Measurement → Nat
  | .indication other subscribers => if other = kind then subscribers else 0
  | _ => 0

/-- Every completion of a kind has a latency. -/
theorem entered_latencies (kind : RequestKind) (ms : List Measurement) :
    entered "ril_request_latency_seconds" [("kind", kind.name)] ms =
      (latenciesOf kind (ms.filterMap Measurement.timed?)).length := by
  induction ms with
  | nil => rfl
  | cons m rest ih =>
      rw [entered_eq_sum, List.map_cons, List.sum_cons, ← entered_eq_sum, ih]
      cases m with
      | completed other outcome latency =>
          have hname : kind.name = other.name ↔ other = kind :=
            RequestKind.name_injective.eq_iff.trans eq_comm
          by_cases hkind : other = kind <;>
            simp [hname, hkind, sumWhere, Measurement.entries, Measurement.timed?, latenciesOf,
              Nat.add_comm]
      | _ => simp [sumWhere, Measurement.entries, Measurement.timed?, List.filterMap_cons]

/-- Every completion of a kind has one outcome. -/
theorem entered_completions (kind : RequestKind) (ms : List Measurement) :
    entered "ril_requests_completed_total" [("kind", kind.name)] ms =
      entered "ril_request_latency_seconds" [("kind", kind.name)] ms := by
  rw [entered_eq_sum, entered_eq_sum]
  refine congrArg List.sum (List.map_congr_left fun m _ => ?_)
  cases m <;> simp [sumWhere, Measurement.entries]

/-- The deliveries are those to the subscribers that were passed. -/
theorem entered_deliveries (kind : IndicationKind) (ms : List Measurement) :
    entered "ril_indication_deliveries_total" [("kind", kind.name)] ms =
      (ms.map (Measurement.heard kind)).sum := by
  rw [entered_eq_sum]
  refine congrArg List.sum (List.map_congr_left fun m _ => ?_)
  cases m <;> simp [sumWhere, Measurement.entries, Measurement.heard,
    IndicationKind.name_injective.eq_iff, eq_comm]

/-! ## Recording -/

theorem LatencyTable.Shows.exists_record {table : LatencyTable}
    {times : List (RequestKind × Duration)} (h : table.Shows times) (kind : RequestKind)
    (latency : Duration)
    (hfits : ((latenciesOf kind times).map (·.nanos)).sum + latency.nanos ≤ Duration.maxNanos) :
    ∃ after, LatencyTable.record kind latency table = .ok () after ∧
      after.Shows ((kind, latency) :: times) := by
  rw [← (h kind).total] at hfits
  obtain ⟨stats, hstats⟩ := Latency.exists_record hfits
  have hrecord : LatencyTable.record kind latency table = .ok () ⟨set kind stats table.rows⟩ := by
    rw [row] at hstats
    simp only [LatencyTable.record, hstats]
  exact ⟨_, hrecord, (Clocked.wp_of_ok hrecord).mp (h.record kind latency)⟩

theorem latenciesOf_reverse (kind : RequestKind) (times : List (RequestKind × Duration)) :
    latenciesOf kind times.reverse = (latenciesOf kind times).reverse := by
  rw [latenciesOf, List.filter_reverse, List.map_reverse, latenciesOf]

/-- A measurement is entered as long as the latencies of each kind add up to a duration. -/
theorem Metrics.exists_record (metrics : Metrics) {ms : List Measurement}
    (h : metrics.latency.Shows (ms.filterMap Measurement.timed?).reverse) {m : Measurement}
    (hfits : ∀ kind, ((latenciesOf kind ((ms ++ [m]).filterMap Measurement.timed?)).map
      (·.nanos)).sum ≤ Duration.maxNanos) :
    ∃ table, Metrics.record m metrics = .ok () ⟨metrics.counters.count m, table⟩ ∧
      table.Shows ((ms ++ [m]).filterMap Measurement.timed?).reverse := by
  rw [List.filterMap_append, List.reverse_append]
  cases m with
  | completed kind outcome latency =>
      have hsum := hfits kind
      obtain ⟨table, htable, hshows⟩ := h.exists_record kind latency (by
        simpa [latenciesOf_reverse, latenciesOf, Measurement.timed?] using hsum)
      refine ⟨table, ?_, hshows⟩
      simp only [Metrics.record, htable]
  | _ => exact ⟨metrics.latency, rfl, h⟩

namespace Recorder

variable {lib : Collectors}

/-- Enters measurements into the books in memory and an exposition, one after the other. -/
def recordAll (ms : List Measurement) : Clocked (Recorder (Exposition lib)) Unit :=
  ms.forM (recordBoth fun m x => .ok () (x.record m))

theorem recordAll_append (ms : List Measurement) (m : Measurement) :
    (recordAll (ms ++ [m]) : Clocked (Recorder (Exposition lib)) Unit) =
      (do recordAll ms; recordBoth (fun m x => .ok () (x.record m)) m) := by
  simp [recordAll]

theorem recordBoth_exposition {m : Measurement} {books after : Metrics}
    (h : Metrics.record m books = .ok () after) (x : Exposition lib) :
    recordBoth (fun m x => .ok () (x.record m)) m ⟨books, x⟩ = .ok () ⟨after, x.record m⟩ := by
  unfold recordBoth Clocked.within
  simp only [bind, EStateM.bind, h]

/-- All measurements get to both stores. -/
theorem exists_recordAll (lib : Collectors) (ms : List Measurement)
    (hfits : ∀ kind, ((latenciesOf kind (ms.filterMap Measurement.timed?)).map (·.nanos)).sum ≤
      Duration.maxNanos) :
    ∃ table, recordAll ms ⟨{}, {}⟩ =
        .ok () ⟨⟨ms.foldl Counters.count {}, table⟩, Exposition.ofMeasurements lib ms⟩ ∧
      table.Shows (ms.filterMap Measurement.timed?).reverse := by
  induction ms using List.reverseRecOn with
  | nil => exact ⟨.empty, rfl, fun _ => Latency.shows_none⟩
  | append_singleton ms m ih =>
      obtain ⟨table, htable, hshows⟩ := ih fun kind => by
        have hsum := hfits kind
        rw [List.filterMap_append, latenciesOf, List.filter_append, List.map_append,
          List.map_append, List.sum_append] at hsum
        exact Nat.le_trans (Nat.le_add_right _ _) hsum
      obtain ⟨after, hafter, hshows⟩ := Metrics.exists_record ⟨_, table⟩ hshows hfits
      refine ⟨after, ?_, hshows⟩
      rw [recordAll_append, Clocked.bind_of_ok htable, recordBoth_exposition hafter,
        Exposition.ofMeasurements_append, List.foldl_append]
      rfl

end Recorder

/-! ## The two stores -/

/-- The books in memory and an exposition say the same: what the exposition splits up, added up
again, is what the books have. -/
structure StoresAgree {lib : Collectors} (books : Metrics) (x : Exposition lib) : Prop where
  outcomes : ∀ outcome, x.exported "ril_requests_completed_total" [("outcome", outcome.name)] =
    (books.counters.ofOutcome outcome).toNat
  latencies : ∀ kind, x.exported "ril_request_latency_seconds" [("kind", kind.name)] =
    (books.latency.row kind).count.toNat
  completions : ∀ kind, x.exported "ril_requests_completed_total" [("kind", kind.name)] =
    (books.latency.row kind).count.toNat
  submitted : x.exported "ril_requests_submitted_total" [] = books.counters.submitted.toNat
  violations : x.exported "ril_protocol_violations_total" [] = books.counters.violations.toNat
  acksReceived : x.exported "ril_acks_received_total" [] = books.counters.acksReceived.toNat
  localAcks : x.exported "ril_local_acks_sent_total" [] = books.counters.localAcks.toNat
  indications : x.exported "ril_indications_total" [] = books.counters.indications.toNat
  wakelockTimeouts : x.exported "ril_wakelock_timeouts_total" [] =
    books.counters.wakelockTimeouts.toNat
  deaths : x.exported "ril_endpoint_deaths_total" [] = books.counters.deaths.toNat
  drained : x.exported "ril_drained_requests_total" [] = books.counters.drained.toNat
  binds : x.exported "ril_bind_attempts_total" [("result", "success")] = books.counters.binds.toNat
  bindFailures : x.exported "ril_bind_attempts_total" [("result", "failed")] =
    books.counters.bindFailures.toNat

namespace Recorder

open Exposition Counters

variable {lib : Collectors} {ms : List Measurement} {name : String}
  {wanted : List (String × String)}

/-- A counter agrees with what is gathered under the name and the labels that it goes along
with. -/
theorem exported_eq_toNat {get : Counters → UInt64} (hlib : lib.Lawful) (hexact : Exact ms)
    (hkeeps : Keeps get name wanted) (hfresh : get {} = 0) :
    (ofMeasurements lib ms).exported name wanted = (get (ms.foldl count {})).toNat := by
  rw [hkeeps.toNat_foldl hfresh hexact, exported_eq hlib hexact]

/-- A row of the table of latencies has as many as were observed. -/
theorem toNat_count {table : LatencyTable}
    (htable : table.Shows (ms.filterMap Measurement.timed?).reverse) (hexact : Exact ms)
    (kind : RequestKind) : (table.row kind).count.toNat =
      entered "ril_request_latency_seconds" [("kind", kind.name)] ms := by
  have hlt : entered "ril_request_latency_seconds" [("kind", kind.name)] ms < 2 ^ 64 :=
    entered_lt hexact
  rw [entered_latencies] at hlt ⊢
  rw [(htable kind).count, latenciesOf_reverse, List.length_reverse, UInt64.toNat_ofNat_of_lt' hlt]

/-- Measurements that got to both stores are found in both. -/
theorem storesAgree_ofMeasurements {table : LatencyTable} (hlib : lib.Lawful)
    (htable : table.Shows (ms.filterMap Measurement.timed?).reverse) (hexact : Exact ms) :
    StoresAgree ⟨ms.foldl count {}, table⟩ (ofMeasurements lib ms) where
  outcomes outcome :=
    exported_eq_toNat hlib hexact (keeps_ofOutcome outcome) (by cases outcome <;> rfl)
  latencies kind := by rw [toNat_count htable hexact, exported_eq hlib hexact]
  completions kind := by
    rw [toNat_count htable hexact, exported_eq hlib hexact, entered_completions]
  submitted := exported_eq_toNat hlib hexact (fun _ _ => by rw [count_eq]) rfl
  violations := exported_eq_toNat hlib hexact (fun _ _ => by rw [count_eq]) rfl
  acksReceived := exported_eq_toNat hlib hexact (fun _ _ => by rw [count_eq]) rfl
  localAcks := exported_eq_toNat hlib hexact (fun _ _ => by rw [count_eq]) rfl
  indications := exported_eq_toNat hlib hexact (fun _ _ => by rw [count_eq]) rfl
  wakelockTimeouts := exported_eq_toNat hlib hexact (fun _ _ => by rw [count_eq]) rfl
  deaths := exported_eq_toNat hlib hexact (fun _ _ => by rw [count_eq]) rfl
  drained := exported_eq_toNat hlib hexact (fun _ _ => by rw [count_eq]) rfl
  binds := exported_eq_toNat hlib hexact (fun _ _ => by rw [count_eq]) rfl
  bindFailures := exported_eq_toNat hlib hexact (fun _ _ => by rw [count_eq]) rfl

/-- **The books in memory and the exposition agree**, whatever library of collectors the exposition
is kept in.  As long as nothing gets to 2^53 under any name and labels and the latencies of each
kind add up to a duration, every measurement gets to both stores, and they say the same of it: the
completions of each outcome and of each kind, the latencies, and all else that the books count.  The
deliveries, which the books leave out, are those to the subscribers of all indications of a kind. -/
theorem stores_agree {lib : Collectors} (hlib : lib.Lawful) (ms : List Measurement)
    (hexact : Exact ms)
    (hdurations : ∀ kind, ((latenciesOf kind (ms.filterMap Measurement.timed?)).map (·.nanos)).sum ≤
      Duration.maxNanos) :
    ∃ (books : Metrics) (x : Exposition lib), recordAll ms ⟨{}, {}⟩ = .ok () ⟨books, x⟩ ∧
      StoresAgree books x ∧
      ∀ kind, x.exported "ril_indication_deliveries_total" [("kind", kind.name)] =
        (ms.map (Measurement.heard kind)).sum := by
  obtain ⟨table, htable, hshows⟩ := exists_recordAll lib ms hdurations
  refine ⟨_, _, htable, storesAgree_ofMeasurements hlib hshows hexact, fun kind => ?_⟩
  rw [exported_eq hlib hexact, entered_deliveries]

/-- So they do, with tallies in memory behind the exposition, after a call that took ten
milliseconds and one that took too long, a message for two subscribers, and a death that ended three
requests. -/
theorem stores_agree_after_death :
    ∃ (books : Metrics) (x : Exposition .tallies),
      recordAll [.submitted .dial, .completed .dial .success ⟨10000000, by decide⟩,
          .completed .dial .timedOut ⟨30000000, by decide⟩, .indication .newSms 2, .death 3,
          .bind false] ⟨{}, {}⟩ = .ok () ⟨books, x⟩ ∧
        StoresAgree books x ∧
        x.exported "ril_indication_deliveries_total"
          [("kind", IndicationKind.newSms.name)] = 2 := by
  obtain ⟨books, x, hrecord, hagree, hdeliveries⟩ := stores_agree Collectors.lawful_tallies
    [.submitted .dial, .completed .dial .success ⟨10000000, by decide⟩,
      .completed .dial .timedOut ⟨30000000, by decide⟩, .indication .newSms 2, .death 3,
          .bind false]
    (fun name labels => Nat.lt_of_le_of_lt (sumWhere_le_amounts _) (by decide))
    (fun kind => by cases kind <;> decide)
  exact ⟨books, x, hrecord, hagree, hdeliveries .newSms⟩

end Recorder

end ModemLink
