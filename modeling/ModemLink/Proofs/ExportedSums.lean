import Mathlib.Algebra.Order.BigOperators.Group.Finset
import ModemLink.Proofs.Collecting

/-!
# Sums of exported samples

Every measurement is an entry or two in the collectors of an exposition: so much under the name of a
family and some labels.  As long as nothing gets to 2^53 under any labels, a library of collectors
adds the entries up exactly, and what is gathered under a name and some of the labels is the sum of
the entries that have them.

* `Measurement.entries` -- what a measurement adds, and where;
* `Exposition.record_eq` -- the collectors receive the entries;
* `Exposition.Entered` -- what the collectors hold after some measurements;
* `Exposition.exported` -- what is gathered under a name and some labels;
* `Exposition.exported_eq` -- it is what was entered there;
* `entered_lt` -- which is far below 2^64.
-/

namespace ModemLink

/-! ## Names -/

theorem RequestKind.name_injective : Function.Injective RequestKind.name := fun a b h =>
  Option.some.inj ((ofName?_name a).symm.trans (h ▸ ofName?_name b))

theorem Outcome.name_injective : Function.Injective Outcome.name := fun a b h =>
  Option.some.inj ((ofName?_name a).symm.trans (h ▸ ofName?_name b))

theorem IndicationKind.name_injective : Function.Injective IndicationKind.name := fun a b h => by
  have hshort : a.shortName = b.shortName := (String.append_right_inj "UNSOL_").mp h
  exact Option.some.inj ((ofShortName?_shortName a).symm.trans (hshort ▸ ofShortName?_shortName b))

/-! ## Entries -/

/-- So much is added under the name of a family and some labels. -/
structure Entry where
  family : String
  labels : List (String × String)
  amount : Nat

/-- What a measurement adds, and where. -/
def Measurement.entries : Measurement → List Entry
  | .submitted kind => [⟨"ril_requests_submitted_total", [("kind", kind.name)], 1⟩]
  | .completed kind outcome _ =>
    [ ⟨"ril_requests_completed_total", [("kind", kind.name), ("outcome", outcome.name)], 1⟩,
      ⟨"ril_request_latency_seconds", [("kind", kind.name)], 1⟩ ]
  | .violation => [⟨"ril_protocol_violations_total", [], 1⟩]
  | .ackReceived => [⟨"ril_acks_received_total", [], 1⟩]
  | .localAck => [⟨"ril_local_acks_sent_total", [], 1⟩]
  | .indication kind subscribers =>
    [ ⟨"ril_indications_total", [("kind", kind.name)], 1⟩,
      ⟨"ril_indication_deliveries_total", [("kind", kind.name)], subscribers⟩ ]
  | .wakelockTimeout guard => [⟨"ril_wakelock_timeouts_total", [("guard", guard.name)], 1⟩]
  | .death drained =>
    [⟨"ril_endpoint_deaths_total", [], 1⟩, ⟨"ril_drained_requests_total", [], drained⟩]
  | .bind success =>
    [⟨"ril_bind_attempts_total", [("result", Exposition.bindResult success)], 1⟩]

/-- The entries of some measurements. -/
def entriesOf (ms : List Measurement) : List Entry := ms.flatMap Measurement.entries

/-- What some entries add under a name, as far as their labels are of a sort. -/
def sumWhere (name : String) (p : List (String × String) → Prop) [DecidablePred p]
    (entries : List Entry) : Nat :=
  (entries.map fun entry => if entry.family = name ∧ p entry.labels then entry.amount else 0).sum

/-- What measurements enter under a name and, among others, some labels. -/
def entered (name : String) (wanted : List (String × String)) (ms : List Measurement) : Nat :=
  sumWhere name (wanted ⊆ ·) (entriesOf ms)

/-- Nothing gets to 2^53 under any name and labels. -/
def Exact (ms : List Measurement) : Prop :=
  ∀ name labels, sumWhere name (· = labels) (entriesOf ms) < 9007199254740992

section Entries

variable {name : String} {wanted : List (String × String)}

theorem sumWhere_append (p : List (String × String) → Prop) [DecidablePred p]
    (first second : List Entry) :
    sumWhere name p (first ++ second) = sumWhere name p first + sumWhere name p second := by
  simp [sumWhere]

/-- Entries add up to no more under a name than all of them together. -/
theorem sumWhere_le_amounts (p : List (String × String) → Prop) [DecidablePred p]
    {entries : List Entry} : sumWhere name p entries ≤ (entries.map (·.amount)).sum := by
  refine List.sum_le_sum fun entry _ => ?_
  split
  · exact Nat.le_refl _
  · exact Nat.zero_le _

theorem entriesOf_append (ms : List Measurement) (m : Measurement) :
    entriesOf (ms ++ [m]) = entriesOf ms ++ m.entries := by
  simp [entriesOf]

theorem entered_append (ms : List Measurement) (m : Measurement) :
    entered name wanted (ms ++ [m]) =
      entered name wanted ms + sumWhere name (wanted ⊆ ·) m.entries := by
  rw [entered, entriesOf_append, sumWhere_append, entered]

/-- What is entered is added up measurement by measurement. -/
theorem entered_eq_sum (name : String) (wanted : List (String × String)) (ms : List Measurement) :
    entered name wanted ms = (ms.map fun m => sumWhere name (wanted ⊆ ·) m.entries).sum := by
  induction ms with
  | nil => rfl
  | cons m rest ih =>
      rw [List.map_cons, List.sum_cons, ← ih, entered, entered, entriesOf, List.flatMap_cons,
        sumWhere_append, entriesOf]

/-- The lists of labels under which something may be entered. -/
def places : List (List (String × String)) :=
  [] :: (RequestKind.all.map fun kind => [("kind", kind.name)]) ++
    (RequestKind.all.flatMap fun kind =>
      Outcome.all.map fun outcome => [("kind", kind.name), ("outcome", outcome.name)]) ++
    (IndicationKind.all.map fun kind => [("kind", kind.name)]) ++
    (Guard.all.map fun guard => [("guard", guard.name)]) ++
    [[("result", "success")], [("result", "failed")]]

theorem labels_mem_places {m : Measurement} {entry : Entry} (h : entry ∈ m.entries) :
    entry.labels ∈ places := by
  have houtcome (outcome : Outcome) : outcome ∈ Outcome.all := by cases outcome <;> decide
  have hguard (guard : Guard) : guard ∈ Guard.all := by cases guard <;> decide
  cases m with
  | bind success =>
      cases success <;> simp_all [Measurement.entries, places, Exposition.bindResult]
  | _ =>
      simp only [Measurement.entries, List.mem_cons, List.not_mem_nil, or_false] at h
      rcases h with rfl | rfl <;>
        simp [places, RequestKind.mem_all, IndicationKind.mem_all, houtcome, hguard]

/-- Entries add up to no more under a name than under the name and each list of labels there may
be. -/
theorem sumWhere_le {labels : Finset (List (String × String))} (p : List (String × String) → Prop)
    [DecidablePred p] {entries : List Entry} (h : ∀ entry ∈ entries, entry.labels ∈ labels) :
    sumWhere name p entries ≤ ∑ some ∈ labels, sumWhere name (· = some) entries := by
  induction entries with
  | nil => simp [sumWhere]
  | cons entry rest ih =>
      have hcons (q : List (String × String) → Prop) [DecidablePred q] :
          sumWhere name q (entry :: rest) =
            (if entry.family = name ∧ q entry.labels then entry.amount else 0) +
              sumWhere name q rest := rfl
      simp only [hcons, Finset.sum_add_distrib]
      refine Nat.add_le_add ?_ (ih fun other hother => h other (List.mem_cons_of_mem _ hother))
      have hlabels : entry.labels ∈ labels := h entry (List.mem_cons_self ..)
      by_cases hname : entry.family = name <;> by_cases hp : p entry.labels <;>
        simp [hname, hp, hlabels]

theorem length_places : places.length ≤ 2047 := by
  simp only [places, List.length_append, List.length_cons, List.length_map, List.length_flatMap,
    List.map_const', List.sum_replicate]
  decide

/-- As long as nothing gets to 2^53 under any labels, all that is entered under a name is below
2^64. -/
theorem entered_lt {ms : List Measurement} (hexact : Exact ms) :
    entered name wanted ms < 2 ^ 64 := by
  have hplaces : ∀ entry ∈ entriesOf ms, entry.labels ∈ places.toFinset := fun entry hentry => by
    obtain ⟨m, -, hentry⟩ := List.mem_flatMap.mp hentry
    exact List.mem_toFinset.mpr (labels_mem_places hentry)
  calc entered name wanted ms
      ≤ ∑ labels ∈ places.toFinset, sumWhere name (· = labels) (entriesOf ms) :=
        sumWhere_le _ hplaces
    _ ≤ places.toFinset.card * 9007199254740992 :=
        Finset.sum_le_card_nsmul _ _ _ fun labels _ => Nat.le_of_lt (hexact name labels)
    _ ≤ 2047 * 9007199254740992 :=
        Nat.mul_le_mul_right _ ((List.toFinset_card_le _).trans length_places)
    _ < 2 ^ 64 := by decide

end Entries

/-! ## What the collectors hold -/

/-- The increments that some entries are for the collector of a name. -/
def increments (name : String) (entries : List Entry) : List (List String × Nat) :=
  (entries.filter fun entry => entry.family = name).map fun entry =>
    (entry.labels.map (·.2), entry.amount)

theorem increments_append (name : String) (first second : List Entry) :
    increments name (first ++ second) = increments name first ++ increments name second := by
  simp [increments]

/-- The latency of a completion, for the histogram of its kind. -/
def Measurement.observed? : Measurement → Option (List String × Binary64)
  | .completed kind _ latency => some ([kind.name], Exposition.seconds latency)
  | _ => none

namespace Exposition

variable {lib : Collectors} {x : Exposition lib} {ms : List Measurement}

/-- Increases a counter with labels several times. -/
def raiseAt (increments : List (List String × Nat)) (c : lib.CounterVec) : lib.CounterVec :=
  increments.foldl (fun c increment => lib.increaseAt increment.1 (.ofNat increment.2) c) c

/-- Increases a counter several times. -/
def raise (increments : List (List String × Nat)) (c : lib.Counter) : lib.Counter :=
  (increments.map (·.2)).foldl (fun c n => lib.increase (.ofNat n) c) c

/-- Observes several values. -/
def observeAll (observations : List (List String × Binary64)) (c : lib.HistogramVec) :
    lib.HistogramVec :=
  observations.foldl (fun c observation => lib.observeAt observation.1 observation.2 c) c

/-- The collectors receive what a measurement enters. -/
theorem record_eq (x : Exposition lib) (m : Measurement) :
    x.record m =
      { submitted := raiseAt (increments "ril_requests_submitted_total" m.entries) x.submitted
        completed := raiseAt (increments "ril_requests_completed_total" m.entries) x.completed
        latency := observeAll m.observed?.toList x.latency
        violations := raise (increments "ril_protocol_violations_total" m.entries) x.violations
        acksReceived := raise (increments "ril_acks_received_total" m.entries) x.acksReceived
        localAcks := raise (increments "ril_local_acks_sent_total" m.entries) x.localAcks
        indications := raiseAt (increments "ril_indications_total" m.entries) x.indications
        deliveries := raiseAt (increments "ril_indication_deliveries_total" m.entries) x.deliveries
        wakelockTimeouts :=
          raiseAt (increments "ril_wakelock_timeouts_total" m.entries) x.wakelockTimeouts
        deaths := raise (increments "ril_endpoint_deaths_total" m.entries) x.deaths
        drained := raise (increments "ril_drained_requests_total" m.entries) x.drained
        binds := raiseAt (increments "ril_bind_attempts_total" m.entries) x.binds } := by
  cases m <;>
    simp [record, increments, Measurement.entries, Measurement.observed?, raise, raiseAt,
        observeAll]

/-- What the collectors hold after some measurements. -/
structure Entered (x : Exposition lib) (ms : List Measurement) : Prop where
  submitted : x.submitted = raiseAt (increments "ril_requests_submitted_total" (entriesOf ms))
    ({} : Exposition lib).submitted
  completed : x.completed = raiseAt (increments "ril_requests_completed_total" (entriesOf ms))
    ({} : Exposition lib).completed
  latency : x.latency = observeAll (ms.filterMap Measurement.observed?)
    ({} : Exposition lib).latency
  violations : x.violations = raise (increments "ril_protocol_violations_total" (entriesOf ms))
    ({} : Exposition lib).violations
  acksReceived : x.acksReceived = raise (increments "ril_acks_received_total" (entriesOf ms))
    ({} : Exposition lib).acksReceived
  localAcks : x.localAcks = raise (increments "ril_local_acks_sent_total" (entriesOf ms))
    ({} : Exposition lib).localAcks
  indications : x.indications = raiseAt (increments "ril_indications_total" (entriesOf ms))
    ({} : Exposition lib).indications
  deliveries : x.deliveries = raiseAt (increments "ril_indication_deliveries_total" (entriesOf ms))
    ({} : Exposition lib).deliveries
  wakelockTimeouts : x.wakelockTimeouts =
    raiseAt (increments "ril_wakelock_timeouts_total" (entriesOf ms))
      ({} : Exposition lib).wakelockTimeouts
  deaths : x.deaths = raise (increments "ril_endpoint_deaths_total" (entriesOf ms))
    ({} : Exposition lib).deaths
  drained : x.drained = raise (increments "ril_drained_requests_total" (entriesOf ms))
    ({} : Exposition lib).drained
  binds : x.binds = raiseAt (increments "ril_bind_attempts_total" (entriesOf ms))
    ({} : Exposition lib).binds

theorem raiseAt_append (first second : List (List String × Nat)) (c : lib.CounterVec) :
    raiseAt (first ++ second) c = raiseAt second (raiseAt first c) := by
  simp [raiseAt]

theorem raise_append (first second : List (List String × Nat)) (c : lib.Counter) :
    raise (first ++ second) c = raise second (raise first c) := by
  simp [raise]

theorem observeAll_append (first second : List (List String × Binary64)) (c : lib.HistogramVec) :
    observeAll (first ++ second) c = observeAll second (observeAll first c) := by
  simp [observeAll]

theorem entered_fresh : Entered ({} : Exposition lib) [] := by
  constructor <;> rfl

theorem Entered.record (h : x.Entered ms) (m : Measurement) : (x.record m).Entered (ms ++ [m]) := by
  have hobserved : (ms ++ [m]).filterMap Measurement.observed? =
      ms.filterMap Measurement.observed? ++ m.observed?.toList := by
    rw [List.filterMap_append, List.filterMap_cons]
    cases m.observed? <;> rfl
  rw [record_eq]
  constructor <;>
    simp only [entriesOf_append, increments_append, raiseAt_append, raise_append, hobserved,
      observeAll_append, h.submitted, h.completed, h.latency, h.violations, h.acksReceived,
      h.localAcks, h.indications, h.deliveries, h.wakelockTimeouts, h.deaths, h.drained, h.binds]

/-- The exposition after some measurements. -/
def ofMeasurements (lib : Collectors) (ms : List Measurement) : Exposition lib :=
  ms.foldl Exposition.record {}

theorem ofMeasurements_append (ms : List Measurement) (m : Measurement) :
    ofMeasurements lib (ms ++ [m]) = (ofMeasurements lib ms).record m := by
  simp [ofMeasurements]

theorem entered_ofMeasurements (lib : Collectors) (ms : List Measurement) :
    (ofMeasurements lib ms).Entered ms := by
  induction ms using List.reverseRecOn with
  | nil => exact entered_fresh
  | append_singleton ms m ih =>
      rw [ofMeasurements_append]
      exact ih.record m

/-! ## What is gathered -/

/-- What is gathered under a name and some labels, added up. -/
def exported (x : Exposition lib) (name : String) (wanted : List (String × String)) : ℚ :=
  ((((x.gathered.filter fun family => family.name = name).flatMap (·.metrics)).filter
    fun metric => wanted ⊆ metric.labels).map (·.sample.number)).sum

/-- A family that is gathered shows what was entered under its name. -/
def Tells (family : Family) (name : String) (ms : List Measurement) : Prop :=
  family.name = name ∧ ∀ wanted, family.total wanted = (entered name wanted ms : ℚ)

variable {name : String} {labels : List String}

/-- The names of the collectors, each with those of its labels. -/
def labelling : List (String × List String) :=
  [ ("ril_requests_submitted_total", ["kind"]),
    ("ril_requests_completed_total", ["kind", "outcome"]),
    ("ril_request_latency_seconds", ["kind"]),
    ("ril_protocol_violations_total", []),
    ("ril_acks_received_total", []),
    ("ril_local_acks_sent_total", []),
    ("ril_indications_total", ["kind"]),
    ("ril_indication_deliveries_total", ["kind"]),
    ("ril_wakelock_timeouts_total", ["guard"]),
    ("ril_endpoint_deaths_total", []),
    ("ril_drained_requests_total", []),
    ("ril_bind_attempts_total", ["result"]) ]

theorem mem_labelling {m : Measurement} {entry : Entry} (h : entry ∈ m.entries) :
    (entry.family, entry.labels.map (·.1)) ∈ labelling := by
  cases m with
  | bind success => simp_all [Measurement.entries, labelling]
  | _ =>
      simp only [Measurement.entries, List.mem_cons, List.not_mem_nil, or_false] at h
      rcases h with rfl | rfl <;> simp [labelling]

/-- Under the name of a collector entries have the labels that it was made with. -/
theorem labels_eq (h : (name, labels) ∈ labelling) {m : Measurement} {entry : Entry}
    (hentry : entry ∈ m.entries) (hname : entry.family = name) :
    entry.labels.map (·.1) = labels := by
  have hunique : ∀ a ∈ labelling, ∀ b ∈ labelling, a.1 = b.1 → a.2 = b.2 := by decide
  exact hunique _ (mem_labelling hentry) _ h hname

/-- Increments come to what was entered. -/
theorem sum_increments (h : (name, labels) ∈ labelling) (p : List (String × String) → Prop)
    [DecidablePred p] (ms : List Measurement) :
    ((increments name (entriesOf ms)).map fun increment =>
        if p (labels.zip increment.1) then increment.2 else 0).sum =
      sumWhere name p (entriesOf ms) := by
  have hlabels : ∀ entry ∈ entriesOf ms, entry.family = name →
      labels.zip (entry.labels.map (·.2)) = entry.labels := fun entry hentry hname => by
    obtain ⟨m, -, hentry⟩ := List.mem_flatMap.mp hentry
    rw [← labels_eq h hentry hname]
    exact (List.zip_of_prod rfl rfl).symm
  generalize entriesOf ms = entries at hlabels
  induction entries with
  | nil => rfl
  | cons entry rest ih =>
      have hrest := ih fun other hother => hlabels other (List.mem_cons_of_mem _ hother)
      by_cases hname : entry.family = name
      · simp only [increments, sumWhere, List.filter_cons, hname, decide_true, if_true,
          List.map_cons, List.sum_cons, hlabels entry (List.mem_cons_self ..) hname,
          true_and] at hrest ⊢
        rw [hrest]
      · simp only [increments, sumWhere, List.filter_cons, hname, decide_false, if_false,
          List.map_cons, List.sum_cons, false_and, Nat.zero_add] at hrest ⊢
        exact hrest

/-- Each increment has as many label values as there are labels. -/
theorem length_of_mem_increments (h : (name, labels) ∈ labelling) (ms : List Measurement) :
    ∀ increment ∈ increments name (entriesOf ms), increment.1.length = labels.length := by
  intro increment hincrement
  obtain ⟨entry, hentry, rfl⟩ := List.mem_map.mp hincrement
  obtain ⟨hentry, hname⟩ := List.mem_filter.mp hentry
  obtain ⟨m, -, hentry⟩ := List.mem_flatMap.mp hentry
  rw [← labels_eq h hentry (of_decide_eq_true hname), List.length_map, List.length_map]

/-- At no label values do the increments get to 2^53. -/
theorem amountAt_lt (h : (name, labels) ∈ labelling) (hexact : Exact ms) (values : List String) :
    amountAt values (increments name (entriesOf ms)) < 9007199254740992 := by
  refine Nat.lt_of_le_of_lt ?_ (hexact name (labels.zip values))
  rw [← sum_increments h]
  refine List.sum_le_sum fun increment _ => ?_
  by_cases hvalues : increment.1 = values
  · rw [if_pos hvalues, if_pos (by rw [hvalues])]
  · rw [if_neg hvalues]
    exact Nat.zero_le _

theorem tells_counterVec (hlib : lib.Lawful) (hexact : Exact ms) (h : (name, labels) ∈ labelling)
    (help : String) : Tells (lib.collectCounterVec
      (raiseAt (increments name (entriesOf ms)) (lib.counterVec name help labels))) name ms := by
  have hshows := hlib.counterVec name help labels _ (length_of_mem_increments h ms)
    (amountAt_lt h hexact)
  refine ⟨hshows.name, fun wanted => ?_⟩
  rw [raiseAt, hshows.total_eq, entered, sum_increments h (wanted ⊆ ·)]

theorem tells_counter (hlib : lib.Lawful) (hexact : Exact ms) (h : (name, []) ∈ labelling)
    (help : String) : Tells (lib.collectCounter
      (raise (increments name (entriesOf ms)) (lib.counter name help))) name ms := by
  have hsum : ((increments name (entriesOf ms)).map (·.2)).sum =
      sumWhere name (· = []) (entriesOf ms) := by
    rw [← sum_increments h]
    simp
  have hlt := hexact name []
  rw [← hsum] at hlt
  rw [raise, hlib.counter name help _ hlt]
  refine ⟨rfl, fun wanted => ?_⟩
  rw [entered, ← sum_increments h (wanted ⊆ ·)]
  by_cases hwanted : wanted = []
  · simp [Family.total, hwanted, Sample.number, Binary64.value_ofNat hlt]
  · simp [Family.total, hwanted, List.subset_nil]

/-- Every completion is observed once. -/
theorem observed_eq_increments (ms : List Measurement) :
    ((ms.filterMap Measurement.observed?).map fun observation => (observation.1, 1)) =
      increments "ril_request_latency_seconds" (entriesOf ms) := by
  induction ms with
  | nil => rfl
  | cons m rest ih =>
      rw [entriesOf, List.flatMap_cons, increments_append, ← entriesOf, ← ih]
      cases m <;>
        simp [List.filterMap_cons, Measurement.observed?, increments, Measurement.entries]

theorem tells_histogramVec (hlib : lib.Lawful) (hexact : Exact ms)
    (h : ("ril_request_latency_seconds", labels) ∈ labelling) (help : String)
        (bounds : List Binary64) :
    Tells (lib.collectHistogramVec (observeAll (ms.filterMap Measurement.observed?)
      (lib.histogramVec "ril_request_latency_seconds" help bounds labels)))
      "ril_request_latency_seconds" ms := by
  have hlength := length_of_mem_increments h ms
  have hlt := amountAt_lt h hexact
  rw [← observed_eq_increments] at hlength hlt
  have hshows := hlib.histogramVec "ril_request_latency_seconds" help bounds labels
    (ms.filterMap Measurement.observed?)
    (fun observation hobservation => hlength _ (List.mem_map_of_mem hobservation)) hlt
  refine ⟨hshows.name, fun wanted => ?_⟩
  rw [observeAll, hshows.total_eq, observed_eq_increments, entered, sum_increments h (wanted ⊆ ·)]

/-- Each family shows what was entered under its name. -/
theorem Entered.tells (h : x.Entered ms) (hlib : lib.Lawful) (hexact : Exact ms) :
    List.Forall₂ (fun family name => Tells family name ms) x.families (labelling.map (·.1)) := by
  simp only [families, labelling, List.map_cons, List.map_nil]
  rw [h.submitted, h.completed, h.latency, h.violations, h.acksReceived, h.localAcks,
    h.indications, h.deliveries, h.wakelockTimeouts, h.deaths, h.drained, h.binds]
  exact .cons (tells_counterVec hlib hexact (by decide) _) <|
    .cons (tells_counterVec hlib hexact (by decide) _) <|
    .cons (tells_histogramVec hlib hexact (by decide) _ _) <|
    .cons (tells_counter hlib hexact (by decide) _) <|
    .cons (tells_counter hlib hexact (by decide) _) <|
    .cons (tells_counter hlib hexact (by decide) _) <|
    .cons (tells_counterVec hlib hexact (by decide) _) <|
    .cons (tells_counterVec hlib hexact (by decide) _) <|
    .cons (tells_counterVec hlib hexact (by decide) _) <|
    .cons (tells_counter hlib hexact (by decide) _) <|
    .cons (tells_counter hlib hexact (by decide) _) <|
    .cons (tells_counterVec hlib hexact (by decide) _) .nil

/-- Nothing is entered under a name that no collector has. -/
theorem entered_eq_zero (h : name ∉ labelling.map (·.1)) (wanted : List (String × String)) :
    entered name wanted ms = 0 := by
  rw [entered, sumWhere, List.sum_eq_zero]
  intro amount hamount
  obtain ⟨entry, hentry, rfl⟩ := List.mem_map.mp hamount
  obtain ⟨m, -, hentry⟩ := List.mem_flatMap.mp hentry
  rw [if_neg]
  rintro ⟨rfl, -⟩
  exact h (List.mem_map_of_mem (f := (·.1)) (mem_labelling hentry))

/-- Families that show what was entered under their names do so together. -/
theorem sum_families {families : List Family} {names : List String}
    (h : List.Forall₂ (fun family name => Tells family name ms) families names)
    (hnames : names.Nodup) (wanted : List (String × String)) :
    ((((families.filter fun family => family.name = name).flatMap (·.metrics)).filter
        fun metric => wanted ⊆ metric.labels).map (·.sample.number)).sum =
      ((if name ∈ names then entered name wanted ms else 0 : Nat) : ℚ) := by
  induction h with
  | nil => simp
  | @cons family first families rest hfamily _ ih =>
      obtain ⟨hfirst, hrest⟩ := List.nodup_cons.mp hnames
      obtain ⟨rfl, htotal⟩ := hfamily
      have hothers := ih hrest
      by_cases hname : family.name = name
      · subst hname
        rw [if_neg hfirst, Nat.cast_zero] at hothers
        rw [List.filter_cons, if_pos (by simp), List.flatMap_cons, List.filter_append,
          List.map_append, List.sum_append, hothers, add_zero, if_pos (List.mem_cons_self ..)]
        exact htotal wanted
      · rw [List.filter_cons, if_neg (by simpa using hname), hothers]
        simp [Ne.symm hname]

/-- **What is gathered is what was entered**, by any library of collectors that keeps the laws, as
long as nothing gets to 2^53. -/
theorem exported_eq (hlib : lib.Lawful) (hexact : Exact ms) (name : String)
    (wanted : List (String × String)) :
    (ofMeasurements lib ms).exported name wanted = (entered name wanted ms : ℚ) := by
  have htells := (entered_ofMeasurements lib ms).tells hlib hexact
  have hnames : (labelling.map (·.1)).Nodup := by decide
  have hfamilies : (ofMeasurements lib ms).families.map (·.name) = labelling.map (·.1) := by
    generalize (ofMeasurements lib ms).families = families at htells
    generalize labelling.map (·.1) = names at htells
    induction htells with
    | nil => rfl
    | cons hfamily _ ih => rw [List.map_cons, ih, hfamily.1]
  have hgather := hlib.gather _ (hfamilies ▸ hnames) name
  rw [exported, gathered, ((hgather.filter _).map _).sum_eq, sum_families htells hnames]
  by_cases hname : name ∈ labelling.map (·.1)
  · rw [if_pos hname]
  · rw [if_neg hname, entered_eq_zero hname]

end Exposition

end ModemLink
