import Mathlib.Algebra.BigOperators.Group.List.Basic
import Mathlib.Algebra.BigOperators.Ring.Finset
import Mathlib.Data.List.Dedup
import Mathlib.Data.List.Induction
import ModemLink.Metrics.Tallies
import ModemLink.Proofs.WholeDoubles

/-!
# What a library of collectors is relied on for

A monitoring library is known by its documentation: it adds up increments exactly as long as they
stay below 2^53, keeps one number for each list of label values, counts what a histogram observes,
and its registry hands out what was collected, in an order of its own.  These are the laws of a
library, and the tallies in memory obey them.

* `Family.Shows` -- a family has the sums of some increments, one for each list of label values;
* `Collectors.Lawful` -- the laws of a library;
* `Family.Shows.total_eq` -- the metrics with some labels show all that was added there;
* `Collectors.lawful_tallies` -- tallies in memory obey the laws.
-/

namespace ModemLink

/-! ## Increments and families -/

section Amounts

variable {κ : Type} [DecidableEq κ] {key : κ} {increments : List (κ × Nat)}

/-- What increments come to at a key, such as a list of label values. -/
def amountAt (key : κ) (increments : List (κ × Nat)) : Nat :=
  (increments.map fun increment => if increment.1 = key then increment.2 else 0).sum

theorem amountAt_append (key : κ) (first second : List (κ × Nat)) :
    amountAt key (first ++ second) = amountAt key first + amountAt key second := by
  simp [amountAt]

/-- Nothing comes of a key that was never used. -/
theorem amountAt_eq_zero (h : key ∉ increments.map (·.1)) : amountAt key increments = 0 := by
  rw [amountAt, List.sum_eq_zero]
  intro amount hamount
  obtain ⟨increment, hincrement, rfl⟩ := List.mem_map.mp hamount
  rw [if_neg]
  rintro rfl
  exact h (List.mem_map_of_mem hincrement)

/-- Among different keys one has the number of a key, if it is there. -/
theorem sum_map_ite_eq_of_nodup {keys : List κ} (h : keys.Nodup) (key : κ) (n : Nat) :
    (keys.map fun other => if key = other then n else 0).sum = if key ∈ keys then n else 0 := by
  induction keys with
  | nil => rfl
  | cons first rest ih =>
      obtain ⟨hfirst, hrest⟩ := List.nodup_cons.mp h
      rw [List.map_cons, List.sum_cons, ih hrest]
      by_cases hkey : key = first
      · subst hkey
        simp [hfirst]
      · simp [hkey]

/-- What increments come to at some keys together. -/
theorem sum_amountAt {keys : List κ} (hkeys : keys.Nodup) (increments : List (κ × Nat)) :
    (keys.map fun key => amountAt key increments).sum =
      (increments.map fun increment => if increment.1 ∈ keys then increment.2 else 0).sum := by
  induction increments with
  | nil => simp [amountAt]
  | cons increment rest ih =>
      have hcons (key : κ) : amountAt key (increment :: rest) =
          (if increment.1 = key then increment.2 else 0) + amountAt key rest := rfl
      simp only [hcons, List.sum_map_add, sum_map_ite_eq_of_nodup hkeys, ih, List.map_cons,
        List.sum_cons]

end Amounts

/-- The number that a sample shows: the value of a counter, or how many values a histogram has
observed. -/
def Sample.number : Sample → ℚ
  | .counter value => value.value
  | .histogram _ _ count => count

namespace Family

/-- A family has one metric for each list of label values, which shows what was added there. -/
structure Shows (family : Family) (name : String) (labels : List String)
    (increments : List (List String × Nat)) : Prop where
  name : family.name = name
  metrics : (family.metrics.map fun metric => (metric.labels, metric.sample.number)).Perm
    ((increments.map (·.1)).dedup.map fun values =>
      (labels.zip values, (amountAt values increments : ℚ)))

/-- The metrics of a family that have some labels, added up. -/
def total (family : Family) (wanted : List (String × String)) : ℚ :=
  ((family.metrics.filter fun metric => wanted ⊆ metric.labels).map (·.sample.number)).sum

end Family

/-! ## The laws -/

/-- What a library of collectors is relied on for. -/
structure Collectors.Lawful (lib : Collectors) : Prop where
  /-- A counter is there from the beginning and adds up its increments exactly. -/
  counter : ∀ (name help : String) (amounts : List Nat), amounts.sum < 9007199254740992 →
    lib.collectCounter
        (amounts.foldl (fun c n => lib.increase (.ofNat n) c) (lib.counter name help)) =
      ⟨name, help, [⟨[], .counter (.ofNat amounts.sum)⟩]⟩
  /-- A counter with labels adds up exactly what it is increased by at each list of values. -/
  counterVec : ∀ (name help : String) (labels : List String)
    (increments : List (List String × Nat)),
    (∀ increment ∈ increments, increment.1.length = labels.length) →
    (∀ values, amountAt values increments < 9007199254740992) →
    (lib.collectCounterVec (increments.foldl
        (fun c increment => lib.increaseAt increment.1 (.ofNat increment.2) c)
        (lib.counterVec name help labels))).Shows name labels increments
  /-- A histogram with labels counts what it observes at each list of values. -/
  histogramVec : ∀ (name help : String) (bounds : List Binary64) (labels : List String)
    (observations : List (List String × Binary64)),
    (∀ observation ∈ observations, observation.1.length = labels.length) →
    (∀ values, amountAt values (observations.map fun observation => (observation.1, 1)) <
      9007199254740992) →
    (lib.collectHistogramVec (observations.foldl
        (fun c observation => lib.observeAt observation.1 observation.2 c)
        (lib.histogramVec name help bounds labels))).Shows name labels
      (observations.map fun observation => (observation.1, 1))
  /-- A registry hands out the metrics of families with different names, none added or lost. -/
  gather : ∀ (families : List Family), (families.map (·.name)).Nodup → ∀ name,
    (((lib.gather families).filter fun family => family.name = name).flatMap (·.metrics)).Perm
      ((families.filter fun family => family.name = name).flatMap (·.metrics))

/-! ## Sums over label values -/

namespace Family

variable {family : Family} {name : String} {labels : List String}
  {increments : List (List String × Nat)}

/-- The metrics that have some labels show all that was added under these labels. -/
theorem Shows.total_eq (h : family.Shows name labels increments) (wanted : List (String × String)) :
    family.total wanted = ((increments.map fun increment =>
      if wanted ⊆ labels.zip increment.1 then increment.2 else 0).sum : Nat) := by
  have htotal : family.total wanted =
      (((family.metrics.map fun metric => (metric.labels, metric.sample.number)).filter
        fun row => wanted ⊆ row.1).map (·.2)).sum := by
    rw [total, List.filter_map, List.map_map]
    rfl
  have hsum := sum_amountAt
    ((List.nodup_dedup (increments.map (·.1))).filter fun values => wanted ⊆ labels.zip values)
    increments
  rw [htotal, ((h.metrics.filter _).map _).sum_eq, List.filter_map, List.map_map]
  calc _ = (((((increments.map (·.1)).dedup.filter fun values =>
          wanted ⊆ labels.zip values).map fun values =>
              amountAt values increments).sum : Nat) : ℚ) := by
        rw [Nat.cast_list_sum, List.map_map]
        rfl
    _ = _ := by
        rw [hsum]
        refine congrArg (fun amounts : List Nat => (amounts.sum : ℚ)) ?_
        refine List.map_congr_left fun increment hincrement => ?_
        have hmem : increment.1 ∈ (increments.map (·.1)).dedup :=
          List.mem_dedup.mpr (List.mem_map_of_mem hincrement)
        simp [hmem]

end Family

/-! ## Rows with keys -/

section Rows

variable {κ β : Type} [DecidableEq κ]

/-- Changes the row of a key; a new row stands at the end. -/
def upsert (key : κ) (change : Option β → β) : List (κ × β) → List (κ × β)
  | [] => [(key, change none)]
  | (first, value) :: rest =>
    if first = key then (first, change (some value)) :: rest
    else (first, value) :: upsert key change rest

variable {rows : List (κ × β)} {key : κ} {change : Option β → β}

theorem lookup_upsert_self :
    (upsert key change rows).lookup key = some (change (rows.lookup key)) := by
  induction rows with
  | nil => simp [upsert]
  | cons row rest ih =>
      obtain ⟨first, value⟩ := row
      unfold upsert
      split
      · rename_i hfirst
        simp [hfirst]
      · rename_i hfirst
        simp only [List.lookup_cons, beq_eq_false_iff_ne.mpr (Ne.symm hfirst), ih]

theorem lookup_upsert_of_ne {other : κ} (hother : other ≠ key) :
    (upsert key change rows).lookup other = rows.lookup other := by
  induction rows with
  | nil => simp [upsert, List.lookup_cons, beq_eq_false_iff_ne.mpr hother]
  | cons row rest ih =>
      obtain ⟨first, value⟩ := row
      unfold upsert
      split
      · rename_i hfirst
        simp [List.lookup_cons, hfirst, beq_eq_false_iff_ne.mpr hother]
      · simp only [List.lookup_cons, ih]

theorem mem_keys_upsert {other : κ} :
    other ∈ (upsert key change rows).map (·.1) ↔ other = key ∨ other ∈ rows.map (·.1) := by
  induction rows with
  | nil => simp [upsert]
  | cons row rest ih =>
      obtain ⟨first, value⟩ := row
      unfold upsert
      split
      · rename_i hfirst
        subst hfirst
        simp
      · simp only [List.map_cons, List.mem_cons, ih]
        exact or_left_comm

/-- A key keeps its one row. -/
theorem nodup_keys_upsert (hrows : (rows.map (·.1)).Nodup) :
    ((upsert key change rows).map (·.1)).Nodup := by
  induction rows with
  | nil => simp [upsert]
  | cons row rest ih =>
      obtain ⟨first, value⟩ := row
      obtain ⟨hfirst, hrest⟩ := List.nodup_cons.mp hrows
      unfold upsert
      split
      · exact List.nodup_cons.mpr ⟨hfirst, hrest⟩
      · rename_i hne
        refine List.nodup_cons.mpr ⟨fun hmem => ?_, ih hrest⟩
        rcases mem_keys_upsert.mp hmem with heq | hmem
        · exact hne heq
        · exact hfirst hmem

/-- A row is found under its key if no key has two. -/
theorem lookup_of_mem (hrows : (rows.map (·.1)).Nodup) {value : β} (h : (key, value) ∈ rows) :
    rows.lookup key = some value := by
  induction rows with
  | nil => cases h
  | cons row rest ih =>
      obtain ⟨first, other⟩ := row
      obtain ⟨hfirst, hrest⟩ := List.nodup_cons.mp hrows
      rcases List.mem_cons.mp h with heq | hmem
      · cases heq
        simp
      · have hne : key ≠ first := fun heq => hfirst (heq ▸ List.mem_map_of_mem (f := (·.1)) hmem)
        rw [List.lookup_cons, beq_eq_false_iff_ne.mpr hne]
        exact ih hrest hmem

/-- Rows have, one for each key, what was added there. -/
structure Holding (shows : β → Nat → Prop) (rows : List (κ × β)) (increments : List (κ × Nat)) :
    Prop where
  nodup : (rows.map (·.1)).Nodup
  keys : ∀ key, key ∈ rows.map (·.1) ↔ key ∈ increments.map (·.1)
  amounts : ∀ key value, rows.lookup key = some value → shows value (amountAt key increments)

variable {shows : β → Nat → Prop} {increments : List (κ × Nat)}

theorem holding_nil : Holding shows ([] : List (κ × β)) [] where
  nodup := List.nodup_nil
  keys _ := Iff.rfl
  amounts _ _ h := by cases h

theorem Holding.upsert {n : Nat} (h : Holding shows rows increments) (hnew : shows (change none) n)
    (hold : ∀ value, shows value (amountAt key increments) →
      shows (change (some value)) (amountAt key increments + n)) :
    Holding shows (upsert key change rows) (increments ++ [(key, n)]) where
  nodup := nodup_keys_upsert h.nodup
  keys other := by
    rw [mem_keys_upsert, h.keys, List.map_append, List.mem_append, or_comm]
    simp
  amounts other value hvalue := by
    rw [amountAt_append]
    by_cases hother : other = key
    · subst hother
      have hone : amountAt other [(other, n)] = n := by simp [amountAt]
      rw [lookup_upsert_self, Option.some.injEq] at hvalue
      subst hvalue
      rw [hone]
      cases hlookup : rows.lookup other with
      | none =>
          have hmem : other ∉ rows.map (·.1) := fun hmem => by
            obtain ⟨row, hrow, rfl⟩ := List.mem_map.mp hmem
            rw [lookup_of_mem h.nodup hrow] at hlookup
            cases hlookup
          rw [amountAt_eq_zero ((h.keys other).not.mp hmem), Nat.zero_add]
          exact hnew
      | some value => exact hold value (h.amounts other value hlookup)
    · have hnone : amountAt other [(key, n)] = 0 := by simp [amountAt, Ne.symm hother]
      rw [lookup_upsert_of_ne hother] at hvalue
      rw [hnone, Nat.add_zero]
      exact h.amounts other value hvalue

/-- There is a row for each key that was used, with the number of what was added there. -/
theorem Holding.perm (h : Holding shows rows increments) (number : β → ℚ)
    (hnumber : ∀ key value, shows value (amountAt key increments) →
      number value = amountAt key increments) {α : Type} (label : κ → α) :
    (rows.map fun row => (label row.1, number row.2)).Perm
      ((increments.map (·.1)).dedup.map fun key =>
        (label key, (amountAt key increments : ℚ))) := by
  have hrows : (rows.map fun row => (label row.1, number row.2)) = (rows.map (·.1)).map
      fun key => (label key, (amountAt key increments : ℚ)) := by
    rw [List.map_map]
    refine List.map_congr_left fun row hrow => ?_
    rw [hnumber row.1 row.2 (h.amounts _ _ (lookup_of_mem h.nodup hrow))]
    rfl
  rw [hrows]
  refine List.Perm.map _ ((List.perm_ext_iff_of_nodup h.nodup (List.nodup_dedup _)).mpr ?_)
  intro key
  rw [h.keys, List.mem_dedup]

end Rows

/-! ## Tallies in memory -/

theorem Tally.bumpRow_eq_upsert {κ : Type} [DecidableEq κ] (key : κ) (amount : Binary64)
    (rows : List (κ × Binary64)) :
    bumpRow key amount rows = upsert key (fun old => old.getD .zero + amount) rows := by
  induction rows with
  | nil => rfl
  | cons row rest ih => rw [bumpRow, upsert, ih]; rfl

theorem Histogram.observeRow_eq_upsert (bounds : List Binary64) (values : List String)
    (value : Binary64) (rows : List (List String × Histogram)) :
    observeRow bounds values value rows =
      upsert values (fun old => (old.getD (empty bounds)).observe bounds value) rows := by
  induction rows with
  | nil => rfl
  | cons row rest ih => rw [observeRow, upsert, ih]; rfl

namespace Collectors

/-- A counter in memory has the sum of its increments. -/
theorem tallies_counter (name help : String) {amounts : List Nat}
    (hlt : amounts.sum < 9007199254740992) :
    amounts.foldl (fun c n => tallies.increase (.ofNat n) c) (tallies.counter name help) =
      (⟨name, help, .ofNat amounts.sum⟩ : PlainCounter) := by
  induction amounts using List.reverseRecOn with
  | nil => rfl
  | append_singleton amounts n ih =>
      rw [List.sum_append, List.sum_singleton] at hlt ⊢
      rw [List.foldl_append, ih (by omega), ← Binary64.ofNat_add_ofNat hlt]
      rfl

/-- A tally in memory has the sums of its increments. -/
theorem tallies_counterVec (name help : String) (labels : List String)
    {increments : List (List String × Nat)}
    (hlt : ∀ values, amountAt values increments < 9007199254740992) :
    ∃ tally, increments.foldl
        (fun c increment => tallies.increaseAt increment.1 (.ofNat increment.2) c)
        (tallies.counterVec name help labels) = (⟨name, help, labels, tally⟩ : LabelledTally) ∧
      Holding (fun value n => value = .ofNat n) tally.rows increments := by
  induction increments using List.reverseRecOn with
  | nil => exact ⟨.empty, rfl, holding_nil⟩
  | append_singleton increments increment ih =>
      have hlast := hlt increment.1
      simp only [amountAt_append] at hlt hlast
      obtain ⟨tally, htally, hholding⟩ := ih fun values => Nat.lt_of_le_of_lt
        (Nat.le_add_right _ _) (hlt values)
      have hone : amountAt increment.1 [increment] = increment.2 := by simp [amountAt]
      rw [hone] at hlast
      refine ⟨tally.bump increment.1 (.ofNat increment.2), ?_, ?_⟩
      · rw [List.foldl_append, htally]
        rfl
      · rw [Tally.bump, Tally.bumpRow_eq_upsert]
        refine hholding.upsert ?_ fun value hvalue => ?_
        · have hzero := Binary64.ofNat_add_ofNat (m := 0) (n := increment.2) (by omega)
          rw [Nat.zero_add] at hzero
          exact hzero
        · subst hvalue
          exact Binary64.ofNat_add_ofNat hlast

/-- The histograms in memory have counted what they observed. -/
theorem tallies_histogramVec (name help : String) (bounds : List Binary64) (labels : List String)
    (observations : List (List String × Binary64)) :
    ∃ rows, observations.foldl
        (fun c observation => tallies.observeAt observation.1 observation.2 c)
        (tallies.histogramVec name help bounds labels) =
          (⟨name, help, bounds, labels, rows⟩ : LabelledHistogram) ∧
      Holding (fun histogram n => histogram.count = n) rows
        (observations.map fun observation => (observation.1, 1)) := by
  induction observations using List.reverseRecOn with
  | nil => exact ⟨[], rfl, holding_nil⟩
  | append_singleton observations observation ih =>
      obtain ⟨rows, hrows, hholding⟩ := ih
      refine ⟨Histogram.observeRow bounds observation.1 observation.2 rows, ?_, ?_⟩
      · rw [List.foldl_append, hrows]
        rfl
      · rw [Histogram.observeRow_eq_upsert, List.map_append]
        refine hholding.upsert rfl fun histogram hcount => ?_
        exact congrArg (· + 1) hcount

/-- Gathering leaves the metrics of each name as they are, but for their order. -/
theorem tallies_gather (families : List Family) (name : String) :
    (((tallies.gather families).filter fun family => family.name = name).flatMap (·.metrics)).Perm
      ((families.filter fun family => family.name = name).flatMap (·.metrics)) := by
  refine (((List.mergeSort_perm _ _).filter _).flatMap_right _).trans ?_
  rw [List.filter_map]
  induction families with
  | nil => rfl
  | cons family rest ih =>
      cases hmetrics : family.metrics with
      | nil => by_cases hname : family.name = name <;> simpa [hmetrics, hname] using ih
      | cons metric others =>
          have hfamily : (arrange family).metrics.Perm family.metrics := List.mergeSort_perm _ _
          by_cases hname : family.name = name
          · simpa [hmetrics, hname, arrange] using hfamily.append ih
          · simpa [hmetrics, hname, arrange] using ih

/-- **Tallies in memory obey the laws of a library of collectors.** -/
theorem lawful_tallies : tallies.Lawful where
  counter name help amounts hlt := by
    rw [tallies_counter name help hlt]
    rfl
  counterVec name help labels increments _ hlt := by
    obtain ⟨tally, htally, hholding⟩ := tallies_counterVec name help labels hlt
    rw [htally]
    refine ⟨rfl, ?_⟩
    have hperm := hholding.perm Binary64.value
      (fun values value hvalue => by rw [hvalue, Binary64.value_ofNat (hlt values)]) (labels.zip ·)
    simpa [tallies, Function.comp_def, Sample.number] using hperm
  histogramVec name help bounds labels observations _ _ := by
    obtain ⟨rows, hrows, hholding⟩ := tallies_histogramVec name help bounds labels observations
    rw [hrows]
    refine ⟨rfl, ?_⟩
    have hperm := hholding.perm (fun histogram => (histogram.count : ℚ))
      (fun values histogram hcount => by rw [hcount]) (labels.zip ·)
    simpa [tallies, Function.comp_def, Sample.number, Histogram.sample] using hperm
  gather families _ name := tallies_gather families name

end Collectors

end ModemLink
