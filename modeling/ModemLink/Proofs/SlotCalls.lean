import Mathlib.Data.List.Nodup
import ModemLink.Proofs.SlotTable

/-!
# The calls of a slot table

Whoever calls a slot table sees a partial map from places to values: an insertion picks a place that
holds none, a removal empties its place or fills it with the value of another place, which it names,
and a drain hands out the values in the order of their places.  Behind that the table keeps its
storage within bounds: no more vacancies than allowed, and a value in the last place.

* `SlotEffect` -- what a call does to the map, and what it is answered with;
* `WellFormed.size_eq` -- every place holds a value or is listed as vacant, never both;
* `WellFormed.effect` -- each call of a well-formed table;
* `Run.keeps_bounds` -- whatever is called, the storage stays within bounds and the calls do what
  they do to the map.
-/

namespace ModemLink

/-- A call of a slot table. -/
inductive SlotCall (α : Type) where
  | insert (value : α)
  | remove (index : Nat)
  | drain

/-- What a call of a slot table is answered with. -/
inductive SlotReply (α : Type) where
  | place (index : Nat)
  /-- The value of the place, if it held one, and the move that the removal made. -/
  | removed (removal : Option (α × Option (Nat × Nat)))
  | values (values : List α)

/-- What a call does to the values at their places, and what it is answered with. -/
inductive SlotEffect {α : Type} (places : Nat → Option α) :
    SlotCall α → SlotReply α → (Nat → Option α) → Prop
  | inserted {value : α} {index : Nat} (vacant : places index = none) :
      SlotEffect places (.insert value) (.place index)
        (fun j => if j = index then some value else places j)
  /-- Nothing is taken from a place without a value. -/
  | missing {index : Nat} (vacant : places index = none) :
      SlotEffect places (.remove index) (.removed none) places
  | removed {index : Nat} {value : α} (taken : places index = some value) :
      SlotEffect places (.remove index) (.removed (some (value, none)))
        (fun j => if j = index then none else places j)
  /-- The value of another place moves to the one that was freed. -/
  | relocated {index source : Nat} {value last : α} (taken : places index = some value)
      (apart : source ≠ index) (moved : places source = some last) :
      SlotEffect places (.remove index) (.removed (some (value, some (source, index))))
        (fun j => if j = index then some last else if j = source then none else places j)
  /-- Each place below the size is emptied once, and there are no values beyond. -/
  | drained (size : Nat) (beyond : ∀ j, size ≤ j → places j = none) :
      SlotEffect places .drain (.values ((List.range size).filterMap places)) (fun _ => none)

namespace SlotTable

variable {α : Type} {table : SlotTable α} {spareCapacity : Nat}

/-- Makes a call. -/
def call (table : SlotTable α) : SlotCall α → SlotReply α × SlotTable α
  | .insert value =>
    let (index, table) := table.insert value
    (.place index, table)
  | .remove index =>
    match table.remove? index with
    | none => (.removed none, table)
    | some ⟨value, moved, after⟩ => (.removed (some (value, moved)), after)
  | .drain =>
    let (values, table) := table.drain
    (.values values, table)

/-- The tables that calls make of an empty one. -/
inductive Run (spareCapacity : Nat) : SlotTable α → Prop
  | start : Run spareCapacity (empty spareCapacity)
  | call {table : SlotTable α} (run : Run spareCapacity table) (call : SlotCall α) :
      Run spareCapacity (table.call call).2

/-! ## The storage -/

/-- The values are those of the places in use. -/
theorem length_values (table : SlotTable α) :
    table.values.length = table.slots.toList.countP Option.isSome := by
  rw [values, List.length_filterMap_eq_countP]
  rfl

/-- The vacancies are as many as the empty places. -/
theorem WellFormed.length_vacant (h : table.WellFormed) :
    table.vacant.length = table.slots.toList.countP Option.isNone := by
  have hmem : ∀ i, i ∈ table.vacant ↔ i ∈ table.slots.toList.findIdxs Option.isNone := by
    intro i
    rw [h.vacant_iff, List.mem_findIdxs_iff_exists_getElem_pos, Array.getElem?_eq_some_iff]
    simp [Option.isNone_iff_eq_none]
  have hperm := (List.perm_ext_iff_of_nodup h.vacant_nodup List.nodup_findIdxs).mpr hmem
  rw [hperm.length_eq, List.length_findIdxs]

/-- Every place holds a value or is listed as vacant. -/
theorem WellFormed.size_eq (h : table.WellFormed) :
    table.slots.size = table.count + table.vacant.length := by
  rw [h.count_eq, length_values, h.length_vacant, ← Array.length_toList,
    List.length_eq_countP_add_countP Option.isSome]
  congr 1
  exact List.countP_congr fun cell _ => by cases cell <;> simp

/-- The last place of a table is in use. -/
theorem WellFormed.back_some (h : table.WellFormed) (hpos : 0 < table.slots.size) :
    ∃ value, table.slots.back? = some (some value) := by
  obtain ⟨cells, last, hcells⟩ := h.slots_eq_push hpos
  exact ⟨last, by rw [hcells, Array.back?_push]⟩

@[simp] theorem spareCapacity_trim (table : SlotTable α) :
    table.trim.spareCapacity = table.spareCapacity := by
  fun_induction trim table with
  | case1 table _ ih => exact ih
  | case2 table _ => rfl

/-- No call changes how many vacancies may be kept. -/
theorem spareCapacity_call (table : SlotTable α) (call : SlotCall α) :
    (table.call call).2.spareCapacity = table.spareCapacity := by
  cases call with
  | insert value =>
      simp only [SlotTable.call, insert]
      split <;> rfl
  | remove index =>
      cases hrem : table.remove? index with
      | none => simp only [SlotTable.call, hrem]
      | some removal =>
          simp only [SlotTable.call, hrem]
          unfold remove? at hrem
          split at hrem
          · cases hrem
          · split at hrem
            · cases hrem
              exact spareCapacity_trim _
            · split at hrem
              · cases hrem
                rfl
              · cases hrem
                exact spareCapacity_trim _
  | drain => rfl

/-! ## The calls -/

/-- Beyond the storage no place holds a value. -/
theorem get?_of_size_le {i : Nat} (h : table.slots.size ≤ i) : table.get? i = none := by
  rw [get?, Array.getElem?_eq_none h]
  rfl

theorem filterMap_id_eq_range (cells : List (Option α)) :
    cells.filterMap id = (List.range cells.length).filterMap fun i => cells[i]?.join := by
  induction cells with
  | nil => rfl
  | cons first rest ih =>
      rw [List.length_cons, List.range_succ_eq_map, List.filterMap_cons, List.filterMap_cons,
        List.filterMap_map, ih]
      rfl

/-- The values, place by place. -/
theorem values_eq_filterMap (table : SlotTable α) :
    table.values = (List.range table.slots.size).filterMap table.get? := by
  rw [values, filterMap_id_eq_range, Array.length_toList]
  simp only [Array.getElem?_toList]
  rfl

/-- Each call of a well-formed table does what it does to the values at their places. -/
theorem WellFormed.effect (h : table.WellFormed) (call : SlotCall α) :
    SlotEffect table.get? call (table.call call).1 (table.call call).2.get? := by
  cases call with
  | insert value =>
      have hplaces := funext (get?_insert h value)
      change SlotEffect table.get? (.insert value) (.place (table.insert value).1)
        (table.insert value).2.get?
      rw [hplaces]
      exact .inserted (get?_insert_fst h value)
  | remove index =>
      cases hrem : table.remove? index with
      | none =>
          simp only [SlotTable.call, hrem]
          exact .missing (remove?_eq_none_iff.mp hrem)
      | some removal =>
          have hout := removed_of_remove? h hrem
          have hplaces := hout.places
          simp only [SlotTable.call, hrem]
          cases hmoved : removal.moved with
          | none =>
              simp only [hmoved] at hplaces
              rw [funext hplaces]
              exact .removed hout.value
          | some move =>
              obtain ⟨source, goal⟩ := move
              simp only [hmoved] at hplaces
              obtain ⟨rfl, last, hapart, hlast, hget⟩ := hplaces
              rw [funext hget]
              exact .relocated hout.value hapart hlast
  | drain =>
      have hempty : (table.call .drain).2.get? = fun _ => none := by
        funext j
        simp [SlotTable.call, drain, get?]
      change SlotEffect table.get? .drain (.values table.values) (table.call .drain).2.get?
      rw [hempty, values_eq_filterMap]
      exact .drained table.slots.size fun j => get?_of_size_le

theorem WellFormed.call (h : table.WellFormed) (call : SlotCall α) :
    (table.call call).2.WellFormed := by
  cases call with
  | insert value => exact h.insert value
  | remove index =>
      cases hrem : table.remove? index with
      | none => simpa only [SlotTable.call, hrem] using h
      | some removal =>
          simpa only [SlotTable.call, hrem] using (removed_of_remove? h hrem).wellFormed
  | drain => exact wellFormed_drain table

/-! ## Runs -/

theorem Run.wellFormed (run : Run spareCapacity table) :
    table.WellFormed ∧ table.spareCapacity = spareCapacity := by
  induction run with
  | start => exact ⟨wellFormed_empty _, rfl⟩
  | call run call ih => exact ⟨ih.1.call call, (spareCapacity_call _ call).trans ih.2⟩

/-- **The storage stays within bounds.**  Whatever is called, the count is the number of places in
use, the vacancies are the empty places, each listed once, the last place is in use, and there are
no more vacancies than allowed; so there are no more places than values and allowed vacancies
together.  Each call does what it does to the values at their places; a removal from a place without
a value changes nothing at all, and a drain leaves an empty table. -/
theorem Run.keeps_bounds (run : Run spareCapacity table) :
    table.count = table.slots.toList.countP Option.isSome ∧
    (table.vacant.Nodup ∧ ∀ i, i ∈ table.vacant ↔ table.slots[i]? = some none) ∧
    (0 < table.slots.size → ∃ value, table.slots.back? = some (some value)) ∧
    table.vacant.length ≤ spareCapacity ∧ table.slots.size ≤ table.count + spareCapacity ∧
    (∀ call, SlotEffect table.get? call (table.call call).1 (table.call call).2.get?) ∧
    (∀ index, table.get? index = none → table.call (.remove index) = (.removed none, table)) ∧
    (table.call .drain).2 = empty spareCapacity := by
  obtain ⟨hwf, hcapacity⟩ := run.wellFormed
  have hspare := hwf.spare_le
  have hsize := hwf.size_eq
  rw [hcapacity] at hspare
  refine ⟨hwf.count_eq.trans table.length_values, ⟨hwf.vacant_nodup, hwf.vacant_iff⟩, hwf.back_some,
    hspare, by omega, hwf.effect, fun index hindex => ?_, ?_⟩
  · have hrem := remove?_eq_none_iff.mpr hindex
    simp only [SlotTable.call, hrem]
  · rw [← hcapacity]
    rfl

/-- Where no vacancy is allowed, the first of two values leaves its place to the second, and the
storage is as small as it can be. -/
theorem keeps_bounds_without_spare :
    ∃ table : SlotTable Nat, Run 0 table ∧ table.count = 1 ∧ table.get? 0 = some 8 ∧
      table.slots.size ≤ 1 ∧ table.call (.remove 1) = (.removed none, table) := by
  have run : Run 0 _ := ((Run.start.call (.insert 7)).call (.insert 8)).call (.remove 0)
  generalize htable : (SlotTable.call _ (.remove 0)).2 = table at run
  have hslots : table = ⟨#[some 8], [], 0, 1⟩ := by
    simp [← htable, SlotTable.call, insert, remove?, empty, get?, trim]
  have hcount : table.count = 1 := by rw [hslots]
  have hplace : table.get? 0 = some 8 := by rw [hslots]; rfl
  obtain ⟨-, -, -, -, hsize, -, hmissing, -⟩ := run.keeps_bounds
  rw [hcount] at hsize
  exact ⟨table, run, hcount, hplace, hsize, hmissing 1 (get?_of_size_le hsize)⟩

end SlotTable

end ModemLink
