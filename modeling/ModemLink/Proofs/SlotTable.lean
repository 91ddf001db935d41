import Mathlib.Data.List.Perm.Basic
import ModemLink.SlotTable

/-!
# Slot tables as collections

A slot table is used as a bag of values, each reached by the number of its place.  This file says
what each operation does to both readings: which value each place holds, and which values there are
altogether, places left aside.

* `WellFormed` -- the vacancies are exactly the empty places, each listed once, the last place is in
  use, and the count is right;
* `get?_insert`, `perm_values_insert` -- an insertion adds its value and nothing else;
* `Removed`, `removed_of_remove?` -- a removal takes its value and nothing else, also when it moves
  the last value down, and reports the move.
-/

namespace ModemLink

open scoped List

/-- Replacing one cell of a list of cells exchanges its old content for the new one. -/
theorem perm_filterMap_set {α : Type} (cells : List (Option α)) (i : Nat) (cell old : Option α)
    (h : cells[i]? = some old) :
    old.toList ++ (cells.set i cell).filterMap id ~ cell.toList ++ cells.filterMap id := by
  have hcons : ∀ (first : Option α) (rest : List (Option α)),
      (first :: rest).filterMap id = first.toList ++ rest.filterMap id := by
    intro first rest
    cases first <;> rfl
  induction cells generalizing i with
  | nil => simp at h
  | cons first rest ih =>
      cases i with
      | zero =>
          have hold : first = old := by simpa using h
          subst hold
          rw [List.set_cons_zero, hcons, hcons]
          exact List.perm_append_comm_assoc _ _ _
      | succ i =>
          rw [List.set_cons_succ, hcons, hcons]
          calc old.toList ++ (first.toList ++ (rest.set i cell).filterMap id)
              ~ first.toList ++ (old.toList ++ (rest.set i cell).filterMap id) :=
                List.perm_append_comm_assoc _ _ _
            _ ~ first.toList ++ (cell.toList ++ rest.filterMap id) :=
                (ih i (by simpa using h)).append_left _
            _ ~ cell.toList ++ (first.toList ++ rest.filterMap id) :=
                List.perm_append_comm_assoc _ _ _

namespace SlotTable

variable {α : Type}

/-- The vacancies are exactly the empty places, each listed once and no more of them than may be
kept; the last place is in use; the count is the number of values. -/
structure WellFormed (table : SlotTable α) : Prop where
  vacant_iff : ∀ i, i ∈ table.vacant ↔ table.slots[i]? = some none
  vacant_nodup : table.vacant.Nodup
  spare_le : table.vacant.length ≤ table.spareCapacity
  back_ne : table.slots.back? ≠ some none
  count_eq : table.count = table.values.length

theorem wellFormed_empty (spareCapacity : Nat) :
    (empty spareCapacity : SlotTable α).WellFormed :=
  ⟨by simp [empty], by simp [empty], by simp [empty], by simp [empty], by simp [empty, values]⟩

/-- A place that holds a value lies within the storage. -/
theorem lt_size_of_get? {table : SlotTable α} {i : Nat} {value : α}
    (h : table.get? i = some value) : i < table.slots.size := by
  unfold get? at h
  by_contra hout
  rw [Array.getElem?_eq_none (by omega)] at h
  cases h

/-- A place holds a value exactly when its cell does. -/
theorem get?_eq_some_iff {table : SlotTable α} {i : Nat} {value : α} :
    table.get? i = some value ↔ table.slots[i]? = some (some value) := by
  unfold get?
  cases table.slots[i]? with
  | none => simp
  | some cell => simp

/-- A value is in the table exactly when some place holds it. -/
theorem mem_values_iff {table : SlotTable α} {value : α} :
    value ∈ table.values ↔ ∃ i, table.get? i = some value := by
  simp only [values, List.mem_filterMap, id, get?_eq_some_iff]
  constructor
  · rintro ⟨cell, hmem, rfl⟩
    obtain ⟨i, hi⟩ := List.mem_iff_getElem?.mp hmem
    exact ⟨i, by simpa using hi⟩
  · rintro ⟨i, hi⟩
    exact ⟨some value, List.mem_iff_getElem?.mpr ⟨i, by simpa using hi⟩, rfl⟩

/-! ## Insertion -/

/-- The place of an insertion was not in use. -/
theorem get?_insert_fst {table : SlotTable α} (h : table.WellFormed) (value : α) :
    table.get? (table.insert value).1 = none := by
  unfold insert get?
  cases hv : table.vacant with
  | nil => simp
  | cons i rest =>
      have hi : table.slots[i]? = some none := (h.vacant_iff i).mp (by simp [hv])
      simp [hi]

/-- An insertion fills its place and leaves the others. -/
theorem get?_insert {table : SlotTable α} (h : table.WellFormed) (value : α) (j : Nat) :
    (table.insert value).2.get? j =
      if j = (table.insert value).1 then some value else table.get? j := by
  unfold insert get?
  cases hv : table.vacant with
  | nil =>
      by_cases hj : j = table.slots.size
      · simp [hj]
      · simp [Array.getElem?_push, hj]
  | cons i rest =>
      have hi : i < table.slots.size :=
        (Array.getElem?_eq_some_iff.mp ((h.vacant_iff i).mp (by simp [hv]))).1
      by_cases hj : j = i
      · simp [hj, hi]
      · simp [hj, Ne.symm hj]

/-- An insertion adds its value to the others. -/
theorem perm_values_insert {table : SlotTable α} (h : table.WellFormed) (value : α) :
    (table.insert value).2.values ~ value :: table.values := by
  unfold insert values
  cases hv : table.vacant with
  | nil => simp
  | cons i rest =>
      have hi : table.slots[i]? = some none := (h.vacant_iff i).mp (by simp [hv])
      have hset := perm_filterMap_set table.slots.toList i (some value) none (by simpa using hi)
      simpa using hset

theorem WellFormed.insert {table : SlotTable α} (h : table.WellFormed) (value : α) :
    (table.insert value).2.WellFormed := by
  have hperm := perm_values_insert h value
  have hcount : (table.insert value).2.count = (table.insert value).2.values.length := by
    rw [hperm.length_eq, List.length_cons, ← h.count_eq]
    unfold SlotTable.insert
    split <;> rfl
  cases hv : table.vacant with
  | nil =>
      refine ⟨fun j => ?_, ?_, ?_, ?_, hcount⟩
      · have hnone : table.slots[j]? ≠ some none := fun hj => by
          have := (h.vacant_iff j).mpr hj
          simp [hv] at this
        simp only [SlotTable.insert, hv, List.not_mem_nil, false_iff, Array.getElem?_push]
        split
        · simp
        · exact hnone
      · simp [SlotTable.insert, hv]
      · simp [SlotTable.insert, hv]
      · simp [SlotTable.insert, hv]
  | cons i rest =>
      have hnodup := h.vacant_nodup
      have hspare := h.spare_le
      rw [hv] at hnodup hspare
      obtain ⟨hfresh, hrest⟩ := List.nodup_cons.mp hnodup
      have hi : table.slots[i]? = some none := (h.vacant_iff i).mp (by simp [hv])
      refine ⟨fun j => ?_, ?_, ?_, ?_, hcount⟩
      · have hj := h.vacant_iff j
        simp only [SlotTable.insert, hv, List.mem_cons] at hj ⊢
        rw [Array.getElem?_setIfInBounds]
        by_cases hij : i = j
        · subst hij
          simp only [if_true]
          constructor
          · exact fun hm => absurd hm hfresh
          · intro hm
            split at hm <;> simp at hm
        · rw [if_neg hij, ← hj]
          simp [Ne.symm hij]
      · simpa only [SlotTable.insert, hv] using hrest
      · simp only [SlotTable.insert, hv]
        simp only [List.length_cons] at hspare
        omega
      · have hback := h.back_ne
        simp only [SlotTable.insert, hv, Array.back?_eq_getElem?, Array.size_setIfInBounds,
          Array.getElem?_setIfInBounds] at hback ⊢
        split
        · split <;> simp
        · exact hback

/-! ## Removal -/

/-- Cutting an empty place off leaves what each place holds. -/
theorem get?_chop {table : SlotTable α} (h : table.slots.back? = some none) (i : Nat) :
    table.chop.get? i = table.get? i := by
  obtain ⟨cells, hcells⟩ := Array.back?_eq_some_iff.mp h
  simp only [chop, get?, hcells, Array.pop_push, Array.getElem?_push]
  split
  · rename_i hi
    rw [Array.getElem?_eq_none (by omega)]
    rfl
  · rfl

theorem values_chop {table : SlotTable α} (h : table.slots.back? = some none) :
    table.chop.values = table.values := by
  obtain ⟨cells, hcells⟩ := Array.back?_eq_some_iff.mp h
  simp [chop, values, hcells]

/-- What a table owes of its vacancies before its empty places at the end are cut off. -/
structure Untrimmed (table : SlotTable α) : Prop where
  vacant_iff : ∀ i, i ∈ table.vacant ↔ table.slots[i]? = some none
  vacant_nodup : table.vacant.Nodup
  spare_le : table.vacant.length ≤ table.spareCapacity
  count_eq : table.count = table.values.length

theorem Untrimmed.chop {table : SlotTable α} (h : table.Untrimmed)
    (hback : table.slots.back? = some none) : table.chop.Untrimmed := by
  refine ⟨fun i => ?_, h.vacant_nodup.filter _, ?_, ?_⟩
  · obtain ⟨cells, hcells⟩ := Array.back?_eq_some_iff.mp hback
    have hi := h.vacant_iff i
    simp only [SlotTable.chop, hcells, Array.pop_push, Array.size_push, List.mem_filter, hi,
      Array.getElem?_push]
    by_cases hlast : i = cells.size
    · simp [hlast]
    · simp [hlast]
  · exact Nat.le_trans (List.length_filter_le _ _) h.spare_le
  · rw [values_chop hback]
    exact h.count_eq

/-- Trimming keeps what each place holds and all values, and makes a well-formed table. -/
theorem Untrimmed.trim {table : SlotTable α} (h : table.Untrimmed) :
    table.trim.WellFormed ∧ table.trim.values = table.values ∧
      ∀ i, table.trim.get? i = table.get? i := by
  fun_induction SlotTable.trim table with
  | case1 table hback ih =>
      obtain ⟨hwf, hvalues, hget⟩ := ih (h.chop hback)
      exact ⟨hwf, hvalues.trans (values_chop hback),
        fun i => (hget i).trans (get?_chop hback i)⟩
  | case2 table hback =>
      exact ⟨⟨h.vacant_iff, h.vacant_nodup, h.spare_le, hback, h.count_eq⟩, rfl, fun _ => rfl⟩

/-- What a removal of a place leaves behind. -/
structure Removed (table : SlotTable α) (index : Nat) (removal : Removal α) : Prop where
  value : table.get? index = some removal.value
  wellFormed : removal.table.WellFormed
  values : table.values ~ removal.value :: removal.table.values
  /-- Without a move every other place keeps its value; with one the value moved to the freed
  place. -/
  places : match removal.moved with
    | none => ∀ j, removal.table.get? j = if j = index then none else table.get? j
    | some (source, goal) => goal = index ∧ ∃ last, source ≠ index ∧ table.get? source = some last ∧
        ∀ j, removal.table.get? j =
          if j = index then some last else if j = source then none else table.get? j

/-- Nothing is removed from a place without a value. -/
theorem remove?_eq_none_iff {table : SlotTable α} {index : Nat} :
    table.remove? index = none ↔ table.get? index = none := by
  unfold remove?
  split
  · simp [*]
  · rename_i value hvalue
    constructor
    · intro h
      split at h
      · cases h
      split at h <;> cases h
    · intro h
      rw [hvalue] at h
      cases h

/-- The removal of the last place. -/
theorem removed_last {table : SlotTable α} (h : table.WellFormed) {index : Nat} {value : α}
    (hvalue : table.get? index = some value) (hlast : index + 1 = table.slots.size) :
    Removed table index
      ⟨value, none, trim { table with slots := table.slots.pop, count := table.count - 1 }⟩ := by
  have hcell := get?_eq_some_iff.mp hvalue
  have hback : table.slots.back? = some (some value) := by
    rw [Array.back?_eq_getElem?, ← hlast]
    exact hcell
  obtain ⟨cells, hcells⟩ := Array.back?_eq_some_iff.mp hback
  have hindex : index = cells.size := by
    rw [hcells, Array.size_push] at hlast
    omega
  have hvalues : table.values = cells.toList.filterMap id ++ [value] := by
    simp [values, hcells]
  have huntrimmed :
      Untrimmed { table with slots := table.slots.pop, count := table.count - 1 } := by
    refine ⟨fun i => ?_, h.vacant_nodup, h.spare_le, ?_⟩
    · have hi := h.vacant_iff i
      simp only [hcells, Array.pop_push, hi, Array.getElem?_push]
      split
      · rename_i hi'
        simp [hi']
      · rfl
    · simp [h.count_eq, values, hcells]
  obtain ⟨hwf, htrim, hget⟩ := huntrimmed.trim
  refine ⟨hvalue, hwf, ?_, fun j => ?_⟩
  · rw [htrim, hvalues]
    simp [values, hcells]
  · simp only [hget]
    simp only [get?, hcells, Array.pop_push, Array.getElem?_push, hindex]
    split
    · rename_i hj
      simp [hj]
    · rfl

/-- The removal of an earlier place while vacancies may be kept. -/
theorem removed_vacated {table : SlotTable α} (h : table.WellFormed) {index : Nat} {value : α}
    (hvalue : table.get? index = some value) (hlast : index + 1 ≠ table.slots.size)
    (hroom : table.vacant.length < table.spareCapacity) :
    Removed table index
      ⟨value, none, { table with
        slots := table.slots.setIfInBounds index none
        vacant := index :: table.vacant
        count := table.count - 1 }⟩ := by
  have hcell := get?_eq_some_iff.mp hvalue
  have hin := lt_size_of_get? hvalue
  have hperm : table.values ~
      value :: (table.slots.setIfInBounds index none).toList.filterMap id := by
    have := perm_filterMap_set table.slots.toList index none (some value) (by simpa using hcell)
    simpa [values] using this.symm
  refine ⟨hvalue, ⟨fun i => ?_, ?_, ?_, ?_, ?_⟩, hperm, fun j => ?_⟩
  · rw [Array.getElem?_setIfInBounds, List.mem_cons, h.vacant_iff i]
    by_cases hi : index = i
    · subst hi
      simp [hin]
    · simp [hi, Ne.symm hi]
  · refine List.nodup_cons.mpr ⟨fun hmem => ?_, h.vacant_nodup⟩
    rw [h.vacant_iff, hcell] at hmem
    cases hmem
  · exact Nat.succ_le_of_lt hroom
  · have hback := h.back_ne
    rw [Array.back?_eq_getElem?] at hback ⊢
    rw [Array.size_setIfInBounds, Array.getElem?_setIfInBounds_ne (by omega)]
    exact hback
  · have hlen := hperm.length_eq
    simp only [List.length_cons] at hlen
    simp only [h.count_eq, values] at hlen ⊢
    omega
  · simp only [get?, Array.getElem?_setIfInBounds]
    by_cases hj : index = j
    · subst hj
      simp [hin]
    · simp [hj, Ne.symm hj]

/-- The last place of a table is in use. -/
theorem WellFormed.slots_eq_push {table : SlotTable α} (h : table.WellFormed)
    (hpos : 0 < table.slots.size) :
    ∃ (cells : Array (Option α)) (last : α), table.slots = cells.push (some last) := by
  have hback := h.back_ne
  rw [Array.back?_eq_getElem?, Array.getElem?_eq_getElem (by omega)] at hback
  obtain ⟨cells, cell, hcells⟩ := Array.eq_push_of_size_ne_zero (Nat.ne_of_gt hpos)
  cases cell with
  | none => simp [hcells] at hback
  | some last => exact ⟨cells, last, hcells⟩

section

variable {table : SlotTable α} {cells : Array (Option α)} {last value : α} {index : Nat}

/-- When the last value moves into a place it takes the place of the value there. -/
theorem perm_values_moved (hslots : table.slots = cells.push (some last))
    (hcell : cells[index]? = some (some value)) :
    table.values ~ value :: (cells.setIfInBounds index (some last)).toList.filterMap id := by
  have hset := perm_filterMap_set cells.toList index (some last) (some value) (by simpa using hcell)
  have hall : table.values ~ last :: cells.toList.filterMap id := by
    simp [values, hslots]
  exact hall.trans (by simpa using hset.symm)

theorem untrimmed_moved (h : table.WellFormed) (hslots : table.slots = cells.push (some last))
    (hcell : cells[index]? = some (some value)) :
    Untrimmed { table with
      slots := cells.setIfInBounds index (some last), count := table.count - 1 } := by
  have hin : index < cells.size := (Array.getElem?_eq_some_iff.mp hcell).1
  refine ⟨fun i => ?_, h.vacant_nodup, h.spare_le, ?_⟩
  · have hi := h.vacant_iff i
    rw [hslots, Array.getElem?_push] at hi
    rw [hi, Array.getElem?_setIfInBounds]
    by_cases hlast : i = cells.size
    · simp [hlast, show index ≠ cells.size by omega]
    · by_cases hij : index = i
      · subst hij
        rw [if_neg hlast, hcell, if_pos rfl, if_pos hin]
        simp
      · simp [hlast, hij]
  · have hlen := (perm_values_moved hslots hcell).length_eq
    simp only [List.length_cons] at hlen
    simp only [h.count_eq, values] at hlen ⊢
    omega

/-- The removal of an earlier place when no more vacancies may be kept: the last value moves. -/
theorem removed_moved (h : table.WellFormed) (hvalue : table.get? index = some value)
    (hlast : index + 1 ≠ table.slots.size) :
    Removed table index
      ⟨value, some (table.slots.size - 1, index), trim { table with
        slots := table.slots.pop.setIfInBounds index table.slots.back?.join
        count := table.count - 1 }⟩ := by
  have hin := lt_size_of_get? hvalue
  obtain ⟨cells, last, hcells⟩ := h.slots_eq_push (by omega)
  have hsize : table.slots.size = cells.size + 1 := by rw [hcells, Array.size_push]
  have hcell : cells[index]? = some (some value) := by
    have := get?_eq_some_iff.mp hvalue
    rwa [hcells, Array.getElem?_push, if_neg (by omega)] at this
  have hslots : table.slots.pop.setIfInBounds index table.slots.back?.join =
      cells.setIfInBounds index (some last) := by
    simp [hcells]
  obtain ⟨hwf, htrim, hget⟩ := (untrimmed_moved h hcells hcell).trim
  rw [hslots]
  refine ⟨hvalue, hwf, ?_, rfl, last, by omega, ?_, fun j => ?_⟩
  · rw [htrim]
    exact perm_values_moved hcells hcell
  · simp [get?, hcells]
  · rw [hget]
    simp only [get?, hcells, Array.getElem?_setIfInBounds, Array.getElem?_push, Array.size_push,
      Nat.add_sub_cancel]
    by_cases hj : j = index
    · subst hj
      simp [show j < cells.size by omega]
    · by_cases hj' : j = cells.size
      · subst hj'
        simp [hj, Ne.symm hj]
      · simp [hj, hj', Ne.symm hj]

end

/-- A removal takes out the value of its place; a move is reported as it happened. -/
theorem removed_of_remove? {table : SlotTable α} (h : table.WellFormed) {index : Nat}
    {removal : Removal α} (hrem : table.remove? index = some removal) :
    Removed table index removal := by
  unfold remove? at hrem
  split at hrem
  · cases hrem
  · rename_i value hvalue
    split at hrem
    · rename_i hlast
      cases hrem
      exact removed_last h hvalue hlast
    · rename_i hlast
      split at hrem
      · rename_i hroom
        cases hrem
        exact removed_vacated h hvalue hlast hroom
      · cases hrem
        exact removed_moved h hvalue hlast

/-! ## Changing a value, and taking all values out -/

theorem modify_of_get? {table : SlotTable α} {index : Nat} {value : α}
    (hvalue : table.get? index = some value) (f : α → α) :
    table.modify index f =
      { table with slots := table.slots.setIfInBounds index (some (f value)) } := by
  simp only [modify, hvalue]

/-- A change of the value of a place changes no other place. -/
theorem get?_modify {table : SlotTable α} {index : Nat} {value : α}
    (hvalue : table.get? index = some value) (f : α → α) (j : Nat) :
    (table.modify index f).get? j = if j = index then some (f value) else table.get? j := by
  have hin := lt_size_of_get? hvalue
  rw [modify_of_get? hvalue]
  simp only [get?, Array.getElem?_setIfInBounds]
  by_cases hj : index = j
  · subst hj
    simp [hin]
  · simp [hj, Ne.symm hj]

/-- A change of the value of a place exchanges the old value for the new one. -/
theorem perm_values_modify {table : SlotTable α} {index : Nat} {value : α}
    (hvalue : table.get? index = some value) (f : α → α) :
    value :: (table.modify index f).values ~ f value :: table.values := by
  have hset := perm_filterMap_set table.slots.toList index (some (f value)) (some value)
    (by simpa using get?_eq_some_iff.mp hvalue)
  simpa [modify_of_get? hvalue, values] using hset

theorem WellFormed.modify {table : SlotTable α} (h : table.WellFormed) {index : Nat} {value : α}
    (hvalue : table.get? index = some value) (f : α → α) :
    (table.modify index f).WellFormed := by
  have hcell := get?_eq_some_iff.mp hvalue
  have hin := lt_size_of_get? hvalue
  refine ⟨fun i => ?_, ?_, ?_, ?_, ?_⟩
  · simp only [modify_of_get? hvalue, h.vacant_iff i, Array.getElem?_setIfInBounds]
    by_cases hi : index = i
    · subst hi
      rw [hcell, if_pos rfl, if_pos hin]
      simp
    · simp [hi]
  · simpa only [modify_of_get? hvalue] using h.vacant_nodup
  · simpa only [modify_of_get? hvalue] using h.spare_le
  · have hback := h.back_ne
    simp only [modify_of_get? hvalue, Array.back?_eq_getElem?, Array.size_setIfInBounds,
      Array.getElem?_setIfInBounds] at hback ⊢
    split
    · simp
    · exact hback
  · have hlen := (perm_values_modify hvalue f).length_eq
    simp only [List.length_cons, Nat.add_right_cancel_iff] at hlen
    rw [hlen, ← h.count_eq, modify_of_get? hvalue]

/-- Nothing is left in a table that was emptied. -/
theorem values_drain (table : SlotTable α) : table.drain.2.values = [] := by
  simp [drain, values]

theorem wellFormed_drain (table : SlotTable α) : table.drain.2.WellFormed :=
  ⟨by simp [drain], by simp [drain], by simp [drain], by simp [drain], by simp [drain, values]⟩

end SlotTable

end ModemLink
