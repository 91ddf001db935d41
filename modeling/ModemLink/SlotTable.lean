/-!
# Slot tables

A slot table keeps values at numbered places.  A removed value leaves a vacancy, which the next
insertion takes over; but only so many vacancies are kept.  Once they are all used up, a removal
moves the last value down into the freed place instead, and reports the move.  Vacancies at the end
are cut off, so the storage is never longer than the values and the allowed vacancies together.
-/

namespace ModemLink

/-- Values at numbered places. -/
structure SlotTable (α : Type) where
  /-- The places in use or kept for reuse. -/
  slots : Array (Option α)
  /-- The empty places among them, the one emptied last in front. -/
  vacant : List Nat
  /-- How many empty places may be kept. -/
  spareCapacity : Nat
  /-- How many places hold a value. -/
  count : Nat

namespace SlotTable

variable {α : Type}

/-- What a removal yields: the value, the move it caused, and the table after it. -/
structure Removal (α : Type) where
  value : α
  /-- The places the last value moved from and to, if it was moved. -/
  moved : Option (Nat × Nat)
  table : SlotTable α

/-- A table with no places. -/
def empty (spareCapacity : Nat) : SlotTable α := ⟨#[], [], spareCapacity, 0⟩

/-- The value at a place. -/
def get? (table : SlotTable α) (index : Nat) : Option α := table.slots[index]?.join

/-- Puts a value into the place emptied last, or into a new one at the end. -/
def insert (table : SlotTable α) (value : α) : Nat × SlotTable α :=
  match table.vacant with
  | index :: rest =>
    (index, { table with
      slots := table.slots.setIfInBounds index (some value)
      vacant := rest
      count := table.count + 1 })
  | [] =>
    (table.slots.size, { table with
      slots := table.slots.push (some value)
      count := table.count + 1 })

/-- Replaces the value at a place that holds one. -/
def modify (table : SlotTable α) (index : Nat) (f : α → α) : SlotTable α :=
  match table.get? index with
  | some value => { table with slots := table.slots.setIfInBounds index (some (f value)) }
  | none => table

/-- Cuts off the last place, and forgets its vacancy. -/
def chop (table : SlotTable α) : SlotTable α :=
  { table with
    slots := table.slots.pop
    vacant := table.vacant.filter (· != table.slots.size - 1) }

/-- Cuts off the empty places at the end. -/
def trim (table : SlotTable α) : SlotTable α :=
  match _h : table.slots.back? with
  | some none => trim table.chop
  | _ => table
termination_by table.slots.size
decreasing_by
  have : table.slots.size ≠ 0 := by
    intro h0
    rw [Array.size_eq_zero_iff.1 h0] at _h
    simp at _h
  simp only [chop, Array.size_pop]
  omega

/-- Takes the value out of a place, if it holds one. -/
def remove? (table : SlotTable α) (index : Nat) : Option (Removal α) :=
  match table.get? index with
  | none => none
  | some value =>
    let count := table.count - 1
    if index + 1 = table.slots.size then
      some ⟨value, none, trim { table with slots := table.slots.pop, count }⟩
    else if table.vacant.length < table.spareCapacity then
      some ⟨value, none, { table with
        slots := table.slots.setIfInBounds index none
        vacant := index :: table.vacant
        count }⟩
    else
      let last := table.slots.back?.join
      let slots := table.slots.pop.setIfInBounds index last
      some ⟨value, some (table.slots.size - 1, index), trim { table with slots, count }⟩

/-- The values in the order of their places. -/
def values (table : SlotTable α) : List α := table.slots.toList.filterMap id

/-- Takes all values out, in the order of their places. -/
def drain (table : SlotTable α) : List α × SlotTable α :=
  (table.values, { table with slots := #[], vacant := [], count := 0 })

/-- How many empty places wait for reuse. -/
def spare (table : SlotTable α) : Nat := table.vacant.length

end SlotTable

end ModemLink
