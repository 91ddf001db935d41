/-!
# The timer wheel

Timers of whole milliseconds wait in the slots of six levels, with sixty-four slots each.  A slot of
the lowest level is one millisecond, and a slot of any other level is as long as a whole turn of the
level below it.  A timer lies on the lowest level where the time it is due and the present are in
different slots of one turn.  When time comes to the start of a slot, the timers in it that are due
are taken off and the others move to lower levels, each behind those that lie there already.

The highest level is a ring: a timer that is due more than a turn ahead lies there too, and when its
slot comes round too early it stays in it.  A timer that lies in the slot of the present is
therefore one that waits for the next turn; and as each level looks for its first slot from the
present on, such a timer hides those behind it until the present has left the slot.

Main statements: `elapsed_advanceTo`, `due_of_mem_advanceTo`, `perm_advanceTo`.
-/

namespace ModemLink

/-- A timer on the wheel: the millisecond it is due, and the level it lies on. -/
structure WheelTimer (α : Type) where
  due : Nat
  level : Nat
  task : α

/-- The milliseconds that have passed, and the timers that wait; those of one slot are in the order
in which they came into it. -/
structure TimerWheel (α : Type) where
  elapsed : Nat := 0
  timers : List (WheelTimer α) := []

/-- A slot that time will come to, and the millisecond of its start. -/
structure SlotStart where
  level : Nat
  slot : Nat
  start : Nat

namespace TimerWheel

variable {α : Type}

/-- The number of slots of a level. -/
def slots : Nat := 64

/-- The number of levels. -/
def levels : Nat := 6

/-- The milliseconds that a slot of a level lasts. -/
def span : Nat → Nat
  | 0 => 1
  | level + 1 => slots * span level

/-- The slot of a level that a millisecond is in. -/
def slotOf (level ms : Nat) : Nat := ms / span level % slots

/-- The lowest level on which two milliseconds are in one turn, from a level on and with a number of
levels to try; the highest one if there is none. -/
def sharedLevel (elapsed due level : Nat) : Nat → Nat
  | 0 => level
  | more + 1 =>
    if elapsed / span (level + 1) = due / span (level + 1) then level
    else sharedLevel elapsed due (level + 1) more

/-- The level for a timer. -/
def levelFor (elapsed due : Nat) : Nat := sharedLevel elapsed due 0 (levels - 1)

/-- Puts a timer on the wheel, unless it is due already. -/
def insert? (wheel : TimerWheel α) (due : Nat) (task : α) : Option (TimerWheel α) :=
  if due ≤ wheel.elapsed then none
  else
    some { wheel with timers := wheel.timers ++ [⟨due, levelFor wheel.elapsed due, task⟩] }

/-- How many slots ahead of the present a timer lies. -/
def slotsAhead (elapsed : Nat) (timer : WheelTimer α) : Nat :=
  (slotOf timer.level timer.due + slots - slotOf timer.level elapsed) % slots

/-- The first slot of a level that holds timers, looking from the present on; the slot of the
present itself starts again a turn later. -/
def nextOn (wheel : TimerWheel α) (level : Nat) : Option SlotStart :=
  match wheel.timers.filter fun timer => timer.level == level with
  | [] => none
  | first :: rest =>
    let ahead := rest.foldl (fun least timer => Nat.min least (slotsAhead wheel.elapsed timer))
      (slotsAhead wheel.elapsed first)
    let slot := (slotOf level wheel.elapsed + ahead) % slots
    let turn := span (level + 1)
    let start := wheel.elapsed / turn * turn + slot * span level
    some ⟨level, slot, if start ≤ wheel.elapsed then start + turn else start⟩

/-- The slot that time comes to next: that of the lowest level which holds timers. -/
def next? (wheel : TimerWheel α) : Option SlotStart :=
  (List.range levels).findSome? wheel.nextOn

/-- Whether a timer lies in a slot. -/
def liesIn (place : SlotStart) (timer : WheelTimer α) : Bool :=
  timer.level == place.level && slotOf timer.level timer.due == place.slot

/-- Comes to a slot: its due timers are taken off, the others find the level for them anew. -/
def enter (wheel : TimerWheel α) (place : SlotStart) : List (WheelTimer α) × TimerWheel α :=
  let inside := wheel.timers.filter (liesIn place)
  let outside := wheel.timers.filter fun timer => !liesIn place timer
  let later := inside.filter fun timer => !decide (timer.due ≤ place.start)
  (inside.filter fun timer => decide (timer.due ≤ place.start),
    { elapsed := place.start
      timers := outside ++ later.map fun timer =>
        { timer with level := levelFor place.start timer.due } })

/-- Lets time pass until `now`, through a number of slots at most; the timers that are due are taken
off and put behind `fired`. -/
def pass (now : Nat) :
    Nat → List (WheelTimer α) → TimerWheel α → List (WheelTimer α) × TimerWheel α
  | 0, fired, wheel => (fired, wheel)
  | budget + 1, fired, wheel =>
    match wheel.next? with
    | none => (fired, { wheel with elapsed := now })
    | some place =>
      if place.start ≤ now then
        let (due, wheel) := wheel.enter place
        pass now budget (fired ++ due) wheel
      else (fired, { wheel with elapsed := now })

/-- Lets time pass until `now`; the timers that are taken off, in the order in which they are.
Every slot that time comes to starts at a later millisecond, so that there are no more of them than
milliseconds. -/
def advanceTo (wheel : TimerWheel α) (now : Nat) : List (WheelTimer α) × TimerWheel α :=
  pass now (now - wheel.elapsed) [] wheel

/-- A timer that is put on the wheel comes behind all others. -/
theorem timers_insert? {wheel after : TimerWheel α} {due : Nat} {task : α}
    (h : wheel.insert? due task = some after) :
    after.timers = wheel.timers ++ [⟨due, levelFor wheel.elapsed due, task⟩] := by
  unfold insert? at h
  split at h
  · cases h
  · cases h
    rfl

theorem span_pos : ∀ level, 0 < span level
  | 0 => Nat.one_pos
  | level + 1 => Nat.mul_pos (by decide) (span_pos level)

/-- The slot that a level comes to next starts later than the present. -/
theorem lt_start_of_nextOn {wheel : TimerWheel α} {level : Nat} {place : SlotStart}
    (h : wheel.nextOn level = some place) : wheel.elapsed < place.start := by
  unfold nextOn at h
  split at h
  · cases h
  · cases h
    have hp := span_pos (level + 1)
    have hlt : wheel.elapsed < wheel.elapsed / span (level + 1) * span (level + 1) +
        span (level + 1) := Nat.lt_div_mul_add hp
    dsimp only
    split <;> omega

/-- The slot that time comes to next starts later than the present. -/
theorem lt_start_of_next? {wheel : TimerWheel α} {place : SlotStart}
    (h : wheel.next? = some place) : wheel.elapsed < place.start := by
  obtain ⟨level, _, hlevel⟩ := List.exists_of_findSome?_eq_some h
  exact lt_start_of_nextOn hlevel

theorem elapsed_pass {now : Nat} {budget : Nat} {fired : List (WheelTimer α)}
    {wheel : TimerWheel α} (hle : wheel.elapsed ≤ now) (hb : now - wheel.elapsed ≤ budget) :
    (pass now budget fired wheel).2.elapsed = now := by
  induction budget generalizing fired wheel with
  | zero => exact Nat.le_antisymm hle (Nat.sub_eq_zero_iff_le.mp (Nat.le_zero.mp hb))
  | succ budget ih =>
    unfold pass
    split
    · rfl
    · rename_i place hnext
      have := lt_start_of_next? hnext
      split
      · refine ih ?_ ?_
        · exact ‹_›
        · change now - place.start ≤ budget
          omega
      · rfl

/-- Time passes as far as it is let. -/
theorem elapsed_advanceTo {wheel : TimerWheel α} {now : Nat} (h : wheel.elapsed ≤ now) :
    (wheel.advanceTo now).2.elapsed = now :=
  elapsed_pass h (Nat.le_refl _)

theorem due_of_mem_pass {now budget : Nat} {fired : List (WheelTimer α)} {wheel : TimerWheel α}
    (h : ∀ timer ∈ fired, timer.due ≤ now) :
    ∀ timer ∈ (pass now budget fired wheel).1, timer.due ≤ now := by
  induction budget generalizing fired wheel with
  | zero => exact h
  | succ budget ih =>
    unfold pass
    split
    · exact h
    · split
      · rename_i place _ hstart
        refine ih fun timer hmem => ?_
        rcases List.mem_append.mp hmem with hmem | hmem
        · exact h timer hmem
        · have := of_decide_eq_true (List.mem_filter.mp hmem).2
          omega
      · exact h

/-- A timer that is taken off is due. -/
theorem due_of_mem_advanceTo (wheel : TimerWheel α) (now : Nat) :
    ∀ timer ∈ (wheel.advanceTo now).1, timer.due ≤ now :=
  due_of_mem_pass (by simp)

/-- Coming to a slot loses no task and makes none. -/
theorem perm_enter (wheel : TimerWheel α) (place : SlotStart) :
    ((wheel.enter place).1.map (·.task) ++ (wheel.enter place).2.timers.map (·.task)).Perm
      (wheel.timers.map (·.task)) := by
  have hslot := (List.filter_append_perm (liesIn place) wheel.timers).map (·.task)
  have hdue := (List.filter_append_perm (fun timer => decide (timer.due ≤ place.start))
    (wheel.timers.filter (liesIn place))).map (·.task)
  simp only [List.map_append] at hslot hdue
  simp only [enter, List.map_append, List.map_map, Function.comp_def]
  refine .trans ?_ hslot
  refine .trans (List.Perm.append_left _ List.perm_append_comm) ?_
  rw [← List.append_assoc]
  exact hdue.append_right _

theorem perm_pass {now budget : Nat} {fired : List (WheelTimer α)} {wheel : TimerWheel α} :
    ((pass now budget fired wheel).1.map (·.task) ++
      (pass now budget fired wheel).2.timers.map (·.task)).Perm
      (fired.map (·.task) ++ wheel.timers.map (·.task)) := by
  induction budget generalizing fired wheel with
  | zero => exact .refl _
  | succ budget ih =>
    unfold pass
    split
    · exact .refl _
    · split
      · refine ih.trans ?_
        rw [List.map_append, List.append_assoc]
        exact (perm_enter wheel _).append_left _
      · exact .refl _

/-- The tasks taken off and those that still wait are those that waited before. -/
theorem perm_advanceTo (wheel : TimerWheel α) (now : Nat) :
    ((wheel.advanceTo now).1.map (·.task) ++ (wheel.advanceTo now).2.timers.map (·.task)).Perm
      (wheel.timers.map (·.task)) :=
  perm_pass

end TimerWheel

end ModemLink
