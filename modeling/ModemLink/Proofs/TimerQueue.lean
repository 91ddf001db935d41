import Mathlib.Data.List.Perm.Basic
import Mathlib.Order.Defs.Unbundled
import ModemLink.Timeline

/-!
# The queue of timers

A timeline is in order when its timers lie in the order of their deadlines and none of them is
overdue.  Scheduling keeps it so, and so does taking off what is due; an advance that has taken off
all that is due by its target may set the clock there.

Seen from one task, only the timers of that task count.  What is scheduled for other tasks leaves
them alone.

* `perm_enqueue`, `pairwise_enqueue` -- a new timer lies beside the others, in its place;
* `Ordered.schedule`, `Ordered.popDue`, `Ordered.setNow` -- every operation keeps the order;
* `timersOf_schedule_of_ne`, `perm_timersOf_schedule` -- the timers of a task after something was
  scheduled;
* `Spares` -- the clock stands, the order is kept, and the timers of a task are left alone.
-/

namespace ModemLink

namespace Timeline

open scoped List

variable {α : Type} {timeline after : Timeline α} {delay target : Duration} {task : α}

/-! ## Order -/

/-- A new timer lies beside the others. -/
theorem perm_enqueue (timer : Timer α) (queue : List (Timer α)) :
    enqueue timer queue ~ timer :: queue := by
  induction queue with
  | nil => exact .refl _
  | cons first rest ih =>
      unfold enqueue
      split
      · exact (ih.cons first).trans (.swap timer first rest)
      · exact .refl _

/-- A new timer finds its place in a queue that is in order. -/
theorem pairwise_enqueue (timer : Timer α) {queue : List (Timer α)}
    (h : queue.Pairwise fun a b => a.deadline.nanos ≤ b.deadline.nanos) :
    (enqueue timer queue).Pairwise fun a b => a.deadline.nanos ≤ b.deadline.nanos := by
  induction queue with
  | nil => exact List.pairwise_singleton _ _
  | cons first rest ih =>
      obtain ⟨hfirst, hrest⟩ := List.pairwise_cons.mp h
      unfold enqueue
      split
      · rename_i hle
        refine List.pairwise_cons.mpr ⟨fun other hother => ?_, ih hrest⟩
        rcases List.mem_cons.mp ((perm_enqueue timer rest).mem_iff.mp hother) with rfl | hmem
        · exact hle
        · exact hfirst other hmem
      · rename_i hlt
        have hlt : timer.deadline.nanos < first.deadline.nanos := Nat.lt_of_not_le hlt
        refine List.pairwise_cons.mpr ⟨fun other hother => ?_, h⟩
        rcases List.mem_cons.mp hother with rfl | hmem
        · exact Nat.le_of_lt hlt
        · exact Nat.le_trans (Nat.le_of_lt hlt) (hfirst other hmem)

/-- The timers lie in the order of their deadlines, and none of them is overdue. -/
structure Ordered (timeline : Timeline α) : Prop where
  sorted : timeline.queue.Pairwise fun a b => a.deadline.nanos ≤ b.deadline.nanos
  ahead : ∀ timer ∈ timeline.queue, timeline.now.nanos ≤ timer.deadline.nanos

theorem ordered_start : (start : Timeline α).Ordered :=
  ⟨List.Pairwise.nil, fun _ hmem => absurd hmem List.not_mem_nil⟩

/-- What a task that was scheduled adds to the queue. -/
theorem schedule_eq_ok (h : timeline.schedule delay task = .ok after) :
    ∃ deadline : Duration, deadline.nanos = timeline.now.nanos + delay.nanos ∧
      after = { timeline with
        nextOrder := timeline.nextOrder + 1
        queue := enqueue ⟨deadline, timeline.nextOrder, task⟩ timeline.queue } := by
  unfold schedule at h
  cases hsum : timeline.now.add? delay with
  | error overflow =>
      rw [hsum] at h
      cases h
  | ok deadline =>
      rw [hsum] at h
      cases h
      exact ⟨deadline, Duration.add?_eq_ok_iff.mp hsum, rfl⟩

theorem Ordered.schedule (hordered : timeline.Ordered)
    (h : timeline.schedule delay task = .ok after) : after.Ordered := by
  obtain ⟨deadline, hdeadline, rfl⟩ := schedule_eq_ok h
  refine ⟨pairwise_enqueue _ hordered.sorted, fun timer hmem => ?_⟩
  rcases List.mem_cons.mp ((perm_enqueue _ _).mem_iff.mp hmem) with rfl | hold
  · change timeline.now.nanos ≤ deadline.nanos
    omega
  · exact hordered.ahead timer hold

/-- What is taken off is the first timer, and the clock is set to its deadline. -/
theorem popDue?_eq_some (h : timeline.popDue? target = some (task, after)) :
    ∃ first rest, timeline.queue = first :: rest ∧ first.task = task ∧
      first.deadline.nanos ≤ target.nanos ∧
      after = { timeline with now := first.deadline, queue := rest } := by
  unfold popDue? at h
  split at h
  · cases h
  · rename_i first rest hqueue
    split at h
    · rename_i hdue
      cases h
      exact ⟨first, rest, hqueue, rfl, hdue, rfl⟩
    · cases h

/-- To take the first timer off moves the clock on to its deadline. -/
theorem Ordered.popDue (hordered : timeline.Ordered)
    (h : timeline.popDue? target = some (task, after)) :
    after.Ordered ∧ timeline.now.nanos ≤ after.now.nanos ∧ after.now.nanos ≤ target.nanos := by
  obtain ⟨first, rest, hqueue, -, hdue, rfl⟩ := popDue?_eq_some h
  obtain ⟨hsorted, hahead⟩ := hordered
  rw [hqueue] at hsorted hahead
  obtain ⟨hfirst, hrest⟩ := List.pairwise_cons.mp hsorted
  exact ⟨⟨hrest, hfirst⟩, hahead first (List.mem_cons_self ..), hdue⟩

/-- When nothing is due any more every timer is due later. -/
theorem Ordered.lt_deadline (hordered : timeline.Ordered)
    (h : timeline.popDue? target = none) :
    ∀ timer ∈ timeline.queue, target.nanos < timer.deadline.nanos := by
  have hhead := (popDue?_eq_none_iff timeline target).mp h
  cases hqueue : timeline.queue with
  | nil => exact fun _ hmem => absurd hmem List.not_mem_nil
  | cons first rest =>
      have hlt : target.nanos < first.deadline.nanos :=
        Nat.lt_of_not_le (hhead first (by rw [hqueue]; rfl))
      have hsorted := hordered.sorted
      rw [hqueue] at hsorted
      intro timer hmem
      rcases List.mem_cons.mp hmem with rfl | hmem
      · exact hlt
      · exact Nat.lt_of_lt_of_le hlt ((List.pairwise_cons.mp hsorted).1 timer hmem)

/-- The end of an advance sets the clock to where nothing is due yet. -/
theorem Ordered.setNow (hordered : timeline.Ordered) (h : timeline.popDue? target = none) :
    (timeline.setNow target).Ordered :=
  ⟨hordered.sorted, fun timer hmem => Nat.le_of_lt (hordered.lt_deadline h timer hmem)⟩

/-! ## The timers of one task -/

variable [DecidableEq α]

/-- The timers of a task, the next one in front. -/
def timersOf (task : α) (timeline : Timeline α) : List (Timer α) :=
  timeline.queue.filter (·.task = task)

theorem mem_timersOf {timer : Timer α} :
    timer ∈ timeline.timersOf task ↔ timer ∈ timeline.queue ∧ timer.task = task := by
  simp [timersOf]

/-- What is scheduled for another task does not show. -/
theorem timersOf_schedule_of_ne {other : α} (hne : other ≠ task)
    (h : timeline.schedule delay other = .ok after) :
    after.timersOf task = timeline.timersOf task := by
  obtain ⟨deadline, -, rfl⟩ := schedule_eq_ok h
  unfold timersOf
  change (enqueue _ timeline.queue).filter _ = timeline.queue.filter _
  induction timeline.queue with
  | nil => simp [enqueue, hne]
  | cons first rest ih =>
      unfold enqueue
      split
      · simp only [List.filter_cons, ih]
      · simp [hne]

/-- What is scheduled for the task is one timer more. -/
theorem perm_timersOf_schedule (h : timeline.schedule delay task = .ok after) :
    ∃ timer : Timer α, timer.deadline.nanos = timeline.now.nanos + delay.nanos ∧
      after.timersOf task ~ timer :: timeline.timersOf task := by
  obtain ⟨deadline, hdeadline, rfl⟩ := schedule_eq_ok h
  refine ⟨⟨deadline, timeline.nextOrder, task⟩, hdeadline, ?_⟩
  have hperm := (perm_enqueue ⟨deadline, timeline.nextOrder, task⟩ timeline.queue).filter
    (·.task = task)
  simpa [timersOf] using hperm

/-- To take a timer of another task off does not show. -/
theorem timersOf_popDue_of_ne {other : α} (hne : other ≠ task)
    (h : timeline.popDue? target = some (other, after)) :
    after.timersOf task = timeline.timersOf task := by
  obtain ⟨first, rest, hqueue, hfirst, -, rfl⟩ := popDue?_eq_some h
  simp [timersOf, hqueue, hfirst, hne]

/-- What is taken off for the task was its first timer. -/
theorem timersOf_popDue (h : timeline.popDue? target = some (task, after)) :
    ∃ timer : Timer α, timer.deadline = after.now ∧
      timeline.timersOf task = timer :: after.timersOf task := by
  obtain ⟨first, rest, hqueue, hfirst, -, rfl⟩ := popDue?_eq_some h
  refine ⟨first, rfl, ?_⟩
  simp [timersOf, hqueue, hfirst]

/-- What happens to a timeline spares a task: the clock stands, the order is kept, and the timers of
the task are left alone. -/
structure Spares (task : α) (before after : Timeline α) : Prop where
  now : after.now = before.now
  ordered : before.Ordered → after.Ordered
  timers : after.timersOf task = before.timersOf task

instance (task : α) : IsPreorder (Timeline α) (Spares task) where
  refl _ := ⟨rfl, id, rfl⟩
  trans _ _ _ hab hbc :=
    ⟨hbc.now.trans hab.now, hbc.ordered ∘ hab.ordered, hbc.timers.trans hab.timers⟩

theorem Spares.schedule {other : α} (hne : other ≠ task)
    (h : timeline.schedule delay other = .ok after) : Spares task timeline after := by
  refine ⟨?_, fun hordered => hordered.schedule h, timersOf_schedule_of_ne hne h⟩
  obtain ⟨deadline, -, rfl⟩ := schedule_eq_ok h
  rfl

end Timeline

end ModemLink
