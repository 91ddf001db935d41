import Mathlib.Logic.Relation
import ModemLink.Proofs.Clockwork

/-!
# The tasks of an advance

An advance takes the first timer off as long as it is due, runs its task, and looks again.  A task
may schedule others, some of which are due before timers that wait already, or at the very deadline
at which it runs.  What it schedules is told by the tasks that have run before it in the advance.

The tasks that run come in line all the same.  A new timer is due no earlier than the task that puts
it, and was scheduled after it; so it comes behind that task, and behind all that ran before.

* `Timeline.scheduleAll_eq_ok` -- what a task schedules lies behind it;
* `Course.Keeps` -- the tasks that ran and those that wait, at any time during an advance;
* `Course.runs` -- the course of an advance is a run of the clockwork;
* `Course.ends_iff` -- an advance ends unless a deadline overflows or there is no end of due tasks;
* `Course.runs_due_in_order` -- what it has run when it ends.
-/

namespace ModemLink

open scoped List

/-- A sum beyond the longest duration leaves the range. -/
theorem Duration.add?_eq_error {a b : Duration} (h : maxNanos < a.nanos + b.nanos) :
    a.add? b = .error .durationSum :=
  dif_neg (Nat.not_le.mpr h)

/-! ## Timers -/

theorem Timer.Before.trans {α : Type} {a b c : Timer α} (hab : a.Before b) (hbc : b.Before c) :
    a.Before c := by
  unfold Before at *
  omega

namespace Timeline

variable {α : Type} {timeline after : Timeline α} {target : Duration}

/-- Takes the next timer off that is due by `target`. -/
def popTimer? (timeline : Timeline α) (target : Duration) : Option (Timer α × Timeline α) :=
  match timeline.queue with
  | [] => none
  | first :: _ => (timeline.popDue? target).map fun popped => (first, popped.2)

/-- It is the next timer that is taken off, with the clock at its deadline. -/
theorem popTimer?_eq_some {timer : Timer α} (h : timeline.popTimer? target = some (timer, after)) :
    timeline.popDue? target = some (timer.task, after) ∧ timeline.queue = timer :: after.queue ∧
      after.now = timer.deadline ∧ timer.deadline.nanos ≤ target.nanos ∧
      after.nextOrder = timeline.nextOrder := by
  unfold popTimer? at h
  split at h
  · cases h
  rename_i first rest hqueue
  obtain ⟨⟨task, popped⟩, hpop, heq⟩ := Option.map_eq_some_iff.mp h
  cases heq
  obtain ⟨head, tail, hqueue', htask, hdue, hafter⟩ := popDue?_eq_some hpop
  rw [hqueue] at hqueue'
  cases hqueue'
  rw [hafter, htask]
  exact ⟨hafter ▸ hpop, hqueue, rfl, hdue, rfl⟩

theorem popTimer?_eq_none_iff :
    timeline.popTimer? target = none ↔ timeline.popDue? target = none := by
  unfold popTimer?
  cases hqueue : timeline.queue with
  | nil => simp [popDue?, hqueue]
  | cons first rest => exact Option.map_eq_none_iff

/-- Schedules tasks one after another, and lists their timers. -/
def scheduleAll (timeline : Timeline α) :
    List (Duration × α) → Except Overflow (List (Timer α) × Timeline α)
  | [] => return ([], timeline)
  | (delay, task) :: rest => do
    let deadline ← timeline.now.add? delay
    let (timers, last) ← (← timeline.schedule delay task).scheduleAll rest
    return (⟨deadline, timeline.nextOrder, task⟩ :: timers, last)

/-- What scheduling tasks one after another comes to. -/
theorem scheduleAll_cons_eq_ok {delay : Duration} {task : α} {rest : List (Duration × α)}
    {put : List (Timer α)} (h : timeline.scheduleAll ((delay, task) :: rest) = .ok (put, after)) :
    ∃ deadline next timers, timeline.schedule delay task = .ok next ∧
      next.queue ~ ⟨deadline, timeline.nextOrder, task⟩ :: timeline.queue ∧
      next.now = timeline.now ∧ next.nextOrder = timeline.nextOrder + 1 ∧
      deadline.nanos = timeline.now.nanos + delay.nanos ∧
      next.scheduleAll rest = .ok (timers, after) ∧
      put = ⟨deadline, timeline.nextOrder, task⟩ :: timers := by
  unfold scheduleAll at h
  cases hsum : timeline.now.add? delay with
  | error overflow => simp [hsum, bind, Except.bind] at h
  | ok deadline =>
      cases hschedule : timeline.schedule delay task with
      | error overflow => simp [hsum, hschedule, bind, Except.bind] at h
      | ok next =>
          cases hrest : next.scheduleAll rest with
          | error overflow => simp [hsum, hschedule, hrest, bind, Except.bind] at h
          | ok outcome =>
              simp only [hsum, hschedule, hrest, bind, Except.bind, pure, Except.pure] at h
              cases h
              obtain ⟨deadline', hdeadline, rfl⟩ := schedule_eq_ok hschedule
              have hsame : deadline' = deadline :=
                Duration.ext (hdeadline.trans (Duration.add?_eq_ok_iff.mp hsum).symm)
              subst hsame
              exact ⟨deadline', _, outcome.1, rfl, perm_enqueue _ _, rfl, rfl, hdeadline, hrest,
                rfl⟩

/-- What a task schedules is due no earlier than the clock shows, and has numbers that no timer had
before. -/
theorem Lined.scheduleAll (h : timeline.Lined) {plans : List (Duration × α)}
    {put : List (Timer α)} (hschedule : timeline.scheduleAll plans = .ok (put, after)) :
    after.Lined ∧ after.now = timeline.now ∧ timeline.nextOrder ≤ after.nextOrder ∧
      after.queue ~ put ++ timeline.queue ∧
      ∀ timer ∈ put, timeline.now.nanos ≤ timer.deadline.nanos ∧
        timeline.nextOrder ≤ timer.order := by
  induction plans generalizing timeline put with
  | nil =>
      cases hschedule
      exact ⟨h, rfl, Nat.le_refl _, .refl _, fun _ hmem => absurd hmem List.not_mem_nil⟩
  | cons plan rest ih =>
      obtain ⟨delay, task⟩ := plan
      obtain ⟨deadline, next, timers, hnext, hperm, hnow, horder, hdeadline, hrest, rfl⟩ :=
        scheduleAll_cons_eq_ok hschedule
      obtain ⟨hlined, hnow', horder', hperm', hput⟩ := ih (h.schedule hnext) hrest
      refine ⟨hlined, hnow'.trans hnow, by omega, ?_, fun timer hmem => ?_⟩
      · calc after.queue ~ timers ++ next.queue := hperm'
          _ ~ timers ++ ⟨deadline, timeline.nextOrder, task⟩ :: timeline.queue :=
            hperm.append_left timers
          _ ~ ⟨deadline, timeline.nextOrder, task⟩ :: timers ++ timeline.queue :=
            List.perm_middle
      · rcases List.mem_cons.mp hmem with rfl | hlater
        · exact ⟨hdeadline ▸ Nat.le_add_right _ _, Nat.le_refl _⟩
        · obtain ⟨hle, hnumber⟩ := hput timer hlater
          rw [hnow] at hle
          exact ⟨hle, by omega⟩

end Timeline

/-! ## Courses -/

/-- What the tasks of an advance schedule: told from the timers of those that have run, with the one
that is running in front. -/
abbrev Tasks (α : Type) := List (Timer α) → List (Duration × α)

/-- A task that ran in an advance: its timer, the timeline when it began and when it was done, and
the timers that it put. -/
structure Stint (α : Type) where
  timer : Timer α
  began : Timeline α
  put : List (Timer α)
  ended : Timeline α

/-- An advance under way, and what it has run, the latest in front. -/
structure Course (α : Type) where
  timeline : Timeline α
  advance : Advance
  ran : List (Stint α)

namespace Course

variable {α : Type}

/-- The timers of the tasks that have run. -/
def timers (c : Course α) : List (Timer α) := c.ran.map (·.timer)

/-- The timers that were put during the advance. -/
def scheduled (c : Course α) : List (Timer α) := c.ran.flatMap (·.put)

/-- One round of an advance: none if no timer is due. -/
def next (tasks : Tasks α) (c : Course α) : Except Overflow (Option (Course α)) :=
  match c.timeline.popTimer? c.advance.target with
  | none => .ok none
  | some (timer, began) => do
    let (put, ended) ← began.scheduleAll (tasks (timer :: c.timers))
    return some ⟨ended, c.advance.step, ⟨timer, began, put, ended⟩ :: c.ran⟩

/-- The timers that fall due: of those that waited at first, and those that were put since. -/
def due (first : Timeline α) (target : Duration) (c : Course α) : List (Timer α) :=
  (first.queue ++ c.scheduled).filter fun timer => decide (timer.deadline ≤ target)

variable {tasks : Tasks α} {c d e : Course α}

theorem next_eq_some (h : c.next tasks = .ok (some d)) :
    ∃ timer began put ended, c.timeline.popTimer? c.advance.target = some (timer, began) ∧
      began.scheduleAll (tasks (timer :: c.timers)) = .ok (put, ended) ∧
      d = ⟨ended, c.advance.step, ⟨timer, began, put, ended⟩ :: c.ran⟩ := by
  unfold next at h
  split at h
  · cases h
  · rename_i timer began hpop
    cases hschedule : began.scheduleAll (tasks (timer :: c.timers)) with
    | error overflow => simp [hschedule, bind, Except.bind] at h
    | ok outcome =>
        simp only [hschedule, bind, Except.bind, pure, Except.pure] at h
        cases h
        exact ⟨timer, began, outcome.1, outcome.2, hpop, hschedule, rfl⟩

theorem popDue?_of_next_eq_none (h : c.next tasks = .ok none) :
    c.timeline.popDue? c.advance.target = none := by
  unfold next at h
  split at h
  · rename_i hnone
    exact Timeline.popTimer?_eq_none_iff.mp hnone
  · rename_i timer began _
    cases hschedule : began.scheduleAll (tasks (timer :: c.timers)) with
    | error overflow => simp [hschedule, bind, Except.bind] at h
    | ok outcome =>
        simp only [hschedule, bind, Except.bind, pure, Except.pure] at h
        cases h

theorem length_ran_of_next (h : c.next tasks = .ok (some d)) :
    d.ran.length = c.ran.length + 1 := by
  obtain ⟨timer, began, put, ended, -, -, rfl⟩ := next_eq_some h
  rfl

/-- The rounds of an advance. -/
def Comes (tasks : Tasks α) : Course α → Course α → Prop :=
  Relation.ReflTransGen fun c d => c.next tasks = .ok (some d)

/-- The tasks that have run in an advance came in line, before all that wait; they are the timers
that are gone, of those that waited at first and those that were put since; and the clock showed the
deadline of each as long as it ran. -/
structure Keeps (first : Timeline α) (target : Duration) (c : Course α) : Prop where
  lined : c.timeline.Lined
  leads : c.advance.target = target
  fired : c.advance.fired = c.ran.length
  order : c.timers.Pairwise fun later earlier => earlier.Before later
  front : ∀ old ∈ c.timers, ∀ timer ∈ c.timeline.queue, old.Before timer
  known : ∀ old ∈ c.timers, old.order < c.timeline.nextOrder
  gone : c.timers ++ c.timeline.queue ~ first.queue ++ c.scheduled
  clock : ∀ stint ∈ c.ran, stint.timer.deadline.nanos ≤ target.nanos ∧
    stint.began.now = stint.timer.deadline ∧ stint.ended.now = stint.timer.deadline

namespace Keeps

variable {first : Timeline α} {target : Duration}

theorem start (hlined : first.Lined) : Keeps first target ⟨first, ⟨target, 0⟩, []⟩ :=
  ⟨hlined, rfl, rfl, List.Pairwise.nil, fun _ hmem => absurd hmem List.not_mem_nil,
    fun _ hmem => absurd hmem List.not_mem_nil, by simp [timers, scheduled],
    fun _ hmem => absurd hmem List.not_mem_nil⟩

/-- Every round keeps it. -/
theorem next (h : Keeps first target c) (hnext : c.next tasks = .ok (some d)) :
    Keeps first target d := by
  obtain ⟨timer, began, put, ended, hpop, hschedule, rfl⟩ := next_eq_some hnext
  obtain ⟨hpop, hqueue, hnow, hdue, horder⟩ := Timeline.popTimer?_eq_some hpop
  obtain ⟨hended, hnow', horder', hperm, hput⟩ := (h.lined.popDue hpop).scheduleAll hschedule
  have hmem : timer ∈ c.timeline.queue := by
    rw [hqueue]
    exact List.mem_cons_self ..
  have hnumber : timer.order < began.nextOrder := horder ▸ h.lined.known timer hmem
  have hsorted := h.lined.sorted
  rw [hqueue] at hsorted
  -- what waits now was put by the task, or waited behind it
  have hbehind : ∀ other ∈ ended.queue, timer.Before other := by
    intro other hother
    rcases List.mem_append.mp (hperm.mem_iff.mp hother) with hnew | hold
    · obtain ⟨hle, hlater⟩ := hput other hnew
      rw [hnow] at hle
      unfold Timer.Before
      omega
    · exact (List.pairwise_cons.mp hsorted).1 other hold
  refine ⟨hended, h.leads, congrArg (· + 1) h.fired,
    List.pairwise_cons.mpr ⟨fun old hold => h.front old hold timer hmem, h.order⟩,
    fun old hold other hother => ?_, fun old hold => ?_, ?_, fun stint hstint => ?_⟩
  · rcases List.mem_cons.mp hold with rfl | hearlier
    · exact hbehind other hother
    · exact (h.front old hearlier timer hmem).trans (hbehind other hother)
  · refine Nat.lt_of_lt_of_le ?_ horder'
    rcases List.mem_cons.mp hold with rfl | hearlier
    · exact hnumber
    · exact horder ▸ h.known old hearlier
  · calc timer :: c.timers ++ ended.queue
        ~ timer :: c.timers ++ (put ++ began.queue) := hperm.append_left _
      _ ~ put ++ (c.timers ++ timer :: began.queue) := by
        refine (List.perm_append_comm_assoc _ _ _).trans (List.Perm.append_left put ?_)
        exact List.perm_middle.symm
      _ = put ++ (c.timers ++ c.timeline.queue) := by rw [hqueue]
      _ ~ put ++ (first.queue ++ c.scheduled) := h.gone.append_left put
      _ ~ first.queue ++ (put ++ c.scheduled) := List.perm_append_comm_assoc _ _ _
  · rcases List.mem_cons.mp hstint with rfl | hearlier
    · exact ⟨h.leads ▸ hdue, hnow, hnow'.trans hnow⟩
    · exact h.clock stint hearlier

theorem comes (h : Keeps first target c) (hcomes : Comes tasks c d) : Keeps first target d := by
  induction hcomes with
  | refl => exact h
  | tail _ hnext ih => exact ih.next hnext

/-- All that ran was due. -/
theorem timers_due (h : Keeps first target c) :
    (c.timers.filter fun timer => decide (timer.deadline ≤ target)) = c.timers := by
  refine List.filter_eq_self.mpr fun timer hmem => ?_
  obtain ⟨stint, hstint, rfl⟩ := List.mem_map.mp hmem
  exact decide_eq_true (h.clock stint hstint).1

/-- No more tasks have run than have fallen due. -/
theorem length_ran_le (h : Keeps first target c) : c.ran.length ≤ (c.due first target).length := by
  have hdue := h.gone.filter fun timer => decide (timer.deadline ≤ target)
  rw [List.filter_append, h.timers_due] at hdue
  have hlength := hdue.length_eq
  rw [List.length_append, timers, List.length_map] at hlength
  unfold due
  omega

/-- If nothing is due any more, all that fell due has run, and what waits is due later. -/
theorem ended (h : Keeps first target c) (hnone : c.next tasks = .ok none) :
    c.timers ~ c.due first target ∧
      ∀ timer ∈ c.timeline.queue, target.nanos < timer.deadline.nanos := by
  have hpop : c.timeline.popDue? target = none := h.leads ▸ popDue?_of_next_eq_none hnone
  have hlater := h.lined.ordered.lt_deadline hpop
  refine ⟨?_, hlater⟩
  have hdue := h.gone.filter fun timer => decide (timer.deadline ≤ target)
  have hwaiting : (c.timeline.queue.filter fun timer => decide (timer.deadline ≤ target)) = [] := by
    refine List.filter_eq_nil_iff.mpr fun timer hmem hle => ?_
    exact absurd (hlater timer hmem) (Nat.not_lt.mpr (of_decide_eq_true hle))
  rw [List.filter_append, h.timers_due, hwaiting, List.append_nil] at hdue
  exact hdue

end Keeps

/-! ## The end of an advance -/

/-- No round is cut off by a deadline that is out of range. -/
def Fits (tasks : Tasks α) (c : Course α) : Prop :=
  ∀ d, Comes tasks c d → ∀ overflow, d.next tasks ≠ .error overflow

/-- There is an end of the timers that fall due. -/
def FinitelyDue (tasks : Tasks α) (c : Course α) : Prop :=
  ∃ n, ∀ d, Comes tasks c d → (d.due c.timeline c.advance.target).length ≤ n

/-- An advance that comes to its end comes there from every round. -/
theorem Comes.to_end (hd : Comes tasks c d) (hnone : d.next tasks = .ok none)
    (he : Comes tasks c e) : Comes tasks e d := by
  have hunique : Relator.RightUnique fun c d : Course α => c.next tasks = .ok (some d) := by
    intro c d e hd he
    exact Option.some.inj (Except.ok.inj (hd.symm.trans he))
  rcases Relation.ReflTransGen.total_of_right_unique hunique he hd with hed | hde
  · exact hed
  · rcases Relation.ReflTransGen.cases_head hde with rfl | ⟨f, hnext, -⟩
    · exact .refl
    · rw [hnone] at hnext
      cases hnext

/-- What was put during an advance is not forgotten. -/
theorem Comes.scheduled_suffix (h : Comes tasks c d) : c.scheduled <:+ d.scheduled := by
  induction h with
  | refl => exact List.suffix_refl _
  | tail _ hnext ih =>
      obtain ⟨timer, began, put, ended, -, -, rfl⟩ := next_eq_some hnext
      exact ih.trans (List.suffix_append put _)

/-- An advance goes on until it ends, as long as few enough timers fall due. -/
theorem Keeps.ends {first : Timeline α} {target : Duration} (h : Keeps first target c)
    (hfits : Fits tasks c) {n : Nat}
    (hdue : ∀ d, Comes tasks c d → (d.due first target).length ≤ n) :
    ∃ d, Comes tasks c d ∧ d.next tasks = .ok none := by
  induction hleft : n - c.ran.length generalizing c with
  | zero =>
      cases hnext : c.next tasks with
      | error overflow => exact absurd hnext (hfits c .refl overflow)
      | ok round =>
          cases round with
          | none => exact ⟨c, .refl, hnext⟩
          | some d =>
              -- one task more would have run than may fall due
              have hran := Nat.le_trans (h.next hnext).length_ran_le (hdue d (.single hnext))
              rw [length_ran_of_next hnext] at hran
              omega
  | succ left ih =>
      cases hnext : c.next tasks with
      | error overflow => exact absurd hnext (hfits c .refl overflow)
      | ok round =>
          cases round with
          | none => exact ⟨c, .refl, hnext⟩
          | some d =>
              have hran := length_ran_of_next hnext
              obtain ⟨e, hcomes, hnone⟩ := ih (h.next hnext)
                (fun e he => hfits e (.head hnext he)) (fun e he => hdue e (.head hnext he))
                (by omega)
              exact ⟨e, .head hnext hcomes, hnone⟩

/-- An advance comes to its end exactly if no deadline is out of range and there is an end of the
timers that fall due. -/
theorem ends_iff {first : Timeline α} {target : Duration} (hlined : first.Lined) :
    (∃ d, Comes tasks ⟨first, ⟨target, 0⟩, []⟩ d ∧ d.next tasks = .ok none) ↔
      Fits tasks ⟨first, ⟨target, 0⟩, []⟩ ∧ FinitelyDue tasks ⟨first, ⟨target, 0⟩, []⟩ := by
  constructor
  · rintro ⟨d, hd, hnone⟩
    refine ⟨fun e he overflow herror => ?_, (d.due first target).length, fun e he => ?_⟩
    · rcases Relation.ReflTransGen.cases_head (hd.to_end hnone he) with rfl | ⟨f, hnext, -⟩
      · rw [hnone] at herror
        cases herror
      · rw [hnext] at herror
        cases herror
    · have hsuffix := (hd.to_end hnone he).scheduled_suffix
      have hsublist : e.due first target <+ d.due first target :=
        (hsuffix.sublist.append_left first.queue).filter _
      exact hsublist.length_le
  · rintro ⟨hfits, n, hdue⟩
    exact (Keeps.start hlined).ends hfits hdue

/-! ## The course of an advance as a run -/

/-- What a task schedules it schedules one after another. -/
theorem runs_scheduleAll {timeline after : Timeline α} {plans : List (Duration × α)}
    {put : List (Timer α)} (below : List Advance)
    (h : timeline.scheduleAll plans = .ok (put, after)) :
    ∃ history, Clockwork.Run ⟨timeline, .code below⟩ history ⟨after, .code below⟩ := by
  induction plans generalizing timeline put with
  | nil =>
      cases h
      exact ⟨[], .start⟩
  | cons plan rest ih =>
      obtain ⟨delay, task⟩ := plan
      obtain ⟨deadline, next, timers, hnext, -, -, -, -, hrest, -⟩ :=
        Timeline.scheduleAll_cons_eq_ok h
      obtain ⟨history, run⟩ := ih hrest
      exact ⟨_, (Clockwork.Run.start.step (.schedule hnext)).trans run⟩

/-- The rounds of an advance are moves of the clockwork. -/
theorem Comes.runs (below : List Advance) (h : Comes tasks c d) :
    ∃ history, Clockwork.Run ⟨c.timeline, .loop c.advance below⟩ history
      ⟨d.timeline, .loop d.advance below⟩ := by
  induction h with
  | refl => exact ⟨[], .start⟩
  | @tail d e _ hnext ih =>
      obtain ⟨history, run⟩ := ih
      obtain ⟨timer, began, put, ended, hpop, hschedule, rfl⟩ := next_eq_some hnext
      obtain ⟨hpop, hqueue, -⟩ := Timeline.popTimer?_eq_some hpop
      obtain ⟨later, inside⟩ := runs_scheduleAll (d.advance :: below) hschedule
      exact ⟨_, ((run.step (.run hqueue hpop)).trans inside).step .done⟩

/-- **The order of tasks.**  Code lets time pass on a timeline that has been used in whatever way,
and the tasks that fall due schedule others, but let no time pass themselves.  The advance comes to
its end exactly if no deadline is out of range and there is an end of the tasks that fall due.  Then
it has run each of these once, in the order of their deadlines and among equal deadlines in the
order in which they were scheduled; the clock showed the deadline of each as long as it ran; and it
has counted them.  In the end the clock shows where the advance led, and what waits is due later. -/
theorem runs_due_in_order {first : Timeline α} {below : List Advance}
    {history : List (Clockwork.Moment α)} {length : Duration} {advance : Advance}
    (run : Clockwork.Run .start history ⟨first, .code below⟩)
    (hbegin : first.beginAdvance length = .ok advance) (tasks : Tasks α) :
    ((∃ d, Comes tasks ⟨first, advance, []⟩ d ∧ d.next tasks = .ok none) ↔
      Fits tasks ⟨first, advance, []⟩ ∧ FinitelyDue tasks ⟨first, advance, []⟩) ∧
    ∀ d, Comes tasks ⟨first, advance, []⟩ d → d.next tasks = .ok none →
      d.timers.reverse.Pairwise Timer.Before ∧
      d.timers.reverse ~ d.due first advance.target ∧
      (∀ stint ∈ d.ran, stint.began.now = stint.timer.deadline ∧
        stint.ended.now = stint.timer.deadline) ∧
      d.advance.fired = d.timers.length ∧
      advance.target.nanos = first.now.nanos + length.nanos ∧
      (∀ timer ∈ d.timeline.queue, advance.target.nanos < timer.deadline.nanos) ∧
      ∃ later, Clockwork.Run ⟨first, .code below⟩ later
        ⟨d.timeline.setNow advance.target, .code below⟩ := by
  have hlined : first.Lined := run.lined Timeline.lined_start
  obtain ⟨htarget, hfired⟩ := Timeline.beginAdvance_eq_ok hbegin
  obtain ⟨target, fired⟩ := advance
  cases hfired
  refine ⟨ends_iff hlined, fun d hcomes hnone => ?_⟩
  have hkeeps := (Keeps.start hlined).comes hcomes
  obtain ⟨hall, hlater⟩ := hkeeps.ended hnone
  refine ⟨?_, (List.reverse_perm _).trans hall, fun stint hmem => (hkeeps.clock stint hmem).2, ?_,
    htarget, hlater, ?_⟩
  · exact List.pairwise_reverse.mpr hkeeps.order
  · rw [hkeeps.fired, timers, List.length_map]
  · obtain ⟨later, rounds⟩ := hcomes.runs below
    have begun : Clockwork.Run ⟨first, .code below⟩ _ ⟨first, .loop ⟨target, 0⟩ below⟩ :=
      Clockwork.Run.start.step (.advance hbegin)
    have arrived := (begun.trans rounds).step (.arrive (popDue?_of_next_eq_none hnone))
    rw [hkeeps.leads] at arrived
    exact ⟨_, arrived⟩

/-- A task is due after 5 ns and another after 7 ns.  The first schedules three: one for the same
time, one for 6 ns, and one that is not due within 10 ns. -/
theorem runs_due_in_order_of_new_tasks :
    ∃ (tasks : Tasks String) (history : List (Clockwork.Moment String)) (first : Timeline String)
      (advance : Advance) (d : Course String),
      Clockwork.Run .start history ⟨first, .code []⟩ ∧
      first.beginAdvance ⟨10, by decide⟩ = .ok advance ∧ Comes tasks ⟨first, advance, []⟩ d ∧
      d.timers.reverse.map (·.task) = ["a", "c", "d", "b"] ∧
      d.timers.reverse.Pairwise Timer.Before ∧
      d.timers.reverse ~ d.due first advance.target := by
  let five : Duration := ⟨5, by decide⟩
  let seven : Duration := ⟨7, by decide⟩
  let tasks : Tasks String := fun ran =>
    if ran.length = 1 then
      [(⟨0, by decide⟩, "c"), (⟨1, by decide⟩, "d"), (⟨100, by decide⟩, "e")]
    else []
  let one : Timeline String := ⟨.zero, 1, [⟨five, 0, "a"⟩]⟩
  let two : Timeline String := ⟨.zero, 2, [⟨five, 0, "a"⟩, ⟨seven, 1, "b"⟩]⟩
  have hone : Timeline.start.schedule five "a" = .ok one := rfl
  have htwo : one.schedule seven "b" = .ok two := rfl
  have run : Clockwork.Run .start _ ⟨two, .code []⟩ :=
    (Clockwork.Run.start.step (.schedule hone)).step (.schedule htwo)
  have hbegin : two.beginAdvance ⟨10, by decide⟩ = .ok ⟨⟨10, by decide⟩, 0⟩ := rfl
  have hcomes : Comes tasks ⟨two, ⟨⟨10, by decide⟩, 0⟩, []⟩ _ :=
    .head rfl (.head rfl (.head rfl (.head rfl .refl)))
  obtain ⟨horder, hdue, -⟩ := (runs_due_in_order run hbegin tasks).2 _ hcomes rfl
  exact ⟨tasks, _, two, _, _, run, hbegin, hcomes, rfl, horder, hdue⟩

/-- A task is due after 5 ns and another after 7 ns.  The first schedules one whose deadline is out
of range.  An advance by 10 ns is cut off there: it never ends, the clock stays at 5 ns, and the
other task waits. -/
theorem cut_off_by_new_task :
    ∃ (tasks : Tasks String) (history later : List (Clockwork.Moment String))
      (first left : Timeline String) (advance : Advance),
      Clockwork.Run .start history ⟨first, .code []⟩ ∧
      first.beginAdvance ⟨10, by decide⟩ = .ok advance ∧
      FinitelyDue tasks ⟨first, advance, []⟩ ∧
      (∀ d, Comes tasks ⟨first, advance, []⟩ d → d.next tasks ≠ .ok none) ∧
      Clockwork.Run ⟨first, .code []⟩ later ⟨left, .code []⟩ ∧ left.now.nanos = 5 ∧
      ∃ timer ∈ left.queue, timer.deadline.nanos = 7 := by
  let five : Duration := ⟨5, by decide⟩
  let seven : Duration := ⟨7, by decide⟩
  let ten : Duration := ⟨10, by decide⟩
  let longest : Duration := ⟨Duration.maxNanos, Nat.le_refl _⟩
  let tasks : Tasks String := fun _ => [(longest, "c")]
  let one : Timeline String := ⟨.zero, 1, [⟨five, 0, "a"⟩]⟩
  let two : Timeline String := ⟨.zero, 2, [⟨five, 0, "a"⟩, ⟨seven, 1, "b"⟩]⟩
  let left : Timeline String := ⟨five, 2, [⟨seven, 1, "b"⟩]⟩
  have hone : Timeline.start.schedule five "a" = .ok one := rfl
  have htwo : one.schedule seven "b" = .ok two := rfl
  have run : Clockwork.Run .start _ ⟨two, .code []⟩ :=
    (Clockwork.Run.start.step (.schedule hone)).step (.schedule htwo)
  have hbegin : two.beginAdvance ten = .ok ⟨ten, 0⟩ := rfl
  have hpop : two.popTimer? ten = some (⟨five, 0, "a"⟩, left) := rfl
  have hsum : left.now.add? longest = .error .durationSum :=
    Duration.add?_eq_error (Nat.lt_add_of_pos_left (by decide))
  have herror : (Course.mk two ⟨ten, 0⟩ []).next tasks = .error .durationSum := by
    simp only [next, hpop, tasks, Timeline.scheduleAll, hsum]
    rfl
  have hstays : ∀ d, Comes tasks ⟨two, ⟨ten, 0⟩, []⟩ d → d = ⟨two, ⟨ten, 0⟩, []⟩ := by
    intro d hcomes
    rcases Relation.ReflTransGen.cases_head hcomes with rfl | ⟨e, hnext, -⟩
    · rfl
    · rw [herror] at hnext
      cases hnext
  have begun : Clockwork.Run ⟨two, .code []⟩ _ ⟨two, .loop ⟨ten, 0⟩ []⟩ :=
    Clockwork.Run.start.step (.advance hbegin)
  have ran : Clockwork.Run ⟨two, .code []⟩ _ ⟨left, .code [⟨ten, 0⟩]⟩ :=
    begun.step (.run rfl rfl)
  refine ⟨tasks, _, _, two, left, ⟨ten, 0⟩, run, hbegin, ⟨2, fun d hcomes => ?_⟩,
    fun d hcomes => ?_, ran.step .cut, rfl, _, List.mem_cons_self .., rfl⟩
  · rw [hstays d hcomes]
    exact List.length_filter_le _ _
  · rw [hstays d hcomes, herror]
    exact fun heq => by cases heq

end Course

end ModemLink
