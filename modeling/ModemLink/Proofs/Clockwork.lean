import ModemLink.Proofs.TimerQueue
import ModemLink.Script.Timeline

/-!
# Clockwork

A timeline as whoever uses it sees it.  Code may schedule tasks and let time pass; an advance runs
the tasks that fall due, and each of them is code again, which may schedule tasks and let time pass
in its turn.  So advances nest, to any depth.  What the tasks do is left open: a run of a clockwork
is any sequence of moves that code and advances can make.  A task that panics takes the advance that
ran it along; the code below may go on, or panic too.

* `Timeline.Lined` -- timers lie in the order of their deadlines, and among equal deadlines in the
  order in which they were scheduled; no timer is overdue;
* `Clockwork.Run` -- the moves of code and of advances, from any state;
* `Run.lined`, `Run.scheduled` -- what is true of every timer at any moment;
* `Script.TimelineStep.runs` -- what a script does is a run of the clockwork.
-/

namespace ModemLink

/-! ## Timers in line -/

/-- A timer runs before another: it is due earlier, or at the same time and scheduled earlier. -/
def Timer.Before {α : Type} (a b : Timer α) : Prop :=
  a.deadline.nanos < b.deadline.nanos ∨ a.deadline.nanos = b.deadline.nanos ∧ a.order < b.order

theorem Timer.Before.le {α : Type} {a b : Timer α} (h : a.Before b) :
    a.deadline.nanos ≤ b.deadline.nanos := by
  rcases h with hlt | ⟨heq, -⟩
  · exact Nat.le_of_lt hlt
  · exact Nat.le_of_eq heq

namespace Timeline

variable {α : Type} {timeline after : Timeline α} {delay target : Duration} {task : α}

/-- A timer that was scheduled after all others finds its place in the line. -/
theorem pairwise_before_enqueue {timer : Timer α} {queue : List (Timer α)}
    (h : queue.Pairwise Timer.Before) (hlast : ∀ other ∈ queue, other.order < timer.order) :
    (enqueue timer queue).Pairwise Timer.Before := by
  induction queue with
  | nil => exact List.pairwise_singleton _ _
  | cons first rest ih =>
      obtain ⟨hfirst, hrest⟩ := List.pairwise_cons.mp h
      have hplaced := ih hrest fun other hmem => hlast other (List.mem_cons_of_mem _ hmem)
      unfold enqueue
      split
      · rename_i hdue
        have hle : first.deadline.nanos ≤ timer.deadline.nanos := hdue
        refine List.pairwise_cons.mpr ⟨fun other hother => ?_, hplaced⟩
        rcases List.mem_cons.mp ((perm_enqueue timer rest).mem_iff.mp hother) with rfl | hmem
        · rcases Nat.lt_or_eq_of_le hle with hlt | heq
          · exact .inl hlt
          · exact .inr ⟨heq, hlast first (List.mem_cons_self ..)⟩
        · exact hfirst other hmem
      · rename_i hlater
        have hlt : timer.deadline.nanos < first.deadline.nanos := Nat.lt_of_not_le hlater
        refine List.pairwise_cons.mpr ⟨fun other hother => .inl ?_, h⟩
        rcases List.mem_cons.mp hother with rfl | hmem
        · exact hlt
        · exact Nat.lt_of_lt_of_le hlt (hfirst other hmem).le

/-- Where an advance leads, and that it has run nothing when it begins. -/
theorem beginAdvance_eq_ok {length : Duration} {advance : Advance}
    (h : timeline.beginAdvance length = .ok advance) :
    advance.target.nanos = timeline.now.nanos + length.nanos ∧ advance.fired = 0 := by
  unfold beginAdvance at h
  cases hsum : timeline.now.add? length with
  | error overflow => simp [hsum, bind, Except.bind] at h
  | ok target =>
      simp only [hsum, bind, Except.bind, pure, Except.pure] at h
      cases h
      exact ⟨Duration.add?_eq_ok_iff.mp hsum, rfl⟩

/-- The timers lie in the order in which they run, none of them is overdue, and the next one that is
scheduled has a number of its own. -/
structure Lined (timeline : Timeline α) : Prop where
  sorted : timeline.queue.Pairwise Timer.Before
  ahead : ∀ timer ∈ timeline.queue, timeline.now.nanos ≤ timer.deadline.nanos
  known : ∀ timer ∈ timeline.queue, timer.order < timeline.nextOrder

theorem lined_start : (start : Timeline α).Lined :=
  ⟨List.Pairwise.nil, fun _ hmem => absurd hmem List.not_mem_nil,
    fun _ hmem => absurd hmem List.not_mem_nil⟩

theorem Lined.ordered (h : timeline.Lined) : timeline.Ordered :=
  ⟨h.sorted.imp Timer.Before.le, h.ahead⟩

theorem Lined.schedule (h : timeline.Lined) (hschedule : timeline.schedule delay task = .ok after) :
    after.Lined := by
  have hahead := (h.ordered.schedule hschedule).ahead
  obtain ⟨deadline, -, rfl⟩ := schedule_eq_ok hschedule
  refine ⟨pairwise_before_enqueue h.sorted h.known, hahead, fun timer hmem => ?_⟩
  change timer.order < timeline.nextOrder + 1
  rcases List.mem_cons.mp ((perm_enqueue _ _).mem_iff.mp hmem) with rfl | hold
  · exact Nat.lt_succ_self _
  · exact Nat.lt_succ_of_lt (h.known timer hold)

theorem Lined.popDue (h : timeline.Lined) (hpop : timeline.popDue? target = some (task, after)) :
    after.Lined := by
  have hahead := (h.ordered.popDue hpop).1.ahead
  obtain ⟨first, rest, hqueue, -, -, rfl⟩ := popDue?_eq_some hpop
  have hsorted := h.sorted
  rw [hqueue] at hsorted
  refine ⟨(List.pairwise_cons.mp hsorted).2, hahead, fun timer hmem => h.known timer ?_⟩
  rw [hqueue]
  exact List.mem_cons_of_mem _ hmem

theorem Lined.setNow (h : timeline.Lined) (hnone : timeline.popDue? target = none) :
    (timeline.setNow target).Lined :=
  ⟨h.sorted, (h.ordered.setNow hnone).ahead, h.known⟩

end Timeline

/-! ## Moves -/

/-- Who is in charge of a timeline, above the advances under way, the innermost in front.  Code is a
task that the innermost of them has run, or the outermost caller if none is under way. -/
inductive Charge where
  | code (below : List Advance)
  | loop (top : Advance) (below : List Advance)

/-- The advances under way, the innermost in front. -/
def Charge.underWay : Charge → List Advance
  | code below => below
  | loop top below => top :: below

/-- A timeline and who is in charge of it. -/
structure Clockwork (α : Type) where
  timeline : Timeline α
  charge : Charge

namespace Clockwork

variable {α : Type}

/-- A timeline that nobody has used. -/
def start : Clockwork α := ⟨.start, .code []⟩

/-- The reading of the clock. -/
def now (c : Clockwork α) : Duration := c.timeline.now

/-- What code or an advance does next. -/
inductive Move (α : Type) where
  /-- Code schedules a task. -/
  | schedule (delay : Duration) (task : α)
  /-- Code lets time pass. -/
  | advance (length : Duration)
  /-- An advance runs the task of a timer. -/
  | run (timer : Timer α)
  /-- A task is done, and the advance that ran it goes on. -/
  | done
  /-- An advance has come to its end. -/
  | arrive
  /-- A task panics, and with it the advance that ran it. -/
  | cut

/-- A move, with the clockwork before and after it. -/
structure Moment (α : Type) where
  before : Clockwork α
  move : Move α
  after : Clockwork α

/-- What each move does. -/
inductive Moment.Happens : Moment α → Prop where
  | schedule {timeline after : Timeline α} {delay : Duration} {task : α} {below : List Advance}
      (hschedule : timeline.schedule delay task = .ok after) :
      Happens ⟨⟨timeline, .code below⟩, .schedule delay task, ⟨after, .code below⟩⟩
  | advance {timeline : Timeline α} {length : Duration} {advance : Advance} {below : List Advance}
      (hbegin : timeline.beginAdvance length = .ok advance) :
      Happens ⟨⟨timeline, .code below⟩, .advance length, ⟨timeline, .loop advance below⟩⟩
  | run {timeline after : Timeline α} {timer : Timer α} {top : Advance} {below : List Advance}
      (hfirst : timeline.queue = timer :: after.queue)
      (hpop : timeline.popDue? top.target = some (timer.task, after)) :
      Happens ⟨⟨timeline, .loop top below⟩, .run timer, ⟨after, .code (top :: below)⟩⟩
  | done {timeline : Timeline α} {top : Advance} {below : List Advance} :
      Happens ⟨⟨timeline, .code (top :: below)⟩, .done, ⟨timeline, .loop top.step below⟩⟩
  | arrive {timeline : Timeline α} {top : Advance} {below : List Advance}
      (hnone : timeline.popDue? top.target = none) :
      Happens ⟨⟨timeline, .loop top below⟩, .arrive,
        ⟨timeline.setNow top.target, .code below⟩⟩
  | cut {timeline : Timeline α} {top : Advance} {below : List Advance} :
      Happens ⟨⟨timeline, .code (top :: below)⟩, .cut, ⟨timeline, .code below⟩⟩

/-- The moves made since some state, the latest in front, and the state after them. -/
inductive Run (start : Clockwork α) : List (Moment α) → Clockwork α → Prop where
  | start : Run start [] start
  | step {history : List (Moment α)} {m : Moment α} (run : Run start history m.before)
      (happens : m.Happens) : Run start (m :: history) m.after

namespace Run

variable {first c d : Clockwork α} {history later earlier : List (Moment α)} {m : Moment α}

/-- A run may go on. -/
theorem trans (run : Run first earlier c) (next : Run c later d) :
    Run first (later ++ earlier) d := by
  induction next with
  | start => exact run
  | step _ happens ih => exact ih.step happens

/-- Each move of a run comes after a run, and before one. -/
theorem split (run : Run first (later ++ m :: earlier) c) :
    Run first earlier m.before ∧ m.Happens ∧ Run m.after later c := by
  induction later generalizing c with
  | nil =>
      cases run with
      | step run happens => exact ⟨run, happens, .start⟩
  | cons latest rest ih =>
      cases run with
      | step run happens =>
          obtain ⟨hearlier, hm, hrest⟩ := ih run
          exact ⟨hearlier, hm, hrest.step happens⟩

end Run

/-! ## The line -/

/-- Every move leaves the timers in line. -/
theorem Moment.Happens.lined {m : Moment α} (h : m.Happens) (hlined : m.before.timeline.Lined) :
    m.after.timeline.Lined := by
  cases h with
  | schedule hschedule => exact hlined.schedule hschedule
  | advance _ => exact hlined
  | run _ hpop => exact hlined.popDue hpop
  | done => exact hlined
  | arrive hnone => exact hlined.setNow hnone
  | cut => exact hlined

theorem Run.lined {first c : Clockwork α} {history : List (Moment α)} (run : Run first history c)
    (hlined : first.timeline.Lined) : c.timeline.Lined := by
  induction run with
  | start => exact hlined
  | step _ happens ih => exact happens.lined ih

/-- The timer was put by this move: it is due the delay after the reading of the clock. -/
def Moment.Puts (m : Moment α) (timer : Timer α) : Prop :=
  ∃ delay, m.move = .schedule delay timer.task ∧
    timer.order = m.before.timeline.nextOrder ∧
    timer.deadline.nanos = m.before.now.nanos + delay.nanos

/-- Every timer that waits was put by a move. -/
theorem Run.scheduled {c : Clockwork α} {history : List (Moment α)} (run : Run .start history c) :
    ∀ timer ∈ c.timeline.queue, ∃ m ∈ history, m.Puts timer := by
  induction run with
  | start => exact fun timer hmem => absurd hmem List.not_mem_nil
  | @step history m _ happens ih =>
      have hkept : ∀ timer ∈ m.before.timeline.queue, ∃ old ∈ m :: history, old.Puts timer := by
        intro timer hmem
        obtain ⟨old, hold, hputs⟩ := ih timer hmem
        exact ⟨old, List.mem_cons_of_mem _ hold, hputs⟩
      intro timer hmem
      cases happens with
      | schedule hschedule =>
          obtain ⟨deadline, hdeadline, rfl⟩ := Timeline.schedule_eq_ok hschedule
          rcases List.mem_cons.mp ((Timeline.perm_enqueue _ _).mem_iff.mp hmem) with rfl | hold
          · exact ⟨_, List.mem_cons_self .., _, rfl, rfl, hdeadline⟩
          · exact hkept timer hold
      | run hfirst _ =>
          refine hkept timer ?_
          dsimp only at hmem ⊢
          rw [hfirst]
          exact List.mem_cons_of_mem _ hmem
      | advance _ => exact hkept timer hmem
      | done => exact hkept timer hmem
      | arrive _ => exact hkept timer hmem
      | cut => exact hkept timer hmem

end Clockwork

/-! ## Scripts -/

namespace Script

namespace TimelineState

/-- A scripted timeline between two stages. -/
def clockwork (s : TimelineState) : Clockwork TaskPlan :=
  ⟨s.timeline, match s.stack with
    | [] => .code []
    | top :: below => .loop top.advance (below.map (·.advance))⟩

/-- Only the outermost advance was made by no task. -/
def Nested (s : TimelineState) : Prop := s.stack.Pairwise fun inner _ => inner.label ≠ none

variable {s after : TimelineState} {plan : TaskPlan} {label : Option String}

theorem schedule_eq_ok (h : s.schedule plan = .ok after) :
    ∃ delay timeline, s.timeline.schedule delay plan = .ok timeline ∧
      after = { s with timeline } := by
  unfold schedule at h
  cases hdelay : Duration.ofNanos? plan.delay with
  | error overflow => simp [hdelay, bind, Except.bind] at h
  | ok delay =>
      cases hschedule : s.timeline.schedule delay plan with
      | error overflow => simp [hdelay, hschedule, bind, Except.bind] at h
      | ok timeline =>
          simp only [hdelay, hschedule, bind, Except.bind, pure, Except.pure] at h
          cases h
          exact ⟨delay, timeline, hschedule, rfl⟩

theorem begin_eq_ok {nanos : Nat} (h : s.begin nanos label = .ok after) :
    ∃ length advance, s.timeline.beginAdvance length = .ok advance ∧
      after = { s with stack := ⟨advance, label⟩ :: s.stack } := by
  unfold begin at h
  cases hlength : Duration.ofNanos? nanos with
  | error overflow => simp [hlength, bind, Except.bind] at h
  | ok length =>
      cases hbegin : s.timeline.beginAdvance length with
      | error overflow => simp [hlength, hbegin, bind, Except.bind] at h
      | ok advance =>
          simp only [hlength, hbegin, bind, Except.bind, pure, Except.pure] at h
          cases h
          exact ⟨length, advance, hbegin, rfl⟩

/-- To schedule tasks one after another is a run, also if an overflow stops it. -/
theorem runs_scheduleAll (below : List Advance) (plans : List TaskPlan) (s : TimelineState) :
    (s.scheduleAll plans).2.stack = s.stack ∧
      ∃ history, Clockwork.Run ⟨s.timeline, .code below⟩ history
        ⟨(s.scheduleAll plans).2.timeline, .code below⟩ := by
  induction plans generalizing s with
  | nil => exact ⟨rfl, [], .start⟩
  | cons plan rest ih =>
      unfold scheduleAll
      cases hschedule : s.schedule plan with
      | error overflow => exact ⟨rfl, [], .start⟩
      | ok after =>
          obtain ⟨delay, timeline, htimeline, rfl⟩ := schedule_eq_ok hschedule
          obtain ⟨hstack, history, run⟩ := ih { s with timeline }
          exact ⟨hstack, _, (Clockwork.Run.start.step (.schedule htimeline)).trans run⟩

/-- A panic that nobody catches takes all advances along. -/
theorem runs_cut (timeline : Timeline TaskPlan) (below : List Advance) :
    ∃ history, Clockwork.Run ⟨timeline, .code below⟩ history ⟨timeline, .code []⟩ := by
  induction below with
  | nil => exact ⟨[], .start⟩
  | cons top below ih =>
      obtain ⟨history, run⟩ := ih
      exact ⟨_, (Clockwork.Run.start.step .cut).trans run⟩

/-- An advance that has run a task, or that an advance inside has returned to, goes on. -/
theorem runs_countTask (s : TimelineState) :
    ∃ history, Clockwork.Run ⟨s.timeline, .code (s.stack.map (·.advance))⟩ history
      s.countTask.clockwork := by
  unfold countTask clockwork
  cases hstack : s.stack with
  | nil =>
      simp only [hstack]
      exact ⟨[], .start⟩
  | cons top below => exact ⟨_, Clockwork.Run.start.step .done⟩

theorem nested_countTask (h : s.Nested) : s.countTask.Nested := by
  unfold countTask
  cases hstack : s.stack with
  | nil => exact h
  | cons top below =>
      unfold Nested at h ⊢
      rw [hstack] at h
      exact List.pairwise_cons.mpr (List.pairwise_cons.mp h)

/-- A stage is a run. -/
theorem runs_stage (h : s.Nested) :
    s.stage.2.Nested ∧ ∃ history, Clockwork.Run s.clockwork history s.stage.2.clockwork := by
  unfold stage
  cases hstack : s.stack with
  | nil => exact ⟨h, [], .start⟩
  | cons top below =>
      have hclockwork : s.clockwork =
          ⟨s.timeline, .loop top.advance (below.map (·.advance))⟩ := by
        simp only [clockwork, hstack]
      unfold Nested at h
      rw [hstack] at h
      obtain ⟨htop, hbelow⟩ := List.pairwise_cons.mp h
      rw [hclockwork]
      dsimp only
      split
      · rename_i hnone
        have arrived : Clockwork.Run ⟨s.timeline, .loop top.advance (below.map (·.advance))⟩ _
            ⟨s.timeline.setNow top.advance.target, .code (below.map (·.advance))⟩ :=
          Clockwork.Run.start.step (.arrive hnone)
        cases hlabel : top.label with
        | none =>
            cases below with
            | nil => exact ⟨hbelow, _, arrived⟩
            | cons next rest => exact absurd hlabel (htop next (List.mem_cons_self ..))
        | some label =>
            obtain ⟨history, run⟩ := runs_countTask { s with
              timeline := s.timeline.setNow top.advance.target
              stack := below
              log := .advanced label top.advance.fired top.advance.target :: s.log }
            exact ⟨nested_countTask hbelow, _, arrived.trans run⟩
      · rename_i plan timeline hpop
        obtain ⟨first, rest, hqueue, rfl, -, htimeline⟩ := Timeline.popDue?_eq_some hpop
        have hfirst : s.timeline.queue = first :: timeline.queue := by rw [hqueue, htimeline]
        have ran : Clockwork.Run ⟨s.timeline, .loop top.advance (below.map (·.advance))⟩ _
            ⟨timeline, .code (top.advance :: below.map (·.advance))⟩ :=
          Clockwork.Run.start.step (.run hfirst hpop)
        obtain ⟨hkept, history, run⟩ := runs_scheduleAll
          (top.advance :: below.map (·.advance)) first.task.children
          { s with timeline, stack := top :: below
                   log := .ran first.task.label timeline.now :: s.log }
        generalize TimelineState.scheduleAll _ _ = outcome at hkept run ⊢
        obtain ⟨stopped, after⟩ := outcome
        dsimp only at hkept run
        have hnested : after.Nested := by
          unfold Nested
          rw [hkept]
          exact List.pairwise_cons.mpr ⟨htop, hbelow⟩
        cases stopped with
        | some overflow =>
            obtain ⟨unwound, cut⟩ := runs_cut after.timeline _
            exact ⟨List.Pairwise.nil, _, (ran.trans run).trans cut⟩
        | none =>
            dsimp only
            split
            · obtain ⟨counted, done⟩ := after.runs_countTask
              rw [hkept] at done
              exact ⟨nested_countTask hnested, _, (ran.trans run).trans done⟩
            · split
              · rename_i inside hbegin
                obtain ⟨length, advance, hadvance, rfl⟩ := begin_eq_ok hbegin
                have begun := (ran.trans run).step (.advance hadvance)
                have hinside : clockwork { after with
                    stack := ⟨advance, some first.task.label⟩ :: after.stack } =
                    ⟨after.timeline, .loop advance (top.advance :: below.map (·.advance))⟩ := by
                  simp only [clockwork, hkept, List.map_cons]
                dsimp only
                rw [hinside]
                exact ⟨List.pairwise_cons.mpr ⟨fun _ _ => Option.some_ne_none _, hnested⟩, _, begun⟩
              · obtain ⟨unwound, cut⟩ := runs_cut after.timeline _
                exact ⟨List.Pairwise.nil, _, (ran.trans run).trans cut⟩

/-- So is an advance, up to its end or to the end of the budget. -/
theorem runs_finish (budget : Nat) (h : s.Nested) :
    (s.finish budget).2.Nested ∧
      ∃ history, Clockwork.Run s.clockwork history (s.finish budget).2.clockwork := by
  induction budget generalizing s with
  | zero => exact ⟨h, [], .start⟩
  | succ budget ih =>
      unfold finish
      obtain ⟨hnested, history, run⟩ := runs_stage h
      generalize s.stage = outcome at hnested run ⊢
      obtain ⟨answer, after⟩ := outcome
      cases answer with
      | some answer => exact ⟨hnested, history, run⟩
      | none =>
          obtain ⟨hfinished, later, rest⟩ := ih hnested
          exact ⟨hfinished, _, run.trans rest⟩

end TimelineState

/-- What a step of a script does to a timeline that is not in use is a run of the clockwork. -/
theorem TimelineStep.runs (budget : Nat) (step : TimelineStep) {s : TimelineState}
    (hidle : s.stack = []) :
    ∃ history, Clockwork.Run s.clockwork history (step.run budget s).2.clockwork := by
  have hclockwork : s.clockwork = ⟨s.timeline, .code []⟩ := by
    simp only [TimelineState.clockwork, hidle]
  cases step with
  | schedule plan =>
      cases hschedule : s.schedule plan with
      | error overflow =>
          simp only [run, hschedule]
          exact ⟨[], .start⟩
      | ok after =>
          simp only [run, hschedule]
          obtain ⟨delay, timeline, htimeline, rfl⟩ := TimelineState.schedule_eq_ok hschedule
          simp only [TimelineState.clockwork, hidle]
          exact ⟨_, Clockwork.Run.start.step (.schedule htimeline)⟩
  | advance nanos =>
      cases hbegin : s.begin nanos none with
      | error overflow =>
          simp only [run, hbegin]
          exact ⟨[], .start⟩
      | ok begun =>
          simp only [run, hbegin]
          obtain ⟨length, advance, hadvance, rfl⟩ := TimelineState.begin_eq_ok hbegin
          have hnested : TimelineState.Nested { s with stack := ⟨advance, none⟩ :: s.stack } := by
            unfold TimelineState.Nested
            rw [hidle]
            exact List.pairwise_singleton _ _
          obtain ⟨-, history, finished⟩ := TimelineState.runs_finish budget hnested
          have hbegun : TimelineState.clockwork { s with stack := ⟨advance, none⟩ :: s.stack } =
              ⟨s.timeline, .loop advance []⟩ := by
            simp only [TimelineState.clockwork, hidle, List.map_nil]
          have begun : Clockwork.Run ⟨s.timeline, .code []⟩ _ ⟨s.timeline, .loop advance []⟩ :=
            Clockwork.Run.start.step (.advance hadvance)
          rw [hbegun] at finished
          rw [hclockwork]
          exact ⟨_, begun.trans finished⟩

end Script

end ModemLink
