import Mathlib.Algebra.Order.Ring.Nat
import Mathlib.Algebra.BigOperators.Group.List.Basic
import ModemLink.Proofs.Clockwork
import ModemLink.Proofs.Firings
import ModemLink.Proofs.OneAttempt
import ModemLink.Proofs.Recovery

/-!
# An advance comes to its end

An advance over the loopback radio, while no target calls back, runs one due task after the other.
Only the attempt to bind schedules something, and that only when it fails: the next attempt, after
the delay.  So a timer that waits stands for one task, and that of an attempt to bind for one task
more with every whole delay that is left until the end.  Each task that is run uses one of these up.

There is one timer of an attempt to bind at most when the advance begins, and its delay is not zero
in a valid configuration.  That bounds the tasks of the whole advance, however often binds fail.

* `Bench.onward?`, `Bench.Goes` -- what the bench does while every call returns at once;
* `Hub.ahead` -- the tasks that an advance may have before it;
* `Engine.fire_task`, `Engine.resume_task` -- a task takes one of them away;
* `Bench.Run.advance_ends` -- every advance ends, after so many tasks at most.
-/

namespace ModemLink

/-! ## Courses without a call from outside -/

namespace Engine

/-- Whether the next thing to be done is to run a task. -/
def taskDue (e : Engine) : Bool :=
  match e.control with
  | .firing advance => (e.hub.station.timeline.popDue? advance.target).isSome
  | .outside _ => false

end Engine

namespace Bench

/-- What comes next while nobody who is called calls back: the bench goes on by itself, or the bind
or the delivery on top of the stack returns. -/
def onward? (b : Bench) : Option Bench :=
  match b.next? with
  | some c => some c
  | none =>
    match b.engine.stack with
    | [] => none
    | _ :: _ => some b.proceed

/-- So the bench comes from one state to another, by the states listed. -/
inductive Goes : Bench → List Bench → Bench → Prop
  | stays {b : Bench} : Goes b [] b
  | goes {b c d : Bench} {states : List Bench} (onward : b.onward? = some c)
      (later : Goes c states d) : Goes b (b :: states) d

/-- The number of tasks that are run on the way. -/
def tasksRun (states : List Bench) : Nat := states.countP (·.engine.taskDue)

variable {start b c d : Bench} {cue : Cue} {scenes : List Scene} {states later : List Bench}

theorem Goes.trans (h : b.Goes states c) (h' : c.Goes later d) : b.Goes (states ++ later) d := by
  induction h with
  | stays => exact h'
  | goes onward _ ih => exact .goes onward (ih h')

theorem onward?_of_next (h : b.next? = some c) : b.onward? = some c := by
  simp only [onward?, h]

theorem onward?_of_rest (h : b.next? = none) (hwaits : b.engine.stack ≠ []) :
    b.onward? = some b.proceed := by
  obtain ⟨top, rest, hstack⟩ := List.exists_cons_of_ne_nil hwaits
  simp only [onward?, h, hstack]

/-- A bench that waits for a cue while no call waits stays there. -/
theorem onward?_eq_none_iff : b.onward? = none ↔ b.next? = none ∧ b.engine.stack = [] := by
  unfold onward?
  cases b.next? with
  | some c => simp
  | none => cases b.engine.stack <;> simp

/-- There is one way to go on, and one end. -/
theorem Goes.unique {states' : List Bench} (h : b.Goes states c) (hrest : c.onward? = none)
    (h' : b.Goes states' d) (hrest' : d.onward? = none) : states = states' ∧ c = d := by
  induction h generalizing states' with
  | stays =>
      cases h' with
      | stays => exact ⟨rfl, rfl⟩
      | goes onward _ =>
          rw [hrest] at onward
          cases onward
  | goes onward _ ih =>
      cases h' with
      | stays =>
          rw [hrest'] at onward
          cases onward
      | goes onward' later =>
          rw [onward] at onward'
          obtain rfl := Option.some.inj onward'
          obtain ⟨rfl, rfl⟩ := ih hrest later
          exact ⟨rfl, rfl⟩

/-- What comes after a cue while nobody calls back is a run in which every further cue lets a bind
or a delivery return. -/
theorem Goes.run (h : c.Goes states d) (hrest : d.onward? = none) (run : Run start scenes b)
    (admits : b.Admits cue) (passes : (b.take cue).Passes c) :
    ∃ (count : Nat) (later : List Scene), Run start (later ++ scenes) d ∧
      later.map (·.cue) = List.replicate count .proceed ++ [cue] := by
  induction h generalizing b cue scenes with
  | @stays c =>
      obtain ⟨hnext, -⟩ := onward?_eq_none_iff.mp hrest
      exact ⟨0, [⟨b, cue, c⟩], run.scene admits ⟨passes, hnext⟩, rfl⟩
  | @goes c c' d states onward later ih =>
      cases hnext : c.next? with
      | some next =>
          rw [onward?_of_next hnext] at onward
          obtain rfl := Option.some.inj onward
          exact ih hrest run admits (passes.tail hnext)
      | none =>
          have hwaits : c.engine.stack ≠ [] := fun hempty => by
            rw [onward?_eq_none_iff.mpr ⟨hnext, hempty⟩] at onward
            cases onward
          rw [onward?_of_rest hnext hwaits] at onward
          obtain rfl := Option.some.inj onward
          have hadmits : c.Admits .proceed := trivial
          obtain ⟨count, scenes', run', hcues⟩ :=
            ih hrest (run.scene admits ⟨passes, hnext⟩) hadmits .refl
          refine ⟨count + 1, scenes' ++ [⟨b, cue, c⟩], ?_, ?_⟩
          · rw [List.append_assoc]
            exact run'
          · rw [List.map_append, hcues, List.replicate_succ']
            rfl

end Bench

/-! ## The tasks that are ahead -/

/-- The tasks of an advance to a target that come of a timer: its own, and if that is an attempt to
bind, the attempts that follow it when one after the other fails. -/
def Timer.tasks (delay target : Nat) (timer : Timer Task) : Nat :=
  match timer.task with
  | .reconnect => (target + delay - timer.deadline.nanos) / delay
  | _ => 1

namespace Timer

variable {delay target : Nat} {timer : Timer Task}

theorem tasks_reconnect (h : timer.task = .reconnect) :
    timer.tasks delay target = (target + delay - timer.deadline.nanos) / delay := by
  simp only [tasks, h]

theorem tasks_of_ne (h : timer.task ≠ .reconnect) : timer.tasks delay target = 1 := by
  unfold tasks
  split
  · rename_i heq
    exact absurd heq h
  · rfl

/-- A due attempt is one task, and as many more as there are whole delays after it. -/
theorem tasks_of_due (h : timer.task = .reconnect) (hpositive : 0 < delay)
    (hdue : timer.deadline.nanos ≤ target) :
    timer.tasks delay target = (target - timer.deadline.nanos) / delay + 1 := by
  have hshift : target + delay - timer.deadline.nanos =
      target - timer.deadline.nanos + delay := by omega
  rw [tasks_reconnect h, hshift, Nat.add_div_right _ hpositive]

/-- No attempt has more tasks than fit into the whole advance. -/
theorem tasks_le (h : timer.task = .reconnect) (hpositive : 0 < delay) {now length : Nat}
    (hnow : now ≤ timer.deadline.nanos) :
    timer.tasks delay (now + length) ≤ length / delay + 1 := by
  rw [tasks_reconnect h, ← Nat.add_div_right _ hpositive]
  exact Nat.div_le_div_right (by omega)

end Timer

namespace Hub

open Clocked

/-- The tasks that an advance to a target may still have to run. -/
def ahead (target : Duration) (hub : Hub) : Nat :=
  (hub.station.timeline.queue.map (Timer.tasks hub.reconnectDelay.nanos target.nanos)).sum

variable {delay target : Duration} {hub : Hub} {timeline : Timeline Task} {task : Task}

/-- What a timer that is taken off leaves ahead. -/
theorem ahead_popDue (hdue : hub.station.timeline.popDue? target = some (task, timeline)) :
    ∃ timer : Timer Task, timer.task = task ∧ timer.deadline = timeline.now ∧
      timer.deadline.nanos ≤ target.nanos ∧
      hub.ahead target = timer.tasks hub.reconnectDelay.nanos target.nanos +
        ahead target { hub with station := { hub.station with timeline } } := by
  obtain ⟨first, rest, hqueue, htask, hle, rfl⟩ := Timeline.popDue?_eq_some hdue
  refine ⟨first, htask, rfl, hle, ?_⟩
  simp only [ahead, hqueue, List.map_cons, List.sum_cons]

/-- What a new attempt adds: the attempts that fit in after now. -/
theorem ahead_schedule
    (h : hub.station.timeline.schedule hub.reconnectDelay .reconnect = .ok timeline) :
    ahead target { hub with station := { hub.station with timeline } } =
      (target.nanos - hub.station.now.nanos) / hub.reconnectDelay.nanos + hub.ahead target := by
  obtain ⟨deadline, hdeadline, rfl⟩ := Timeline.schedule_eq_ok h
  have hsum := ((Timeline.perm_enqueue ⟨deadline, hub.station.timeline.nextOrder, .reconnect⟩
    hub.station.timeline.queue).map
      (Timer.tasks hub.reconnectDelay.nanos target.nanos)).sum_eq
  have htasks : Timer.tasks hub.reconnectDelay.nanos target.nanos
      ⟨deadline, hub.station.timeline.nextOrder, Task.reconnect⟩ =
      (target.nanos - hub.station.now.nanos) / hub.reconnectDelay.nanos := by
    rw [Timer.tasks_reconnect rfl]
    change (_ - deadline.nanos) / _ = (_ - hub.station.timeline.now.nanos) / _
    congr 1
    omega
  simp only [ahead]
  rw [hsum, List.map_cons, List.sum_cons, htasks]

/-- When an advance begins, each timer is a task ahead, and the one attempt to bind is one more for
every delay that the advance lasts. -/
theorem Lone.ahead_le (h : Lone delay hub) (hpositive : 0 < delay.nanos) {length : Nat}
    (htarget : target.nanos = hub.station.now.nanos + length) :
    hub.ahead target ≤ hub.station.timeline.waiting + length / delay.nanos := by
  -- the queue as it stands, with as many attempts to bind as it may hold
  have hbound : ∀ queue : List (Timer Task),
      (∀ timer ∈ queue, hub.station.now.nanos ≤ timer.deadline.nanos) →
      (queue.map (Timer.tasks delay.nanos target.nanos)).sum ≤
        queue.length + (queue.filter (·.task = .reconnect)).length * (length / delay.nanos) := by
    intro queue hahead
    induction queue with
    | nil => simp
    | cons timer rest ih =>
        obtain ⟨hfirst, hrest⟩ := List.forall_mem_cons.mp hahead
        have hlater := ih hrest
        rw [List.map_cons, List.sum_cons, List.length_cons]
        by_cases htask : timer.task = .reconnect
        · have hone : timer.tasks delay.nanos (hub.station.now.nanos + length) ≤
              length / delay.nanos + 1 := Timer.tasks_le htask hpositive hfirst
          rw [← htarget] at hone
          rw [List.filter_cons_of_pos (by simpa using htask), List.length_cons, Nat.succ_mul]
          omega
        · rw [Timer.tasks_of_ne htask, List.filter_cons_of_neg (by simpa using htask)]
          omega
  have hsum := hbound hub.station.timeline.queue h.ordered.ahead
  have hone : hub.attempts.length * (length / delay.nanos) ≤ length / delay.nanos := by
    calc hub.attempts.length * (length / delay.nanos)
      _ ≤ 1 * (length / delay.nanos) := Nat.mul_le_mul_right _ h.few
      _ = length / delay.nanos := Nat.one_mul _
  rw [ahead, h.delay_eq]
  exact Nat.le_trans hsum (Nat.add_le_add_left hone _)

/-- A task changes nothing of what is ahead.  If it waits for an answer then the result of a request
that is overdue is being delivered, or the attempt to bind is made. -/
theorem wp_runTask_ahead (task : Task) (hub : Hub) :
    wp (runTask task)
      (fun progress after => after.station.timeline = hub.station.timeline ∧
        after.reconnectDelay = hub.reconnectDelay ∧
        ((∃ returned, progress = .ends returned) ∨
          (∃ delivery, progress = .waits (.deliver delivery .deadline)) ∨
          task = .reconnect ∧ ∃ cookie, progress = .waits (.bind cookie .retry)))
      (fun _ => True) hub := by
  cases task with
  | expiry guard sequence =>
      simp only [runTask, wp_bind, wp_atStation]
      exact (Station.sameTimeline_expire guard sequence hub.station).mono
        (fun _ station hsame => ⟨hsame, rfl, .inl ⟨_, rfl⟩⟩) fun _ _ => trivial
  | deadline serial kind sentIn =>
      simp only [runTask, wp_bind, wp_get, wp_atStation]
      have hleads := Station.leads_runTask Station.sameTimeline_complete
        Station.sameTimeline_settle Station.sameTimeline_expire hub.link.epoch
        (.deadline serial kind sentIn)
      refine (hleads hub.station).mono (fun found station hsame => ?_) fun _ _ => trivial
      cases found with
      | none => exact ⟨hsame, rfl, .inl ⟨_, rfl⟩⟩
      | some delivery => exact ⟨hsame, rfl, .inr (.inl ⟨delivery, rfl⟩)⟩
  | reconnect =>
      simp only [runTask, wp_bind, wp_get, wp_set]
      split
      · exact ⟨rfl, rfl, .inl ⟨_, rfl⟩⟩
      · rename_i hunbound
        have hnone : hub.link.disarmRetry.current = none := Link.current_of_phase_ne hunbound
        simp only [bind, wp_bind, wp_get, hnone]
        exact ⟨rfl, rfl, .inr (.inr ⟨trivial, _, rfl⟩)⟩

/-- To schedule the next attempt puts ahead what fits in after now, or nothing. -/
theorem wp_scheduleReconnect_ahead (target : Duration) (hub : Hub) :
    wp scheduleReconnect
      (fun _ after => after.reconnectDelay = hub.reconnectDelay ∧
        after.ahead target ≤
          (target.nanos - hub.station.now.nanos) / hub.reconnectDelay.nanos + hub.ahead target)
      (fun _ => True) hub := by
  simp only [scheduleReconnect, wp_bind, wp_get, Link.armRetry]
  cases hub.link.retryArmed with
  | true => exact ⟨rfl, Nat.le_add_left _ _⟩
  | false =>
      simp only [Bool.false_eq_true, if_false, wp_bind, wp_set, wp_atStation]
      refine Station.wp_schedule (fun timeline hscheduled => ⟨trivial, ?_⟩) trivial
      exact Nat.le_of_eq (ahead_schedule hscheduled)

/-- The attempt ends with its answer, and if it failed then the next may have been scheduled. -/
theorem wp_bindAnswered_ahead (target : Duration) (cookie : Epoch)
    (answer : Except LinkFault Handle) (hub : Hub) :
    wp (bindAnswered cookie .retry answer)
      (fun progress after => (∃ returned, progress = .ends returned) ∧
        after.reconnectDelay = hub.reconnectDelay ∧
        after.ahead target ≤
          (target.nanos - hub.station.now.nanos) / hub.reconnectDelay.nanos + hub.ahead target)
      (fun _ => True) hub := by
  simp only [bindAnswered, wp_bind, wp_get, wp_set, record]
  split
  · simp only [wp_bind, wp_atStation]
    exact Station.wp_record (fun _ _ => ⟨⟨_, rfl⟩, rfl, Nat.le_add_left _ _⟩) fun _ => trivial
  · simp only [wp_bind, wp_atStation]
    refine Station.wp_record (fun recorder _ => ?_) fun _ => trivial
    exact (wp_scheduleReconnect_ahead target _).mono (fun _ after h => ⟨⟨_, rfl⟩, h⟩) fun _ h => h

end Hub

/-! ## One task -/

namespace Engine

open Clocked

/-- How far an advance has come with a task, with no more than so many tasks ahead.  Where the
attempt to bind waits for its answer, those that may follow it count as ahead. -/
inductive OnTask (advance : Advance) (delay : Duration) (count : Nat) (e : Engine) : Prop
  | cut (cut : e.IsCut) (idle : e.stack = [])
  | ended (control : e.control = .firing advance.step) (idle : e.stack = [])
      (delay_eq : e.hub.reconnectDelay = delay) (few : e.hub.ahead advance.target ≤ count)
  | delivers (control : e.control = .outside none) {delivery : Delivery}
      (stack : e.stack = [⟨some advance, .deliver delivery .deadline⟩])
      (delay_eq : e.hub.reconnectDelay = delay) (few : e.hub.ahead advance.target ≤ count)
  | binds (control : e.control = .outside none) {cookie : Epoch}
      (stack : e.stack = [⟨some advance, .bind cookie .retry⟩])
      (delay_eq : e.hub.reconnectDelay = delay)
      (few : (advance.target.nanos - e.now.nanos) / delay.nanos +
        e.hub.ahead advance.target ≤ count)

variable {advance : Advance} {delay : Duration} {count : Nat} {e : Engine}

/-- A transition is cut off and leaves the calls that wait alone, or it ends somewhere. -/
theorem follow_cases (advance : Option Advance) {transition : Clocked Hub Progress}
    {post : Progress → Hub → Prop} (hwp : wp transition post (fun _ => True) e.hub) :
    ((e.follow advance transition).IsCut ∧ (e.follow advance transition).stack = e.stack) ∨
      ∃ progress hub, post progress hub ∧
        e.follow advance transition = e.reach advance progress hub := by
  by_cases hcut : (e.follow advance transition).IsCut
  · refine .inl ⟨hcut, ?_⟩
    rcases follow_of_wp advance e hwp with
      ⟨call, hub, -, heq⟩ | ⟨returned, hub, control, -, -, heq⟩ | ⟨overflow, hub, -, heq⟩
    · rw [heq] at hcut
      obtain ⟨overflow, hcontrol⟩ := hcut
      cases hcontrol
    · rw [heq]
    · rw [heq]
  · exact .inr (follow_eq_reach hwp hcut)

/-- What comes of running a due task, by what is ahead once its timer is taken off. -/
theorem onTask_fire (idle : e.stack = []) {task : Task} {timeline : Timeline Task}
    (hdue : e.hub.station.timeline.popDue? advance.target = some (task, timeline))
    (hcalm : (e.withTimeline timeline).hub.ahead advance.target ≤ count)
    (hretry : task = .reconnect →
      (advance.target.nanos - timeline.now.nanos) / e.hub.reconnectDelay.nanos +
        (e.withTimeline timeline).hub.ahead advance.target ≤ count) :
    (e.fire advance).OnTask advance e.hub.reconnectDelay count := by
  simp only [fire, hdue]
  split
  · rcases follow_cases (e := e.withTimeline timeline) (some advance)
      (Hub.wp_runTask_ahead task _) with
      ⟨hcut, hstack⟩ | ⟨progress, hub, ⟨hsame, hdelay, hprogress⟩, heq⟩
    · exact .cut hcut (hstack.trans idle)
    · have hkept : hub.ahead advance.target =
          (e.withTimeline timeline).hub.ahead advance.target := by
        simp only [Hub.ahead, hsame, hdelay]
      rw [heq]
      rcases hprogress with ⟨returned, rfl⟩ | ⟨delivery, rfl⟩ | ⟨htask, cookie, rfl⟩
      · exact .ended rfl idle hdelay (hkept ▸ hcalm)
      · exact .delivers rfl (congrArg _ idle) hdelay (hkept ▸ hcalm)
      · have hnow : hub.station.now = timeline.now := congrArg Timeline.now hsame
        refine .binds rfl (congrArg _ idle) hdelay ?_
        change (_ - hub.station.now.nanos) / _ + hub.ahead advance.target ≤ count
        rw [hnow, hkept]
        exact hretry htask
  · exact .ended rfl idle rfl hcalm

/-- A due task takes one of the tasks that are ahead away. -/
theorem fire_task (idle : e.stack = []) (hpositive : 0 < e.hub.reconnectDelay.nanos)
    {task : Task} {timeline : Timeline Task}
    (hdue : e.hub.station.timeline.popDue? advance.target = some (task, timeline)) :
    ∃ count, count + 1 = e.hub.ahead advance.target ∧
      (e.fire advance).OnTask advance e.hub.reconnectDelay count := by
  obtain ⟨timer, rfl, hdeadline, hle, hahead⟩ := Hub.ahead_popDue hdue
  by_cases htask : timer.task = .reconnect
  · -- what may follow the attempt was counted with its timer
    rw [Timer.tasks_of_due htask hpositive hle, hdeadline] at hahead
    refine ⟨_, ?_, onTask_fire idle hdue (Nat.le_add_left _ _) fun _ => Nat.le_refl _⟩
    rw [hahead, Nat.add_right_comm]
    rfl
  · rw [Timer.tasks_of_ne htask] at hahead
    refine ⟨_, ?_, onTask_fire idle hdue (Nat.le_refl _) fun heq => absurd heq htask⟩
    rw [hahead, Nat.add_comm]
    rfl

/-- A task that waits for an answer is over when the answer comes. -/
theorem resume_task {call : Outgoing} (answer : call.Answer) (huncut : ¬ e.IsCut)
    (h : e.OnTask advance delay count) (stack : e.stack = [⟨some advance, call⟩]) :
    (e.resume ⟨some advance, call⟩ answer).OnTask advance delay count ∧
      (e.resume ⟨some advance, call⟩ answer).stack = [] := by
  have htail : e.stack.tail = [] := congrArg List.tail stack
  cases h with
  | cut hcut _ => exact absurd hcut huncut
  | ended _ idle _ _ =>
      rw [stack] at idle
      cases idle
  | delivers _ hstack delay_eq few =>
      rw [stack] at hstack
      cases hstack
      exact ⟨.ended rfl htail delay_eq few, htail⟩
  | @binds _ cookie hstack delay_eq few =>
      rw [stack] at hstack
      cases hstack
      rcases follow_cases (e := { e with stack := e.stack.tail }) (some advance)
        (Hub.wp_bindAnswered_ahead advance.target cookie answer _) with
        ⟨hcut, hidle⟩ | ⟨progress, hub, ⟨⟨returned, rfl⟩, hdelay, hahead⟩, heq⟩
      · exact ⟨.cut hcut (hidle.trans htail), hidle.trans htail⟩
      · have hresume : e.resume ⟨some advance, .bind cookie .retry⟩ answer =
            { e with stack := e.stack.tail }.reach (some advance) (.ends returned) hub := heq
        rw [hresume]
        rw [← delay_eq] at few
        exact ⟨.ended rfl htail (hdelay.trans delay_eq) (Nat.le_trans hahead few), htail⟩

end Engine

/-! ## The advance -/

namespace Bench

variable {advance : Advance} {delay : Duration} {count : Nat} {b c : Bench}

theorem tasksRun_cons (b : Bench) (states : List Bench) :
    tasksRun (b :: states) = tasksRun states + b.engine.taskDue.toNat := by
  unfold tasksRun
  rw [List.countP_cons]
  cases b.engine.taskDue <;> rfl

/-- A bind or a delivery on top of the stack returns. -/
theorem engine_proceed {advance : Option Advance} {call : Outgoing} {rest : List Suspension}
    (stack : b.engine.stack = ⟨advance, call⟩ :: rest)
    (hwaits : b.radioAnswers? ⟨advance, call⟩ = none) :
    ∃ answer : call.Answer, b.proceed.engine = b.engine.resume ⟨advance, call⟩ answer := by
  unfold proceed
  cases call with
  | bind cookie use =>
      simp only [stack]
      exact ⟨_, rfl⟩
  | deliver delivery use =>
      simp only [stack]
      exact ⟨(), rfl⟩
  | send live serial kind payload => cases hwaits
  | sendAck live => cases hwaits

/-- A task that waits for a bind or a delivery is over when that returns. -/
theorem goes_of_waiting {call : Outgoing} (h : b.engine.OnTask advance delay count)
    (control : b.engine.control = .outside none)
    (stack : b.engine.stack = [⟨some advance, call⟩])
    (hwaits : b.radioAnswers? ⟨some advance, call⟩ = none) :
    b.Goes [b] b.proceed ∧ b.engine.taskDue = false ∧
      b.proceed.engine.OnTask advance delay count ∧ b.proceed.engine.stack = [] := by
  have hnext : b.next? = none := by
    simp only [next?, control, stack]
    exact hwaits
  have honward := onward?_of_rest hnext (by simp [stack])
  obtain ⟨answer, heq⟩ := engine_proceed stack hwaits
  have huncut : ¬ b.engine.IsCut := Engine.not_isCut none control (by simp)
  rw [heq]
  exact ⟨.goes honward .stays, by simp only [Engine.taskDue, control],
    Engine.resume_task answer huncut h stack⟩

/-- A task that is under way goes on until it is over; meanwhile no other task is run. -/
theorem goes_of_onTask (h : b.engine.OnTask advance delay count) :
    ∃ states c, b.Goes states c ∧ tasksRun states = 0 ∧ c.engine.OnTask advance delay count ∧
      c.engine.stack = [] := by
  cases h with
  | cut hcut idle => exact ⟨[], b, .stays, rfl, .cut hcut idle, idle⟩
  | ended control idle delay_eq few =>
      exact ⟨[], b, .stays, rfl, .ended control idle delay_eq few, idle⟩
  | delivers control stack delay_eq few =>
      obtain ⟨hgoes, hdue, hover, hidle⟩ :=
        goes_of_waiting (.delivers control stack delay_eq few) control stack rfl
      exact ⟨_, _, hgoes, by rw [tasksRun_cons, hdue]; rfl, hover, hidle⟩
  | binds control stack delay_eq few =>
      obtain ⟨hgoes, hdue, hover, hidle⟩ :=
        goes_of_waiting (.binds control stack delay_eq few) control stack rfl
      exact ⟨_, _, hgoes, by rw [tasksRun_cons, hdue]; rfl, hover, hidle⟩

/-- By itself a bench that is firing runs the next due task. -/
theorem next?_of_firing (control : b.engine.control = .firing advance) :
    b.next? = some (b.enter (b.engine.fire advance)) := by
  simp only [next?, control]

/-- A due task is run, and then the advance goes on or was cut off. -/
theorem goes_of_due (control : b.engine.control = .firing advance) (idle : b.engine.stack = [])
    (hpositive : 0 < b.engine.hub.reconnectDelay.nanos) {task : Task} {timeline : Timeline Task}
    (hdue : b.engine.hub.station.timeline.popDue? advance.target = some (task, timeline)) :
    ∃ states c count, b.Goes states c ∧ tasksRun states = 1 ∧
      count + 1 = b.engine.hub.ahead advance.target ∧
      c.engine.OnTask advance b.engine.hub.reconnectDelay count ∧ c.engine.stack = [] := by
  obtain ⟨count, hcount, htask⟩ := Engine.fire_task idle hpositive hdue
  have hfired : (b.enter (b.engine.fire advance)).engine.OnTask advance
      b.engine.hub.reconnectDelay count := htask
  obtain ⟨states, c, hgoes, hnone, hover, hidle⟩ := goes_of_onTask hfired
  refine ⟨b :: states, c, count, .goes (onward?_of_next (next?_of_firing control)) hgoes, ?_,
    hcount, hover, hidle⟩
  rw [tasksRun_cons, hnone, Engine.taskDue, control]
  simp [hdue]

/-- Nothing more happens while no call waits and nothing is fired. -/
theorem onward?_of_idle {last : Option Returned} (control : b.engine.control = .outside last)
    (idle : b.engine.stack = []) : b.onward? = none := by
  refine onward?_eq_none_iff.mpr ⟨?_, idle⟩
  simp only [next?, control, idle]

/-- An advance that is under way ends, after no more tasks than are ahead.  It has come to where it
leads and says how many tasks it has run, unless an overflow cut it off. -/
theorem goes_to_end (control : b.engine.control = .firing advance) (idle : b.engine.stack = [])
    (hpositive : 0 < b.engine.hub.reconnectDelay.nanos)
    (hcount : b.engine.hub.ahead advance.target < count) :
    ∃ states d, b.Goes states d ∧ d.onward? = none ∧ d.engine.stack = [] ∧
      tasksRun states < count ∧
      (d.engine.control = .outside (some (.advanced (advance.fired + tasksRun states))) ∧
          d.engine.now = advance.target ∨
        d.engine.IsCut) := by
  -- by induction on a bound of what is ahead, which every task takes one away from
  induction count generalizing b advance with
  | zero => exact absurd hcount (Nat.not_lt_zero _)
  | succ count ih =>
      cases hdue : b.engine.hub.station.timeline.popDue? advance.target with
      | none =>
          have harrived : b.engine.fire advance =
              { b.engine.withTimeline (b.engine.hub.station.timeline.setNow advance.target) with
                control := .outside (some (.advanced advance.fired)) } := by
            simp only [Engine.fire, hdue]
          have hnone : tasksRun [b] = 0 := by
            rw [tasksRun_cons, Engine.taskDue, control]
            simp only [hdue]
            rfl
          refine ⟨[b], b.enter (b.engine.fire advance),
            .goes (onward?_of_next (next?_of_firing control)) .stays, ?_, ?_, ?_, ?_⟩
          · exact onward?_of_idle (congrArg Engine.control harrived)
              ((congrArg Engine.stack harrived).trans idle)
          · exact (congrArg Engine.stack harrived).trans idle
          · omega
          · rw [hnone]
            exact .inl ⟨congrArg Engine.control harrived, congrArg Engine.now harrived⟩
      | some popped =>
          obtain ⟨task, timeline⟩ := popped
          obtain ⟨states, c, left, hgoes, hone, hleft, hover, hidle⟩ :=
            goes_of_due control idle hpositive hdue
          cases hover with
          | cut hcut _ =>
              obtain ⟨overflow, hcontrol⟩ := hcut
              refine ⟨states, c, hgoes, onward?_of_idle hcontrol hidle, hidle, ?_,
                .inr ⟨overflow, hcontrol⟩⟩
              omega
          | ended hcontrol _ delay_eq few =>
              obtain ⟨later, d, hlater, hrest, hidle', hfew, hend⟩ :=
                ih hcontrol hidle (delay_eq ▸ hpositive) (Nat.lt_of_le_of_lt few (by omega))
              have hsum : tasksRun (states ++ later) = tasksRun later + 1 := by
                unfold tasksRun at hone ⊢
                rw [List.countP_append, hone, Nat.add_comm]
              refine ⟨states ++ later, d, hgoes.trans hlater, hrest, hidle', by omega, ?_⟩
              rw [hsum, Nat.add_comm (tasksRun later) 1, ← Nat.add_assoc]
              exact hend
          | delivers _ hstack _ _ =>
              rw [hidle] at hstack
              cases hstack
          | binds _ hstack _ _ =>
              rw [hidle] at hstack
              cases hstack

/-- **Advances end.**  Time is let pass in any state of any run of a valid configuration, outside
of all calls, and no target calls back meanwhile.  Then the advance comes to its end.  It runs no
more tasks than waited when it began, and one for every whole delay between attempts to bind that it
lasts.  In the end it stands where it leads and tells how many tasks it has run, unless the sum of
two durations was out of range and cut it off.  The end is a state of the run that goes on with
binds and deliveries that return. -/
theorem Run.advance_ends {config : Config} {seed : Option Int} {entropy : Entropy}
    {outside : OutsideStore} {scenes : List Scene} {length : Duration} {advance : Advance}
    (run : Run (.start config seed entropy outside) scenes b)
    (valid : config.validate = .ok config) (idle : b.engine.stack = [])
    (inRange : b.engine.hub.station.timeline.beginAdvance length = .ok advance) :
    ∃ states d, (b.take (.call (.advance length))).Goes states d ∧ d.onward? = none ∧
      tasksRun states ≤ b.engine.hub.station.timeline.waiting +
        length.nanos / config.reconnectDelay.nanos ∧
      (d.engine.control = .outside (some (.advanced (tasksRun states))) ∧
          d.engine.now.nanos = b.engine.now.nanos + length.nanos ∨
        d.engine.IsCut) ∧
      ∃ (count : Nat) (later : List Scene),
        Run (.start config seed entropy outside) (later ++ scenes) d ∧
        later.map (·.cue) = List.replicate count .proceed ++ [.call (.advance length)] := by
  have hlone := Run.lone run
  have hpositive := Config.reconnectDelay_pos valid
  obtain ⟨htarget, hfired⟩ := Timeline.beginAdvance_eq_ok inRange
  have hbegun : (b.take (.call (.advance length))).engine =
      { b.engine with control := .firing advance } := by
    simp only [take, enter, Engine.call, inRange]
  have hhub : (b.take (.call (.advance length))).engine.hub = b.engine.hub := by rw [hbegun]
  have hbound : b.engine.hub.ahead advance.target < b.engine.hub.station.timeline.waiting +
      length.nanos / config.reconnectDelay.nanos + 1 :=
    Nat.lt_succ_of_le (hlone.ahead_le hpositive htarget)
  obtain ⟨states, d, hgoes, hrest, -, hfew, hend⟩ :=
    goes_to_end (b := b.take (.call (.advance length))) (by rw [hbegun])
      (by rw [hbegun]; exact idle) (by rw [hhub, hlone.delay_eq]; exact hpositive)
      (by rw [hhub]; exact hbound)
  rw [hfired, Nat.zero_add] at hend
  refine ⟨states, d, hgoes, hrest, Nat.le_of_lt_succ hfew, ?_, hgoes.run hrest run trivial .refl⟩
  exact hend.imp_left fun harrived => ⟨harrived.1, by rw [harrived.2]; exact htarget⟩

/-- A bind was refused, the next is scheduled, and the radio will refuse two more. -/
def refusing : Bench :=
  (((start {} (some 100) ⟨[]⟩ .silent).take (.refuse 3)).take (.call .connect)).take .proceed

/-- Of the three tasks that ten seconds have room for, with an attempt every four, two are run. -/
theorem advance_ends_of_refused_binds :
    ∃ scenes advance states d, Run (.start {} (some 100) ⟨[]⟩ .silent) scenes refusing ∧
      refusing.engine.stack = [] ∧ refusing.radio.refusals = 2 ∧
      refusing.engine.hub.station.timeline.beginAdvance (.ofMillis 10000) = .ok advance ∧
      (refusing.take (.call (.advance (.ofMillis 10000)))).Goes states d ∧ d.onward? = none ∧
      tasksRun states ≤ 3 ∧ tasksRun states = 2 := by
  have told : Run (.start {} (some 100) ⟨[]⟩ .silent) [⟨_, .refuse 3, _⟩] _ :=
    Run.start.scene trivial ⟨.refl, rfl⟩
  have waiting : Run (.start {} (some 100) ⟨[]⟩ .silent) (⟨_, .call .connect, _⟩ :: _) _ :=
    told.scene trivial ⟨.refl, rfl⟩
  have refused : Run (.start {} (some 100) ⟨[]⟩ .silent) (⟨_, .proceed, _⟩ :: _) refusing :=
    waiting.scene trivial ⟨.refl, rfl⟩
  have hbegin : refusing.engine.hub.station.timeline.beginAdvance (.ofMillis 10000) =
      .ok ⟨.ofMillis 10000, 0⟩ := rfl
  obtain ⟨states, d, hgoes, hrest, hfew, -⟩ :=
    refused.advance_ends Config.validate_default rfl hbegin
  obtain ⟨rfl, -⟩ := hgoes.unique hrest
    (.goes rfl (.goes rfl (.goes rfl (.goes rfl (.goes rfl .stays))))) rfl
  exact ⟨_, _, _, d, refused, rfl, rfl, hbegin, hgoes, hrest, hfew, rfl⟩

end Bench

end ModemLink
