import ModemLink.Duration
import ModemLink.TimerWheel

/-!
# The executor

Tasks that sleep for a delay and then run, on one thread.  The executor works in rounds: it takes a
batch of tasks off its queue, and then looks at its timers once and puts the tasks that they wake at
the end of the queue.  A task that is taken off for the first time sets its timer; its delay counts
from what the clock reads then, so that a task which is still queued when the clock is moved sleeps
longer.  The timers keep whole milliseconds: a task wakes at the first millisecond at or after the
end of its delay.

Main statements: `perm_tasks_round`, `perm_tasks_rounds`, `moveClock_eq_ok_iff`.
-/

namespace ModemLink

/-- A task in the queue: one that has yet to set its timer, or one whose timer woke it. -/
inductive QueuedTask (α : Type) where
  | sleeper (delay : Duration) (task : α)
  | woken (task : α)

/-- The task itself. -/
def QueuedTask.task {α : Type} : QueuedTask α → α
  | .sleeper _ task => task
  | .woken task => task

/-- An executor: the nanoseconds its clock shows, its timers, its queue, and the tasks that have
run, the latest in front. -/
structure Executor (α : Type) where
  clock : Nat := 0
  timers : TimerWheel α := {}
  queue : List (QueuedTask α) := []
  ran : List α := []

namespace Executor

variable {α : Type}

/-- How many tasks a round takes off the queue. -/
def batch : Nat := 61

/-- The nanosecond that the clock cannot reach: that of 2^63 seconds. -/
def clockLimit : Nat := 9223372036854775808 * 1000000000

/-- The nanoseconds for which a task sleeps whose delay ends beyond the reach of the clock: those of
thirty years. -/
def longestSleep : Nat := 946080000 * 1000000000

/-- The last millisecond that timers know; every later one counts as this one. -/
def lastMillisecond : Nat := 18446744073709551613

/-- The millisecond in which a nanosecond lies. -/
def millisecond (nanos : Nat) : Nat := Nat.min (nanos / 1000000) lastMillisecond

/-- The nanosecond at which a sleep ends that begins now. -/
def sleepEnd (clock : Nat) (delay : Duration) : Nat :=
  if clock + delay.nanos < clockLimit then clock + delay.nanos else clock + longestSleep

/-- The first millisecond at or after the end of a sleep that begins now. -/
def wakeTime (clock : Nat) (delay : Duration) : Nat := millisecond (sleepEnd clock delay + 999999)

/-- A task runs. -/
def run (e : Executor α) (task : α) : Executor α := { e with ran := task :: e.ran }

/-- A task sets its timer; it runs if that is due at once. -/
def setTimer (e : Executor α) (due : Nat) (task : α) : Executor α :=
  match e.timers.insert? due task with
  | some timers => { e with timers }
  | none => e.run task

/-- Goes on with a task that has left the queue. -/
def resume (e : Executor α) : QueuedTask α → Executor α
  | .woken task => e.run task
  | .sleeper delay task => e.setTimer (wakeTime e.clock delay) task

/-- The first part of a round: a batch of tasks leaves the queue. -/
def runBatch (e : Executor α) : Executor α :=
  (e.queue.take batch).foldl resume { e with queue := e.queue.drop batch }

/-- The second part of a round: the timers that are due put their tasks at the end of the queue. -/
def wakeDue (e : Executor α) : Executor α :=
  let (due, timers) := e.timers.advanceTo (millisecond e.clock)
  { e with timers, queue := e.queue ++ due.map fun timer => .woken timer.task }

/-- One round. -/
def round (e : Executor α) : Executor α := e.runBatch.wakeDue

/-- So many rounds. -/
def rounds : Nat → Executor α → Executor α
  | 0, e => e
  | n + 1, e => rounds n e.round

/-- Moves the clock on. -/
def moveClock (e : Executor α) (length : Duration) : Except Overflow (Executor α) :=
  if e.clock + length.nanos < clockLimit then .ok { e with clock := e.clock + length.nanos }
  else .error .clockReading

/-- All tasks of an executor: those that ran, those that sleep and those that are queued. -/
def tasks (e : Executor α) : List α :=
  e.ran ++ (e.timers.timers.map (·.task) ++ e.queue.map (·.task))

/-- A clock is moved exactly as long as its reading stays below the limit. -/
theorem moveClock_eq_ok_iff {e after : Executor α} {length : Duration} :
    e.moveClock length = .ok after ↔
      e.clock + length.nanos < clockLimit ∧ after = { e with clock := e.clock + length.nanos } := by
  unfold moveClock
  split
  · rename_i h
    simp only [Except.ok.injEq, h, true_and]
    exact eq_comm
  · rename_i h
    simp [h]

theorem perm_tasks_setTimer (e : Executor α) (due : Nat) (task : α) :
    (e.setTimer due task).tasks.Perm (task :: e.tasks) := by
  unfold setTimer
  split
  · rename_i timers h
    unfold tasks
    dsimp only
    rw [TimerWheel.timers_insert? h, List.map_append, List.append_assoc]
    exact (List.Perm.append_left _ List.perm_middle).trans List.perm_middle
  · exact .refl _

/-- Going on with a task that has left the queue loses no task and makes none. -/
theorem perm_tasks_resume (e : Executor α) :
    (queued : QueuedTask α) → (e.resume queued).tasks.Perm (queued.task :: e.tasks)
  | .woken _ => .refl _
  | .sleeper _ _ => perm_tasks_setTimer _ _ _

theorem perm_tasks_foldl_resume (queued : List (QueuedTask α)) (e : Executor α) :
    (queued.foldl resume e).tasks.Perm (queued.map (·.task) ++ e.tasks) := by
  induction queued generalizing e with
  | nil => exact .refl _
  | cons first rest ih =>
    refine (ih (e.resume first)).trans ?_
    refine ((perm_tasks_resume e first).append_left _).trans ?_
    exact List.perm_middle

theorem perm_tasks_runBatch (e : Executor α) : e.runBatch.tasks.Perm e.tasks := by
  refine (perm_tasks_foldl_resume _ _).trans ?_
  have hsplit := congrArg (List.map (·.task)) (List.take_append_drop batch e.queue)
  rw [List.map_append] at hsplit
  unfold tasks
  dsimp only
  rw [← hsplit]
  simp only [← List.append_assoc]
  refine List.Perm.append_right _ ?_
  rw [List.append_assoc]
  exact List.perm_append_comm

theorem perm_tasks_wakeDue (e : Executor α) : e.wakeDue.tasks.Perm e.tasks := by
  have h := TimerWheel.perm_advanceTo e.timers (millisecond e.clock)
  unfold wakeDue tasks
  refine List.Perm.append_left _ ?_
  simp only [List.map_append, List.map_map, Function.comp_def, QueuedTask.task]
  refine .trans ?_ (h.append_right _)
  rw [List.append_assoc]
  refine .trans List.perm_append_comm ?_
  rw [List.append_assoc]
  refine .trans List.perm_append_comm ?_
  rw [List.append_assoc]

/-- A round loses no task and makes none. -/
theorem perm_tasks_round (e : Executor α) : e.round.tasks.Perm e.tasks :=
  (perm_tasks_wakeDue _).trans (perm_tasks_runBatch e)

/-- So do many rounds. -/
theorem perm_tasks_rounds (n : Nat) (e : Executor α) : (e.rounds n).tasks.Perm e.tasks := by
  induction n generalizing e with
  | zero => exact .refl _
  | succ n ih => exact (ih e.round).trans (perm_tasks_round e)

end Executor

end ModemLink
