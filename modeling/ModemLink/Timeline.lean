import ModemLink.Duration

/-!
# The timeline

Tasks wait for their deadlines in a queue, ordered by deadline and among equal deadlines by the
order in which they were scheduled.  Whoever lets time pass takes the due tasks off one by one;
while a task runs the clock shows its deadline.

Main statements: `popDue?_eq_none_iff`, `length_popDue?`.
-/

namespace ModemLink

/-- A task and its place in the queue. -/
structure Timer (α : Type) where
  deadline : Duration
  /-- Counts the tasks scheduled before this one. -/
  order : Nat
  task : α

/-- The clock and the tasks that wait. -/
structure Timeline (α : Type) where
  now : Duration
  /-- The order of the task that is scheduled next. -/
  nextOrder : Nat
  /-- The waiting tasks, the next one in front. -/
  queue : List (Timer α)

/-- An advance of the clock under way: where it leads, and the tasks it has run so far. -/
structure Advance where
  target : Duration
  fired : Nat
deriving DecidableEq

/-- The advance after one task more. -/
def Advance.step (advance : Advance) : Advance := { advance with fired := advance.fired + 1 }

namespace Timeline

variable {α : Type}

/-- The clock at its start, with no tasks. -/
def start : Timeline α := ⟨.zero, 0, []⟩

instance : Inhabited (Timeline α) := ⟨start⟩

/-- Puts a timer behind all that are due no later than it. -/
def enqueue (timer : Timer α) : List (Timer α) → List (Timer α)
  | [] => [timer]
  | first :: rest =>
    if first.deadline ≤ timer.deadline then first :: enqueue timer rest
    else timer :: first :: rest

/-- Adds a task that is due after a delay. -/
def schedule (timeline : Timeline α) (delay : Duration) (task : α) :
    Except Overflow (Timeline α) := do
  let deadline ← timeline.now.add? delay
  return { timeline with
    nextOrder := timeline.nextOrder + 1
    queue := enqueue ⟨deadline, timeline.nextOrder, task⟩ timeline.queue }

/-- Takes the next task off that is due by `target`, and sets the clock to its deadline. -/
def popDue? (timeline : Timeline α) (target : Duration) : Option (α × Timeline α) :=
  match timeline.queue with
  | [] => none
  | first :: rest =>
    if first.deadline ≤ target then
      some (first.task, { timeline with now := first.deadline, queue := rest })
    else none

/-- Begins an advance by a length of time. -/
def beginAdvance (timeline : Timeline α) (length : Duration) : Except Overflow Advance := do
  return ⟨← timeline.now.add? length, 0⟩

/-- Sets the clock, as an advance does at its end. -/
def setNow (timeline : Timeline α) (now : Duration) : Timeline α := { timeline with now }

/-- How many tasks wait. -/
def waiting (timeline : Timeline α) : Nat := timeline.queue.length

/-- Nothing is taken off exactly when the task in front, if any, is due later. -/
theorem popDue?_eq_none_iff (timeline : Timeline α) (target : Duration) :
    timeline.popDue? target = none ↔
      ∀ first ∈ timeline.queue.head?, ¬ first.deadline ≤ target := by
  unfold popDue?
  cases timeline.queue with
  | nil => simp
  | cons first rest => simp

/-- A task that is taken off leaves one task fewer. -/
theorem length_popDue? {timeline after : Timeline α} {target : Duration} {task : α}
    (h : timeline.popDue? target = some (task, after)) :
    after.queue.length + 1 = timeline.queue.length := by
  unfold popDue? at h
  cases hq : timeline.queue with
  | nil => simp [hq] at h
  | cons first rest =>
    simp only [hq] at h
    split at h
    · cases h; simp
    · simp at h

end Timeline

end ModemLink
