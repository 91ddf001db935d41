import ModemLink.Script.Answer

/-!
# Scripts for the timeline

Tasks that tell when they run.  A task may schedule others, and it may let time pass itself while
the advance that runs it is under way; so advances nest.  When an advance ends it sets the clock to
where it leads, even if an advance inside it has gone further.
-/

namespace ModemLink.Script

/-- A task of a script: its label, its delay, the tasks it schedules when it runs, and how long it
then advances the clock, if it does. -/
inductive TaskPlan where
  | mk (label : String) (delay : Nat) (children : List TaskPlan) (advance : Option Nat)

namespace TaskPlan

/-- The name a task tells. -/
def label : TaskPlan → String
  | mk label _ _ _ => label

/-- The nanoseconds from its scheduling to its run. -/
def delay : TaskPlan → Nat
  | mk _ delay _ _ => delay

/-- The tasks it schedules when it runs. -/
def children : TaskPlan → List TaskPlan
  | mk _ _ children _ => children

/-- The nanoseconds it lets pass when it runs. -/
def advance : TaskPlan → Option Nat
  | mk _ _ _ advance => advance

end TaskPlan

/-- What a running task tells. -/
inductive TaskEvent where
  | ran (label : String) (now : Duration)
  | advanced (label : String) (fired : Nat) (now : Duration)

/-- An advance under way, and the task that made it, if a task did. -/
structure OpenAdvance where
  advance : Advance
  label : Option String

/-- A timeline of planned tasks, the advances under way, the innermost in front, and what was told,
the latest in front. -/
structure TimelineState where
  timeline : Timeline TaskPlan := .start
  stack : List OpenAdvance := []
  log : List TaskEvent := []

namespace TimelineState

/-- Schedules a task. -/
def schedule (s : TimelineState) (plan : TaskPlan) : Except Overflow TimelineState := do
  let timeline ← s.timeline.schedule (← Duration.ofNanos? plan.delay) plan
  return { s with timeline }

/-- Schedules tasks until an overflow stops it; those scheduled before stay. -/
def scheduleAll (s : TimelineState) : List TaskPlan → Option Overflow × TimelineState
  | [] => (none, s)
  | plan :: rest =>
    match s.schedule plan with
    | .ok s => scheduleAll s rest
    | .error overflow => (some overflow, s)

/-- Begins an advance. -/
def begin (s : TimelineState) (nanos : Nat) (label : Option String) :
    Except Overflow TimelineState := do
  let advance ← s.timeline.beginAdvance (← Duration.ofNanos? nanos)
  return { s with stack := ⟨advance, label⟩ :: s.stack }

/-- Counts a task that the innermost advance has run. -/
def countTask (s : TimelineState) : TimelineState :=
  match s.stack with
  | [] => s
  | top :: rest => { s with stack := { top with advance := top.advance.step } :: rest }

/-- One stage of a run: a task is run, or the innermost advance ends.  The outermost one answers; an
overflow ends them all. -/
def stage (s : TimelineState) : Option Answer × TimelineState :=
  match s.stack with
  | [] => (some .done, s)
  | top :: rest =>
    match s.timeline.popDue? top.advance.target with
    | none =>
      let timeline := s.timeline.setNow top.advance.target
      let s := { s with timeline, stack := rest }
      match top.label with
      | none => (some (.count top.advance.fired), s)
      | some label =>
        let event := .advanced label top.advance.fired timeline.now
        (none, { s with log := event :: s.log }.countTask)
    | some (plan, timeline) =>
      let s := { s with timeline, log := .ran plan.label timeline.now :: s.log }
      match s.scheduleAll plan.children with
      | (some overflow, s) => (some (.cut overflow), { s with stack := [] })
      | (none, s) =>
        match plan.advance with
        | none => (none, s.countTask)
        | some nanos =>
          match s.begin nanos (some plan.label) with
          | .ok s => (none, s)
          | .error overflow => (some (.cut overflow), { s with stack := [] })

/-- Runs stages until the outermost advance answers, or the budget is used up. -/
def finish : Nat → TimelineState → Answer × TimelineState
  | 0, s => (.done, s)
  | budget + 1, s =>
    match s.stage with
    | (some answer, s) => (answer, s)
    | (none, s) => finish budget s

end TimelineState

/-- A step on a timeline. -/
inductive TimelineStep where
  | schedule (plan : TaskPlan)
  | advance (nanos : Nat)

/-- A look at a timeline; the log holds what was told since the look before. -/
structure TimelineLook where
  now : Duration
  waiting : Nat
  log : List TaskEvent

/-- Runs a step on a timeline. -/
def TimelineStep.run (budget : Nat) : TimelineStep → TimelineState → Answer × TimelineState
  | .schedule plan, s =>
    match s.schedule plan with
    | .ok s => (.done, s)
    | .error overflow => (.cut overflow, s)
  | .advance nanos, s =>
    match s.begin nanos none with
    | .ok s => s.finish budget
    | .error overflow => (.cut overflow, s)

/-- Runs a script on a timeline. -/
def runTimeline (budget : Nat) (steps : List TimelineStep) : List (Answer × TimelineLook) :=
  trace (TimelineStep.run budget)
    (fun s => (⟨s.timeline.now, s.timeline.waiting, s.log.reverse⟩, { s with log := [] }))
    steps {}

end ModemLink.Script
