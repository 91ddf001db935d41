import ModemLink.Executor

/-!
# Scripts for the executor

Tasks are queued at the start of the clock, and then the clock is moved on from time to time.  The
executor works for eight rounds after the tasks are queued; a move of the clock waits for a round
itself, and eight more follow it.  What is queued even then waits for the next move.
-/

namespace ModemLink.Script

/-- The rounds between two steps of a script. -/
def settlingRounds : Nat := 8

/-- Moves the clock on and tells the tasks that have run since they were told last. -/
def advanceExecutor (e : Executor Nat) (length : Duration) :
    Except Overflow (List Nat × Executor Nat) := do
  let moved ← e.moveClock length
  let settled := moved.rounds (1 + settlingRounds)
  return (settled.ran.reverse, { settled with ran := [] })

/-- Moves the clock on by one length after the other. -/
def advanceAll (e : Executor Nat) : List Nat → Except Overflow (List (List Nat))
  | [] => return []
  | nanos :: rest => do
    let (ran, e) ← advanceExecutor e (← Duration.ofNanos? nanos)
    return ran :: (← advanceAll e rest)

/-- Which tasks of a list run in which advance: the places of the tasks, for each advance.  The
tasks are given by their delays, all lengths of time in nanoseconds. -/
def runPlaces (delays advances : List Nat) : Except Overflow (List (List Nat)) := do
  let queue ← delays.zipIdx.mapM fun (delay, place) => do
    return QueuedTask.sleeper (← Duration.ofNanos? delay) place
  advanceAll (Executor.rounds settlingRounds { queue }) advances

end ModemLink.Script
