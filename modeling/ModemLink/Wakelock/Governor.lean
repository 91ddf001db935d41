import ModemLink.Duration
import ModemLink.Wakelock.Power

/-!
# The wakelock governor

For each guard the governor counts the units taken and remembers for whom, how long the guard has
been held, and how often it was cleared by force.  The power manager hears of the first unit and of
the last one given back, and of each change in the list of sources.

Each unit taken starts a timer.  When the timer of the latest unit of a guard runs out, the guard is
cleared by force: its count goes to zero and a new generation begins, in which the tickets of the
older ones are refused.

Main statement: `release_of_generation_ne`.
-/

namespace ModemLink

/-- The books of one guard. -/
structure GuardState where
  /-- The units taken and not given back. -/
  count : Nat
  /-- How many units were ever taken. -/
  sequence : Nat
  /-- How often the guard was cleared by force. -/
  generation : Nat
  /-- The units of each source, in the order of sources. -/
  attributed : List (WorkSource × Nat)
  /-- When the guard was taken, while it is held. -/
  heldSince : Option Duration
  /-- How long it was held, the present stretch not counted. -/
  heldTotal : Duration
  /-- How many clearings were recorded. -/
  expirations : Nat
deriving DecidableEq

/-- The books of a guard as diagnostics show them. -/
structure GuardView where
  guard : Guard
  count : Nat
  sequence : Nat
  generation : Nat
  held : Bool
  sources : List (WorkSource × Nat)
  heldTotal : Duration
  expirations : Nat
deriving DecidableEq

namespace GuardState

/-- A guard that was never taken. -/
def fresh : GuardState := ⟨0, 0, 0, [], none, .zero, 0⟩

instance : Inhabited GuardState := ⟨fresh⟩

/-- The sources that units are held for. -/
def sources (state : GuardState) : List WorkSource := state.attributed.map (·.1)

/-- The number of units held for a source. -/
def unitsOf (state : GuardState) (source : WorkSource) : Nat :=
  (state.attributed.lookup source).getD 0

/-- One unit more for a source. -/
def addUnit (source : WorkSource) : List (WorkSource × Nat) → List (WorkSource × Nat)
  | [] => [(source, 1)]
  | (first, units) :: rest =>
    if first = source then (first, units + 1) :: rest
    else if source.lt first then (source, 1) :: (first, units) :: rest
    else (first, units) :: addUnit source rest

/-- One unit less for a source; a source without units is struck. -/
def dropUnit (source : WorkSource) : List (WorkSource × Nat) → List (WorkSource × Nat)
  | [] => []
  | (first, units) :: rest =>
    if first = source then
      if units ≤ 1 then rest else (first, units - 1) :: rest
    else (first, units) :: dropUnit source rest

/-- The length of time the guard has been held, up to now. -/
def heldUpTo (state : GuardState) (now : Duration) : Except Overflow Duration :=
  match state.heldSince with
  | some since => state.heldTotal.add? (now.elapsed since)
  | none => .ok state.heldTotal

/-- Takes a unit, and lists the calls to the power manager. -/
def acquire (state : GuardState) (guard : Guard) (source : WorkSource) (now : Duration) :
    GuardState × List PowerCall :=
  let first := state.count = 0
  let attributed := addUnit source state.attributed
  let after := { state with
    count := state.count + 1
    sequence := state.sequence + 1
    attributed
    heldSince := if first then some now else state.heldSince }
  (after,
    (if first then [.acquire guard] else []) ++
    (if state.unitsOf source = 0 then [.attribute guard after.sources] else []))

/-- Ends a stretch of holding: nobody is held for, the stretch is added to the total, and the power
manager is told.  If the total leaves the range, nothing after the sum is done. -/
def close (state : GuardState) (guard : Guard) (now : Duration) :
    GuardState × List PowerCall × Option Overflow :=
  let cleared := { state with attributed := [], heldSince := none }
  match state.heldUpTo now with
  | .ok heldTotal => ({ cleared with heldTotal }, [.attribute guard [], .release guard], none)
  | .error overflow => (cleared, [], some overflow)

/-- The view of a guard. -/
def view (state : GuardState) (guard : Guard) (now : Duration) : Except Overflow GuardView := do
  let heldTotal ← state.heldUpTo now
  return {
    guard
    count := state.count
    sequence := state.sequence
    generation := state.generation
    held := decide (0 < state.count)
    sources := state.attributed
    heldTotal
    expirations := state.expirations }

end GuardState

/-- The books of both guards, and the calls made to the power manager. -/
structure Governor where
  request : GuardState
  ack : GuardState
  power : PowerTrace
deriving DecidableEq, Inhabited

namespace Governor

/-- A governor whose guards were never taken. -/
def fresh : Governor := ⟨.fresh, .fresh, .empty⟩

/-- The books of a guard; work without a guard has none. -/
def state? (governor : Governor) : Guard → Option GuardState
  | .unguarded => none
  | .request => some governor.request
  | .ack => some governor.ack

/-- Replaces the books of a guard and adds calls to the power manager. -/
def update (governor : Governor) (guard : Guard) (state : GuardState) (calls : List PowerCall) :
    Governor :=
  let power := governor.power.append calls
  match guard with
  | .unguarded => governor
  | .request => { governor with request := state, power }
  | .ack => { governor with ack := state, power }

/-- A unit that was taken: its ticket, and its number among the units of its guard. -/
structure Grant where
  ticket : Ticket
  sequence : Nat

/-- Takes a unit of a guard.  Work without a guard gets no unit. -/
def acquire (governor : Governor) (guard : Guard) (source : WorkSource) (now : Duration) :
    Option Grant × Governor :=
  match governor.state? guard with
  | none => (none, governor)
  | some state =>
    let (after, calls) := state.acquire guard source now
    (some ⟨⟨guard, after.generation, source⟩, after.sequence⟩, governor.update guard after calls)

/-- Gives a unit back, and tells whether the ticket was good.  It is refused if the guard has been
cleared since it was issued, or if no units are out. -/
def release (ticket : Ticket) (now : Duration) : Clocked Governor Bool := fun governor =>
  let guard := ticket.guard
  match governor.state? guard with
  | none => .ok false governor
  | some state =>
    if ticket.generation ≠ state.generation then .ok false governor
    else if state.count = 0 then .ok false governor
    else
      let taken := { state with
        count := state.count - 1
        attributed := GuardState.dropUnit ticket.source state.attributed }
      let lastOfSource := state.unitsOf ticket.source = 1
      if taken.count = 0 then
        match taken.close guard now with
        | (after, calls, none) => .ok true (governor.update guard after calls)
        | (after, calls, some overflow) => .error overflow (governor.update guard after calls)
      else
        let calls := if lastOfSource then [.attribute guard taken.sources] else []
        .ok true (governor.update guard taken calls)

/-- Lets the timer of a unit run out, and tells whether the guard was cleared.  Only the timer of
the latest unit clears it, and only while units are out. -/
def expire (guard : Guard) (sequence : Nat) (now : Duration) : Clocked Governor Bool :=
  fun governor =>
    match governor.state? guard with
    | none => .ok false governor
    | some state =>
      if state.sequence ≠ sequence then .ok false governor
      else if state.count = 0 then .ok false governor
      else
        let cleared := { state with
          count := 0
          generation := state.generation + 1
          expirations := state.expirations + 1 }
        match cleared.close guard now with
        | (after, calls, none) => .ok true (governor.update guard after calls)
        | (after, calls, some overflow) => .error overflow (governor.update guard after calls)

/-- The units of a guard that are out. -/
def count (governor : Governor) (guard : Guard) : Nat :=
  match governor.state? guard with
  | some state => state.count
  | none => 0

/-- The view of a guard; work without a guard shows empty books. -/
def view (governor : Governor) (guard : Guard) (now : Duration) : Except Overflow GuardView :=
  ((governor.state? guard).getD .fresh).view guard now

/-- A ticket of another generation is refused and changes nothing. -/
theorem release_of_generation_ne {governor : Governor} {ticket : Ticket} {state : GuardState}
    (hs : governor.state? ticket.guard = some state) (hg : ticket.generation ≠ state.generation)
    (now : Duration) : release ticket now governor = .ok false governor := by
  simp [release, hs, hg]

end Governor

end ModemLink
