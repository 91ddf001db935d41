import ModemLink.Script.Answer
import ModemLink.Wakelock.LockFiles

/-!
# Scripts for the governor and the power manager

Steps on a governor with its timers, on a trace of power calls, and on lock files.
-/

namespace ModemLink.Script

/-- The ticket that a step gives back: one that an earlier step named, or one made up. -/
inductive TicketChoice where
  | named (name : String)
  | made (ticket : Ticket)

/-- A step on a governor. -/
inductive GovernorStep where
  | acquire (guard : Guard) (source : WorkSource) (name : String)
  | release (ticket : TicketChoice)
  | expire (guard : Guard) (sequence : Nat)
  | advance (nanos : Nat)
  | view (guard : Guard)

/-- A station of which only the governor is used, the named tickets, and the number of power calls
seen so far. -/
structure GovernorState where
  station : Station
  tickets : Names Ticket := []
  seen : Nat := 0

/-- A look at a governor. -/
structure GovernorLook where
  request : Except Overflow GuardView
  ack : Except Overflow GuardView
  counts : List Nat
  held : List Bool
  /-- The power calls since the look before. -/
  power : List PowerCall
  timeouts : UInt64
  timers : Nat

/-- Runs an action of the station. -/
def GovernorState.act {α : Type} (s : GovernorState) (action : Clocked Station α)
    (answer : α → Answer) : Answer × GovernorState :=
  match action s.station with
  | .ok a station => (answer a, { s with station })
  | .error overflow station => (.cut overflow, { s with station })

/-- Runs a step on a governor. -/
def GovernorStep.run : GovernorStep → GovernorState → Answer × GovernorState
  | .acquire guard source name, s =>
    match Station.acquire guard source s.station with
    | .ok ticket station =>
      let tickets :=
        match ticket with
        | some ticket => s.tickets.set name ticket
        | none => s.tickets
      (.ticket ticket, { s with station, tickets })
    | .error overflow station => (.cut overflow, { s with station })
  | .release choice, s =>
    let ticket :=
      match choice with
      | .named name => s.tickets.get? name
      | .made ticket => some ticket
    match ticket with
    | some ticket => s.act (Station.release ticket) .flag
    | none => (.flag false, s)
  | .expire guard sequence, s => s.act (Station.expire guard sequence) fun () => .done
  | .advance nanos, s =>
    match Duration.ofNanos? nanos with
    | .error overflow => (.cut overflow, s)
    | .ok length =>
      let run := s.station.advance .start length
      let answer :=
        match run.overflow with
        | none => .count run.fired
        | some overflow => .cut overflow
      (answer, { s with station := run.station })
  | .view guard, s => s.act (Station.guardView guard) .guard

/-- Looks at a governor. -/
def GovernorState.look (s : GovernorState) : GovernorLook × GovernorState :=
  let governor := s.station.governor
  ({ request := governor.view .request s.station.reading
     ack := governor.view .ack s.station.reading
     counts := Guard.all.map governor.count
     held := Guard.all.map governor.power.isHeld
     power := governor.power.since s.seen
     timeouts := s.station.recorder.books.counters.wakelockTimeouts
     timers := s.station.timeline.waiting },
    { s with seen := governor.power.calls.size })

/-- Runs a script on a governor. -/
def runGovernor (requestTimeout ackTimeout : Duration) (steps : List GovernorStep) :
    List (Answer × GovernorLook) :=
  let settings : StationSettings := ⟨requestTimeout, ackTimeout, .zero, [], .phone⟩
  trace GovernorStep.run GovernorState.look steps
    { station := { Station.start settings 0 (some 0) ⟨[]⟩ .silent with clock := signedClock } }

/-- A step on a trace of power calls. -/
inductive PowerStep where
  | call (call : PowerCall)
  | calls

/-- A look at a trace of power calls: for each guard whether it is held, how often it was taken, and
for whom it is held. -/
structure PowerLook where
  held : List Bool
  acquisitions : List Nat
  attribution : List (List WorkSource)

/-- Runs a script on a trace of power calls. -/
def runPower (steps : List PowerStep) : List (Answer × PowerLook) :=
  trace
    (fun step trace =>
      match step with
      | .call call => (.done, trace.push call)
      | .calls => (.powerCalls trace.calls.toList, trace))
    (fun trace =>
      (⟨Guard.all.map trace.isHeld, Guard.all.map trace.acquisitions,
        Guard.all.map trace.attribution⟩, trace))
    steps PowerTrace.empty

/-- A step on lock files. -/
inductive LockStep where
  | acquire (guard : Guard)
  | release (guard : Guard)
  | attribute (guard : Guard)
  | lockName (guard : Guard)

/-- Runs a script on lock files; each look shows the files. -/
def runLockFiles (files : LockFiles) (steps : List LockStep) : List (Answer × LockFiles) :=
  trace
    (fun step files =>
      match step with
      | .acquire guard => (.done, files.acquire guard)
      | .release guard => (.done, files.release guard)
      | .attribute _ => (.done, files)
      | .lockName guard => (.name (files.lockName guard), files))
    (fun files => (files, files)) steps files

end ModemLink.Script
