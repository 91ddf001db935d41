import ModemLink.Config
import ModemLink.Epoch
import ModemLink.Frame
import ModemLink.Ledger
import ModemLink.Metrics.Recorder
import ModemLink.Subscribers
import ModemLink.Timeline
import ModemLink.Wakelock.Governor

/-!
# The station

Everything that stands behind the link: the ledger of pending requests, the wakelock governor, the
subscribers, the recorder, and the timeline that drives them.  The station never calls out.  Where a
result is to be handed to a target it says so, as a `Delivery`, and leaves the call to its owner.

A frame is received in one action.  An early acknowledgment gives the unit of its request back; a
reply takes its request out of the ledger and settles it; an indication goes to the subscribers.  A
frame for a serial that is not pending is a violation and changes nothing but the books.
-/

namespace ModemLink

/-- What waits on the timeline. -/
inductive Task where
  /-- The timer of a unit of a guard. -/
  | expiry (guard : Guard) (sequence : Nat)
  /-- The deadline of a request that was sent in an epoch. -/
  | deadline (serial : Serial) (kind : RequestKind) (epoch : Epoch)
  /-- The next attempt to bind. -/
  | reconnect
deriving DecidableEq

/-- The settings of a station. -/
structure StationSettings where
  requestTimeout : Duration
  ackTimeout : Duration
  deadline : Duration
  /-- The kinds that get a neutral result after the deadline, if they have one. -/
  deadlineKinds : List RequestKind
  /-- Whom the units of the ack guard are charged to. -/
  ackSource : WorkSource

/-- The settings that a configuration means. -/
def StationSettings.ofConfig (c : Config) : StationSettings :=
  { requestTimeout := c.wakelockTimeout
    ackTimeout := c.ackWakelockTimeout
    deadline := c.blockingResponseTimeout
    deadlineKinds := c.blockingKinds
    ackSource := c.defaultSource }

/-- A result on its way to its target. -/
structure Delivery where
  target : TargetId
  result : RequestResult

/-- What a received frame did. -/
inductive Reception where
  | acked (serial : Serial) (released : Bool)
  | duplicate (serial : Serial)
  /-- The request of the reply is settled; its result is still to be delivered. -/
  | replied (serial : Serial) (delivery : Delivery)
  | dispatched (kind : IndicationKind) (subscribers : Nat)
  | violation (fault : RequestFault)

/-- The state of a station. -/
structure Station where
  settings : StationSettings
  ledger : Ledger
  entropy : Entropy
  governor : Governor
  subscribers : Subscribers
  recorder : Recorder
  timeline : Timeline Task
  /-- What the clock shows when the timeline has come so far. -/
  clock : Duration → Duration

namespace Station

/-- A station at the start of its clock. -/
def start (settings : StationSettings) (spareCapacity : Nat) (seed : Option Int)
    (entropy : Entropy) (outside : OutsideStore) : Station :=
  let (counter, entropy) := SerialCounter.start seed entropy
  { settings
    ledger := .empty spareCapacity counter
    entropy
    governor := .fresh
    subscribers := .empty
    recorder := ⟨{}, outside⟩
    timeline := .start
    clock := id }

/-- The time on the timeline. -/
def now (station : Station) : Duration := station.timeline.now

/-- The reading of the clock. -/
def reading (station : Station) : Duration := station.clock station.now

/-- A clock that shows the time on the timeline. -/
theorem reading_eq_now {station : Station} (h : station.clock = id) :
    station.reading = station.now := by
  rw [reading, h]
  rfl

/-- Whether a kind of request gets a neutral result after the deadline. -/
def hasDeadline (station : Station) (kind : RequestKind) : Bool :=
  station.settings.deadlineKinds.contains kind && kind.neutralResult?.isSome

/-- Enters a measurement. -/
def record (m : Measurement) : Clocked Station Unit :=
  Clocked.within Station.recorder (fun recorder s => { s with recorder }) (Recorder.record m)

/-- Puts a task on the timeline. -/
def schedule (delay : Duration) (task : Task) : Clocked Station Unit := fun s =>
  match s.timeline.schedule delay task with
  | .ok timeline => .ok () { s with timeline }
  | .error overflow => .error overflow s

/-- Takes a unit of a guard and starts its timer. -/
def acquire (guard : Guard) (source : WorkSource) : Clocked Station (Option Ticket) := fun s =>
  let (grant, governor) := s.governor.acquire guard source s.reading
  let s := { s with governor }
  match grant with
  | none => .ok none s
  | some ⟨ticket, sequence⟩ =>
    let timeout :=
      match guard with
      | .ack => s.settings.ackTimeout
      | _ => s.settings.requestTimeout
    match schedule timeout (.expiry guard sequence) s with
    | .ok () s => .ok (some ticket) s
    | .error overflow s => .error overflow s

/-- Gives a unit back. -/
def release (ticket : Ticket) : Clocked Station Bool := fun s =>
  Clocked.within Station.governor (fun governor s => { s with governor })
    (Governor.release ticket s.reading) s

/-- Enters a new request into the ledger. -/
def enroll (kind : RequestKind) (target : TargetId) (source : WorkSource)
    (ticket : Option Ticket) : Clocked Station Serial := fun s =>
  let (serial, ledger) := s.ledger.enroll ⟨kind, target, source, ticket, s.reading⟩
  .ok serial { s with ledger }

/-- Takes the request of a serial out of the ledger. -/
def complete (serial : Serial) : Clocked Station (Option PendingRequest) := fun s =>
  let (request, ledger) := s.ledger.complete serial
  .ok request { s with ledger }

/-- Settles a request that left the ledger: gives its unit back, if it still holds one, and enters
its outcome and latency.  Then its result may be delivered. -/
def settle (request : PendingRequest) (result : RequestResult) (outcome : Outcome) :
    Clocked Station Delivery := do
  if let some ticket := request.ticket then
    let _ ← release ticket
  let latency := request.age (← get).reading
  record (.completed request.kind outcome latency)
  return ⟨request.target, result⟩

/-- Enters a frame for a serial that is not pending. -/
def violate (serial : Serial) : Clocked Station Reception := do
  record .violation
  return .violation (.unknownSerial serial)

/-- Receives an early acknowledgment: the first one gives the unit of its request back. -/
def receiveAck (serial : Serial) : Clocked Station Reception := do
  let s ← get
  let (outcome, ledger) := s.ledger.markAcked serial
  set { s with ledger }
  match outcome with
  | .acked ticket =>
    record .ackReceived
    match ticket with
    | some ticket => return .acked serial (← release ticket)
    | none => return .acked serial false
  | .duplicate => return .duplicate serial
  | .unknown => violate serial

/-- Receives a reply: its request is settled with what the reply says. -/
def receiveReply (serial : Serial) (code : Int) (payload : Payload) :
    Clocked Station Reception := do
  match ← complete serial with
  | none => violate serial
  | some request =>
    let result := RequestResult.ofReply code payload
    return .replied serial (← settle request result (Outcome.ofResult result))

/-- Receives an indication: the subscribers of its kind get it. -/
def receiveIndication (kind : IndicationKind) (payload : Payload) :
    Clocked Station Reception := do
  let s ← get
  let (reached, subscribers) := s.subscribers.dispatch ⟨kind, payload⟩
  set { s with subscribers }
  record (.indication kind reached)
  return .dispatched kind reached

/-- Receives a frame.  A local acknowledgment that it asks for is not sent here. -/
def receive : Frame → Clocked Station Reception
  | .ack serial => receiveAck serial
  | .reply serial code payload _ => receiveReply serial code payload
  | .indication kind payload _ => receiveIndication kind payload

/-- Sets the deadline of a request, if its kind has one, and tells whether it has. -/
def arm (serial : Serial) (kind : RequestKind) (epoch : Epoch) : Clocked Station Bool := do
  let s ← get
  if s.hasDeadline kind then
    schedule s.settings.deadline (.deadline serial kind epoch)
    return true
  else
    return false

/-- Lets a deadline pass.  A request that is still pending in the epoch it was sent in is settled
with the neutral result of its kind; the deadline of an older epoch does nothing. -/
def overdue (serial : Serial) (sentIn current : Epoch) : Clocked Station (Option Delivery) := do
  if current ≠ sentIn then
    return none
  match ← complete serial with
  | none => return none
  | some request =>
    let payload := request.kind.neutralResult?.getD .empty
    return some (← settle request (.ok payload) .timedOut)

/-- Lets the timer of a unit run out.  A forced clearing of the request guard is entered. -/
def expire (guard : Guard) (sequence : Nat) : Clocked Station Unit := do
  let s ← get
  let cleared ← Clocked.within Station.governor (fun governor s => { s with governor })
    (Governor.expire guard sequence s.reading)
  if cleared && guard == .request then
    record (.wakelockTimeout guard)

/-- Runs a task of the timeline in an epoch, and tells what is to be delivered because of it.  To
bind again is not the station's affair. -/
def runTask (epoch : Epoch) : Task → Clocked Station (Option Delivery)
  | .expiry guard sequence => do
    expire guard sequence
    return none
  | .deadline serial _ sentIn => overdue serial sentIn epoch
  | .reconnect => return none

/-- What came of running due tasks: how many ran, what is to be delivered because of them, the
latest in front, and the overflow that stopped them, if one did. -/
structure DueRun where
  station : Station
  fired : Nat := 0
  deliveries : List Delivery := []
  overflow : Option Overflow := none

/-- Runs the tasks that are due by `target`, at most as many as the limit says. -/
def runDue (epoch : Epoch) (target : Duration) : Nat → DueRun → DueRun
  | 0, run => run
  | limit + 1, run =>
    match run.station.timeline.popDue? target with
    | none => { run with
        station := { run.station with timeline := run.station.timeline.setNow target } }
    | some (task, timeline) =>
      match runTask epoch task { run.station with timeline } with
      | .ok delivery station =>
        runDue epoch target limit
          { run with
            station
            fired := run.fired + 1
            deliveries := delivery.toList ++ run.deliveries }
      | .error overflow station => { run with station, overflow := some overflow }

/-- Lets time pass at a station whose targets call nobody.  Its tasks schedule no others, so there
are no more of them than wait at the start; one round more sets the clock. -/
def advance (station : Station) (epoch : Epoch) (length : Duration) : DueRun :=
  match station.timeline.beginAdvance length with
  | .ok advance =>
    runDue epoch advance.target (station.timeline.waiting + 1) { station }
  | .error overflow => { station, overflow := some overflow }

/-- Takes every pending request out, after the counter of serials was drawn anew. -/
def drainAll : Clocked Station (List PendingRequest) := do
  let s ← get
  let (_, ledger, entropy) := s.ledger.reseed s.entropy
  let (drained, ledger) := ledger.drain
  set { s with ledger, entropy }
  record (.death drained.length)
  return drained

/-- The books of a guard as diagnostics show them. -/
def guardView (guard : Guard) : Clocked Station GuardView := fun s =>
  match s.governor.view guard s.reading with
  | .ok view => .ok view s
  | .error overflow => .error overflow s

end Station

end ModemLink
