import ModemLink.Script.Subscribers

/-!
# Scripts for frames

Steps on a station without a link: requests are entered, frames are received, deadlines are set,
time passes.  Local acknowledgments are sent on a transport that each frame brings along.  The
station stays in the first epoch.
-/

namespace ModemLink.Script

/-- What delivery to a target does. -/
inductive TargetMode where
  /-- It is written down. -/
  | callback
  /-- It goes into a mailbox. -/
  | channel
  /-- It goes to a mailbox that nobody has any more. -/
  | dropped
  /-- Nothing. -/
  | detached
deriving DecidableEq

/-- The description of a target.  It does not tell whether anyone still has the mailbox. -/
def TargetMode.description : TargetMode → String
  | .callback => "ResultTarget::Callback"
  | .channel => "ResultTarget::Channel"
  | .dropped => "ResultTarget::Channel"
  | .detached => "ResultTarget::Detached"

/-- A target and the name it is written down under. -/
structure FrameTarget where
  name : String
  mode : TargetMode

/-- A step on a station. -/
inductive FrameStep where
  | enroll (kind : RequestKind) (guard : Guard) (source : WorkSource) (target : FrameTarget)
  | dispatch (frame : Frame) (transport : Option (Except LinkFault Unit))
  | finish (serial : Serial) (result : RequestResult) (outcome : Option Outcome)
  | arm (serial : Serial) (kind : RequestKind) (epoch : Epoch)
  | applies (kind : RequestKind)
  | subscribe (name : String) (kind : IndicationKind)
  | unsubscribe (name : String)
  | receive (name : String)
  | advance (nanos : Nat)
  | metrics
  | latency
  | pending
  | guardView (guard : Guard)
  | localAcks
  | mailboxes

/-- A delivery that was written down. -/
structure DeliveryEvent where
  name : String
  result : RequestResult

/-- The station, its targets in the order they were made, what was delivered, the names of
receivers, and the local acknowledgments sent so far. -/
structure FrameState where
  station : Station
  targets : Array FrameTarget := #[]
  boxes : Mailboxes := {}
  names : Names ReceiverId := []
  localAcks : Nat := 0
  /-- The deliveries written down, the latest in front. -/
  log : List DeliveryEvent := []

namespace FrameState

/-- Delivers a result to its target, and tells whether it arrived. -/
def deliver (s : FrameState) (delivery : Delivery) : Bool × FrameState :=
  match s.targets[delivery.target.index]? with
  | none => (true, s)
  | some target =>
    match target.mode with
    | .callback => (true, { s with log := ⟨target.name, delivery.result⟩ :: s.log })
    | .channel => (true, { s with boxes := s.boxes.put delivery.target delivery.result })
    | .dropped => (false, s)
    | .detached => (true, s)

/-- Runs an action of the station. -/
def act {α : Type} (s : FrameState) (action : Clocked Station α)
    (next : α → FrameState → Answer × FrameState) : Answer × FrameState :=
  match action s.station with
  | .ok a station => next a { s with station }
  | .error overflow station => (.cut overflow, { s with station })

/-- Sends the local acknowledgment that a frame asked for on the transport it came with. -/
def acknowledge (s : FrameState) (disposition : Disposition)
    (transport : Option (Except LinkFault Unit)) : Answer × FrameState :=
  match transport with
  | none => (.disposition disposition, s)
  | some answer =>
    s.act (Station.acquire .ack s.station.settings.ackSource) fun _ s =>
      match answer with
      | .error fault => (.sent (.error fault), s)
      | .ok () =>
        { s with localAcks := s.localAcks + 1 }.act (Station.record .localAck) fun () s =>
          (.disposition disposition, s)

/-- What became of a frame, after its result was delivered. -/
def dispose (s : FrameState) : Reception → Disposition × FrameState
  | .acked serial released => (.acked serial released, s)
  | .duplicate serial => (.duplicate serial, s)
  | .replied serial delivery =>
    let (delivered, s) := s.deliver delivery
    (.completed serial delivered, s)
  | .dispatched kind subscribers => (.dispatched kind subscribers, s)
  | .violation fault => (.violation fault, s)

/-- The subscribers with their names. -/
def subscriberState (s : FrameState) : SubscriberState := ⟨s.station.subscribers, s.names⟩

/-- Puts subscribers and their names back. -/
def withSubscribers (s : FrameState) (subs : SubscriberState) : FrameState :=
  { s with station := { s.station with subscribers := subs.subscribers }, names := subs.names }

/-- The targets that have mailboxes, in the order they were made. -/
def channelTargets (targets : Array FrameTarget) : List TargetId :=
  targets.toList.zipIdx.filterMap fun (target, i) =>
    if target.mode = .channel then some ⟨i⟩ else none

end FrameState

/-- Runs a step on a station. -/
def FrameStep.run : FrameStep → FrameState → Answer × FrameState
  | .enroll kind guard source target, s =>
    let id : TargetId := ⟨s.targets.size⟩
    { s with targets := s.targets.push target }.act
      (do
        let ticket ← Station.acquire guard source
        Station.enroll kind id source ticket)
      fun serial s => (.serial serial, s)
  | .dispatch frame transport, s =>
    s.act (Station.receive frame) fun reception s =>
      let (disposition, s) := s.dispose reception
      if frame.requiresAck then s.acknowledge disposition transport
      else (.disposition disposition, s)
  | .finish serial result outcome, s =>
    s.act
      (do
        match ← Station.complete serial with
        | none => return none
        | some request =>
          let outcome := outcome.getD (Outcome.ofResult result)
          return some (← Station.settle request result outcome))
      fun delivery s =>
        match delivery with
        | none => (.done, s)
        | some delivery =>
          let (delivered, s) := s.deliver delivery
          (.flag delivered, s)
  | .arm serial kind epoch, s => s.act (Station.arm serial kind epoch) fun set s => (.flag set, s)
  | .applies kind, s => (.flag (s.station.hasDeadline kind), s)
  | .subscribe name kind, s => (.done, s.withSubscribers (s.subscriberState.subscribe name kind))
  | .unsubscribe name, s =>
    let (existed, subs) := s.subscriberState.unsubscribe name
    (.flag existed, s.withSubscribers subs)
  | .receive name, s =>
    let (indications, subs) := s.subscriberState.receive name
    (.indications indications, s.withSubscribers subs)
  | .advance nanos, s =>
    match Duration.ofNanos? nanos with
    | .error overflow => (.cut overflow, s)
    | .ok length =>
      let run := s.station.advance .start length
      let s := run.deliveries.reverse.foldl (fun s delivery => (s.deliver delivery).2)
        { s with station := run.station }
      match run.overflow with
      | none => (.count run.fired, s)
      | some overflow => (.cut overflow, s)
  | .metrics, s => (.counters s.station.recorder.books.counters, s)
  | .latency, s => (.latencies s.station.recorder.books.latency.toList, s)
  | .pending, s => (.pending (s.station.ledger.views s.station.reading), s)
  | .guardView guard, s => s.act (Station.guardView guard) fun view s => (.guard view, s)
  | .localAcks, s => (.count s.localAcks, s)
  | .mailboxes, s =>
    let awaited := fun target => s.station.ledger.requests.any (·.target == target)
    let (views, boxes) := s.boxes.readAll awaited (FrameState.channelTargets s.targets)
    (.mailboxes views, { s with boxes })

/-- A look at a station; the log holds what was delivered since the look before. -/
structure FrameLook where
  pending : Nat
  request : Nat
  ack : Nat
  timers : Nat
  log : List DeliveryEvent

/-- Looks at a station. -/
def FrameState.look (s : FrameState) : FrameLook × FrameState :=
  ({ pending := s.station.ledger.size
     request := s.station.governor.count .request
     ack := s.station.governor.count .ack
     timers := s.station.timeline.waiting
     log := s.log.reverse },
    { s with log := [] })

/-- Runs a script on a station. -/
def runFrames (settings : StationSettings) (seed : Option Int) (entropy : Entropy)
    (steps : List FrameStep) : List (Answer × FrameLook) :=
  trace FrameStep.run FrameState.look steps
    { station := { Station.start settings 4 seed entropy .silent with clock := signedClock } }

end ModemLink.Script
