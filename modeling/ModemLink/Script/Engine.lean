import ModemLink.Script.Frames
import ModemLink.Status

/-!
# Scripts for the engine

Steps on a whole engine over the loopback radio.  Targets may run steps of their own when their
result comes, and each bind takes the next entry of a plan, whose steps are run before and after the
radio answers.  Such inner steps are written down with their answers.  One that is cut off is not:
it cuts off the step around it as well, and what that step had still to do is not done.

The engine may be dropped by a step.  It stays in service as long as a caller awaits a request or a
call to it is under way.  An awaited request takes its name when it has been submitted and its
result is not there yet; what the name stood for before is given up when the submission begins.
-/

namespace ModemLink.Script

/-- The serial that a step means: one that an earlier step named, or a number. -/
inductive SerialChoice where
  | named (name : String)
  | number (serial : Serial)

/-- What a step asks for. -/
structure Submission where
  kind : RequestKind
  payload : Payload
  source : Option WorkSource
  name : String

/-- A step on an engine. -/
inductive EngineStep where
  /-- Submits a request; a target that is called back runs further steps. -/
  | submit (request : Submission) (mode : TargetMode) (followUp : List EngineStep)
  /-- Submits a request and awaits its result. -/
  | request (request : Submission)
  | poll (name : String)
  | dropRequest (name : String)
  | reply (serial : SerialChoice) (code : Int) (payload : Payload) (ackRequired : Bool)
  | ack (serial : SerialChoice)
  | indicate (kind : IndicationKind) (payload : Payload) (ackRequired : Bool)
  | reportDeath (cookie : Epoch)
  | kill
  | failBinds (count : Nat)
  | failSends (enabled : Bool)
  | connect
  | died (cookie : Epoch)
  | acked (serial : Serial)
  | advance (nanos : Nat)
  | subscribe (name : String) (kind : IndicationKind)
  | unsubscribe (name : String)
  | receive (name : String)
  | mailboxes
  | sent
  | serialsFor (kind : RequestKind)
  | metrics
  | latency
  | pending
  | guardView (guard : Guard)
  | config
  | power
  | outsideMetrics
  | exposition
  | dump
  | dropEngine

/-- The name of the step. -/
def EngineStep.name : EngineStep → String
  | .submit _ _ _ => "submit"
  | .request _ => "request"
  | .poll _ => "poll"
  | .dropRequest _ => "drop_request"
  | .reply _ _ _ _ => "reply"
  | .ack _ => "ack"
  | .indicate _ _ _ => "indicate"
  | .reportDeath _ => "report_death"
  | .kill => "kill"
  | .failBinds _ => "fail_binds"
  | .failSends _ => "fail_sends"
  | .connect => "connect"
  | .died _ => "on_died"
  | .acked _ => "on_ack"
  | .advance _ => "advance"
  | .subscribe _ _ => "subscribe"
  | .unsubscribe _ => "unsubscribe"
  | .receive _ => "recv"
  | .mailboxes => "channels"
  | .sent => "sent"
  | .serialsFor _ => "serials_for"
  | .metrics => "metrics"
  | .latency => "latency"
  | .pending => "pending"
  | .guardView _ => "wakelock"
  | .config => "config"
  | .power => "power"
  | .outsideMetrics => "external"
  | .exposition => "encode"
  | .dump => "dump"
  | .dropEngine => "drop_proxy"

/-- What one bind does: the steps before the radio answers, the fault with which the bind fails
whatever the radio says, and the steps after. -/
structure EngineBindPlan where
  before : List EngineStep := []
  fault : Option LinkFault := none
  after : List EngineStep := []

/-- What is written down. -/
inductive EngineEvent where
  | connect (cookie : Epoch)
  | delivered (name : String) (result : RequestResult)
  | nested (name : String) (answer : Answer)

/-- A target: its name, what delivery to it does, whether an awaited request is behind it, and the
steps it runs when it is called back. -/
structure EngineTarget where
  name : String
  mode : TargetMode
  awaited : Bool
  followUp : List EngineStep

/-- The engine with its radio, and all that the steps have made. -/
structure EngineState where
  config : Config
  engine : Engine
  radio : Loopback := .fresh
  plan : List EngineBindPlan
  /-- Whether a step has dropped the engine. -/
  dropped : Bool := false
  targets : Array EngineTarget := #[]
  boxes : Mailboxes := {}
  /-- The serials of submitted requests. -/
  serials : Names Serial := []
  /-- The requests whose results are awaited. -/
  requests : Names TargetId := []
  receivers : Names ReceiverId := []
  /-- The number of power calls seen so far. -/
  seen : Nat := 0
  /-- What was written down, the latest in front. -/
  log : List EngineEvent := []

namespace EngineState

/-- Writes something down. -/
def note (s : EngineState) (event : EngineEvent) : EngineState := { s with log := event :: s.log }

/-- The books of the station. -/
def books (s : EngineState) : Metrics := s.engine.hub.station.recorder.books

/-- Counts the owners of the engine: the script, until it drops it, and every awaited request. -/
def countOwners (s : EngineState) : EngineState :=
  let owners := (if s.dropped then 0 else 1) + s.requests.length
  { s with engine := { s.engine with owners } }

/-- Makes a target. -/
def addTarget (s : EngineState) (target : EngineTarget) : TargetId × EngineState :=
  (⟨s.targets.size⟩, { s with targets := s.targets.push target })

/-- Takes the plan of the next bind. -/
def takePlan (s : EngineState) : EngineBindPlan × EngineState :=
  match s.plan with
  | [] => ({}, s)
  | first :: rest => (first, { s with plan := rest })

/-- The targets that have mailboxes of their own, in the order they were made. -/
def channelTargets (s : EngineState) : List TargetId :=
  s.targets.toList.zipIdx.filterMap fun (target, i) =>
    if target.mode = .channel && !target.awaited then some ⟨i⟩ else none

/-- The serial that a step means. -/
def serialOf (s : EngineState) : SerialChoice → Option Serial
  | .named name => s.serials.get? name
  | .number serial => some serial

/-- The subscribers with their names. -/
def subscriberState (s : EngineState) : SubscriberState :=
  ⟨s.engine.hub.station.subscribers, s.receivers⟩

/-- Puts subscribers and their names back. -/
def withSubscribers (s : EngineState) (subs : SubscriberState) : EngineState :=
  let hub := s.engine.hub
  let hub := { hub with station := { hub.station with subscribers := subs.subscribers } }
  { s with engine := { s.engine with hub }, receivers := subs.names }

/-- Gives up the outgoing call that waits for its answer last. -/
def abandon (s : EngineState) (overflow : Overflow) : EngineState :=
  { s with engine := s.engine.abandon overflow }

/-- Whether a frame or a death that the radio reports reaches the engine. -/
def isReached (s : EngineState) : Bool := s.radio.hasSink && s.engine.inService

/-- Forgets an awaited request. -/
def forget (s : EngineState) (name : String) : EngineState :=
  { s with requests := s.requests.erase name }.countOwners

/-- Looks for the result of an awaited request.  One that can come no more counts as unavailable. -/
def resultOf (s : EngineState) (target : TargetId) : Option RequestResult × EngineState :=
  let (view, boxes) := s.boxes.read target (s.engine.awaits target)
  match view with
  | .waiting => (none, s)
  | .closed => (some (.error .unavailable), s)
  | .holds result => (some result, { s with boxes })

/-- Polls an awaited request.  While the result is not there the name stands for the request; with
the result the request is over, and a name that another request has taken meanwhile stays. -/
def poll (s : EngineState) (name : String) (target : TargetId) : Answer × EngineState :=
  let awaiting := { s with requests := s.requests.set name target }.countOwners
  match awaiting.resultOf target with
  | (none, awaiting) => (.mailbox .waiting, awaiting)
  | (some result, awaiting) =>
    (.mailbox (.holds result), { awaiting with requests := s.requests }.countOwners)

end EngineState

/-- The answer of a step whose call has ended. -/
def Answer.ofReturned : Option Returned → Answer
  | some (.submitted id) => .serial id
  | some (.connected answer) => .live answer
  | some (.advanced tasks) => .count tasks
  | some (.cut overflow) => .cut overflow
  | some .handled => .done
  | none => .done

/-- The answer of a step that reported something, unless it was cut off. -/
def Answer.ofReport (answer : Answer) : Option Returned → Answer
  | some (.cut overflow) => .cut overflow
  | _ => answer

/-- A step that only looks, or that only changes the surroundings of the engine; nothing if it has
to call the engine.  Some need the engine itself, which may have been dropped. -/
def EngineStep.look? (step : EngineStep) (s : EngineState) : Option (Answer × EngineState) :=
  let station := s.engine.hub.station
  let needs (answer : Answer) : Option (Answer × EngineState) :=
    some (if s.dropped then .outOfService else answer, s)
  match step with
  | .poll name =>
    match s.requests.get? name with
    | none => some (.unknownName, s)
    | some target => some ((s.forget name).poll name target)
  | .dropRequest name => some (.flag (s.requests.get? name).isSome, s.forget name)
  | .failBinds count => some (.done, { s with radio := { s.radio with refusals := count } })
  | .failSends enabled => some (.done, { s with radio := { s.radio with failSends := enabled } })
  | .subscribe name kind =>
    if s.dropped then some (.outOfService, s)
    else some (.done, s.withSubscribers (s.subscriberState.subscribe name kind))
  | .unsubscribe name =>
    let (existed, subs) := s.subscriberState.unsubscribe name
    some (.flag existed, s.withSubscribers subs)
  | .receive name =>
    let (indications, subs) := s.subscriberState.receive name
    some (.indications indications, s.withSubscribers subs)
  | .mailboxes =>
    let (views, boxes) := s.boxes.readAll s.engine.awaits s.channelTargets
    some (.mailboxes views, { s with boxes })
  | .sent => some (.commands s.radio.sent, s)
  | .serialsFor kind => some (.serials (s.radio.serialsFor kind), s)
  | .metrics => needs (.counters s.books.counters)
  | .latency => needs (.latencies s.books.latency.toList)
  | .pending => needs (.pending (station.ledger.views station.reading))
  | .guardView guard => needs (.ofExcept .guard (station.governor.view guard station.reading))
  | .config => needs (.config s.config)
  | .power =>
    let power := station.governor.power
    some (.powerCalls (power.since s.seen), { s with seen := power.calls.size })
  | .outsideMetrics =>
    match station.recorder.outside with
    | .books m => some (.counters m.counters, s)
    | _ => some (.done, s)
  | .exposition =>
    match station.recorder.outside with
    | .exposition x => some (.report x.text, s)
    | _ => some (.report ({} : Exposition .tallies).text, s)
  | .dump =>
    needs (.ofExcept (fun status => .report status.text)
      (s.engine.status s.config.instanceName))
  | .dropEngine => some (.flag !s.dropped, { s with dropped := true }.countOwners)
  | _ => none

mutual

/-- Runs a step.  A call that it makes is followed to its end. -/
def runEngineStep (budget : Nat) (step : EngineStep) (s : EngineState) : Answer × EngineState :=
  match budget with
  | 0 => (.done, s)
  | budget + 1 =>
    match step.look? s with
    | some looked => looked
    | none =>
      match step with
      | .submit request mode followUp =>
        if s.dropped then (.outOfService, s)
        else
          let (target, s) := s.addTarget ⟨request.name, mode, false, followUp⟩
          let (returned, s) :=
            callEngine budget (.submit request.kind request.payload target request.source) s
          match returned with
          | some (.submitted serial) =>
            (.serial serial, { s with serials := s.serials.set request.name serial })
          | returned => (.ofReturned returned, s)
      | .request request =>
        if s.dropped then (.outOfService, s)
        else
          let (target, s) :=
            (s.forget request.name).addTarget ⟨request.name, .channel, true, []⟩
          let (returned, s) :=
            callEngine budget (.submit request.kind request.payload target request.source) s
          match returned with
          | some (.submitted _) => s.poll request.name target
          | returned => (.ofReturned returned, s)
      | .reply choice code payload ackRequired =>
        match s.serialOf choice with
        | none => (.unknownName, s)
        | some serial => reportFrame budget (.reply serial code payload ackRequired) s
      | .ack choice =>
        match s.serialOf choice with
        | none => (.unknownName, s)
        | some serial => reportFrame budget (.ack serial) s
      | .indicate kind payload ackRequired =>
        reportFrame budget (.indication kind payload ackRequired) s
      | .reportDeath cookie =>
        if s.isReached then
          let (returned, s) := callEngine budget (.die cookie) s
          (.ofReport (.flag true) returned, s)
        else (.flag false, s)
      | .kill =>
        let reached := s.isReached
        match s.radio.kill with
        | (none, _) => (.done, s)
        | (some cookie, radio) =>
          let s := { s with radio }
          if reached then
            let (returned, s) := callEngine budget (.die cookie) s
            (.ofReport (.epoch cookie) returned, s)
          else (.epoch cookie, s)
      | .connect =>
        if s.dropped then (.outOfService, s)
        else
          let (returned, s) := callEngine budget .connect s
          (.ofReturned returned, s)
      | .died cookie =>
        if s.dropped then (.outOfService, s)
        else
          let (returned, s) := callEngine budget (.die cookie) s
          (.ofReturned returned, s)
      | .acked serial =>
        if s.dropped then (.outOfService, s)
        else
          let (returned, s) := callEngine budget (.receive (.ack serial)) s
          (.ofReturned returned, s)
      | .advance nanos =>
        match Duration.ofNanos? nanos with
        | .ok length =>
          let (returned, s) := callEngine budget (.advance length) s
          (.ofReturned returned, s)
        | .error overflow => (.cut overflow, s)
      | _ => (.done, s)

/-- Lets the radio report a frame, and tells whether the engine was reached. -/
def reportFrame (budget : Nat) (frame : Frame) (s : EngineState) : Answer × EngineState :=
  match budget with
  | 0 => (.done, s)
  | budget + 1 =>
    if s.isReached then
      let (returned, s) := callEngine budget (.receive frame) s
      (.ofReport (.flag true) returned, s)
    else (.flag false, s)

/-- Makes a call and follows it to its end. -/
def callEngine (budget : Nat) (call : Call) (s : EngineState) : Option Returned × EngineState :=
  match budget with
  | 0 => (none, s)
  | budget + 1 =>
    driveEngine budget s.engine.stack.length { s with engine := s.engine.call call }

/-- Follows a call to its end: due tasks are run and outgoing calls are answered, until the call
made at the given depth of waiting calls has ended. -/
def driveEngine (budget : Nat) (depth : Nat) (s : EngineState) :
    Option Returned × EngineState :=
  match budget with
  | 0 => (none, s)
  | budget + 1 =>
    match s.engine.control with
    | .firing advance => driveEngine budget depth { s with engine := s.engine.fire advance }
    | .outside last =>
      match s.engine.stack with
      | [] => (last, s)
      | ⟨advance, call⟩ :: rest =>
        if rest.length < depth then (last, s)
        else
          match call with
          | .send live serial kind payload =>
            let (answer, radio) := s.radio.send live.handle serial kind payload
            driveEngine budget depth { s with
              radio
              engine := s.engine.resume ⟨advance, .send live serial kind payload⟩ answer }
          | .sendAck live =>
            let (answer, radio) := s.radio.sendAck live.handle
            driveEngine budget depth { s with
              radio
              engine := s.engine.resume ⟨advance, .sendAck live⟩ answer }
          | .deliver delivery use =>
            match deliverResult budget delivery s with
            | (some overflow, s) => driveEngine budget depth (s.abandon overflow)
            | (none, s) =>
              driveEngine budget depth { s with
                engine := s.engine.resume ⟨advance, .deliver delivery use⟩ () }
          | .bind cookie use =>
            match answerBind budget cookie s with
            | (.error overflow, s) => driveEngine budget depth (s.abandon overflow)
            | (.ok answer, s) =>
              driveEngine budget depth { s with
                engine := s.engine.resume ⟨advance, .bind cookie use⟩ answer }

/-- Delivers a result to its target; the overflow of an inner step comes back. -/
def deliverResult (budget : Nat) (delivery : Delivery) (s : EngineState) :
    Option Overflow × EngineState :=
  match budget with
  | 0 => (none, s)
  | budget + 1 =>
    match s.targets[delivery.target.index]? with
    | none => (none, s)
    | some target =>
      match target.mode with
      | .callback =>
        runEngineSteps budget target.followUp (s.note (.delivered target.name delivery.result))
      | .channel => (none, { s with boxes := s.boxes.put delivery.target delivery.result })
      | .dropped => (none, s)
      | .detached => (none, s)

/-- Binds the radio as planned, between the inner steps of the plan; the overflow of one of them
leaves the bind without an answer. -/
def answerBind (budget : Nat) (cookie : Epoch) (s : EngineState) :
    Except Overflow (Except LinkFault Handle) × EngineState :=
  match budget with
  | 0 => (.ok (.error .disconnected), s)
  | budget + 1 =>
    let (plan, s) := (s.note (.connect cookie)).takePlan
    match runEngineSteps budget plan.before s with
    | (some overflow, s) => (.error overflow, s)
    | (none, s) =>
      let (answer, radio) :=
        match plan.fault with
        | some fault => (.error fault, s.radio)
        | none => s.radio.connect cookie
      match runEngineSteps budget plan.after { s with radio } with
      | (some overflow, s) => (.error overflow, s)
      | (none, s) => (.ok answer, s)

/-- Runs inner steps and writes their answers down, up to the first that is cut off. -/
def runEngineSteps (budget : Nat) (steps : List EngineStep) (s : EngineState) :
    Option Overflow × EngineState :=
  match budget with
  | 0 => (none, s)
  | budget + 1 =>
    match steps with
    | [] => (none, s)
    | step :: rest =>
      match runEngineStep budget step s with
      | (.cut overflow, s) => (some overflow, s)
      | (answer, s) => runEngineSteps budget rest (s.note (.nested step.name answer))

end

/-- A look at the engine itself. -/
structure EngineView where
  epoch : Epoch
  phase : LinkPhase
  armed : Bool
  pending : Nat
  request : Nat
  ack : Nat

/-- A look at the engine and its surroundings; the log holds what was written down since the look
before. -/
structure EngineLook where
  engine : Option EngineView
  /-- The overflow that cut the look off, if one did.  Then the script has no answer at all. -/
  cut : Option Overflow
  timers : Nat
  sent : Nat
  localAcks : Nat
  binds : Nat
  attempts : Nat
  held : List Bool
  log : List EngineEvent

/-- Looks at the engine and its surroundings.  For that the status of the engine is read. -/
def EngineState.look (s : EngineState) : EngineLook × EngineState :=
  let hub := s.engine.hub
  let governor := hub.station.governor
  let view : EngineView :=
    { epoch := hub.link.epoch
      phase := hub.link.phase
      armed := hub.link.retryArmed
      pending := hub.station.ledger.size
      request := governor.count .request
      ack := governor.count .ack }
  ({ engine := if s.dropped then none else some view
     cut :=
      match s.engine.status s.config.instanceName with
      | .error overflow => if s.dropped then none else some overflow
      | .ok _ => none
     timers := hub.station.timeline.waiting
     sent := s.radio.taken.length
     localAcks := s.radio.localAcks
     binds := s.radio.binds
     attempts := s.radio.attempts
     held := [governor.power.isHeld .request, governor.power.isHeld .ack]
     log := s.log.reverse },
    { s with log := [] })

/-- What an engine script starts from. -/
structure EngineSetup where
  config : Config
  seed : Option Int
  entropy : Entropy
  outside : OutsideStore
  /-- Whether there is nothing that could let time pass. -/
  noScheduler : Bool
  plan : List EngineBindPlan

/-- Runs a script on an engine, if its configuration is valid. -/
def runEngine (budget : Nat) (setup : EngineSetup) (steps : List EngineStep) :
    Except ConfigFault (List (Answer × EngineLook)) := do
  let config ← setup.config.validate
  if setup.noScheduler then
    throw .noScheduler
  let engine := Engine.start config setup.seed setup.entropy setup.outside
  let station := { engine.hub.station with clock := signedClock }
  return trace (runEngineStep budget) EngineState.look steps
    { config
      engine := { engine with hub := { engine.hub with station } }
      plan := setup.plan }

end ModemLink.Script
