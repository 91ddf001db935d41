import ModemLink.Link
import ModemLink.Station

/-!
# The engine

The engine joins the station to the link.  It makes four sorts of outgoing call: it binds the radio,
sends it a command, sends it a local acknowledgment, and delivers a result to its target.  Whoever
takes such a call may call the engine again before it answers, to any depth: a target may submit the
next request, a bind may report the death of the one before it.

So the calls that wait for an answer form a stack, and each of them remembers what is to be done
with the answer.  The engine is either outside, where its surroundings may make a call or answer the
one on top of the stack, or firing, where the next due task is taken off the timeline.  Nothing in
it is recursive: every transition runs to the next outgoing call, to the end of a call, or to the
end of a task.

An overflow cuts off the call or the advance in which it happens: what was done before stays, and
requests in its hands are lost.  If that call was made while another waited for an answer, the
answer will not come, and the surroundings abandon the call that waits for it too.

Main statement: `Hub.die_of_stale`.
-/

namespace ModemLink

/-- What a handle is wanted for. -/
inductive BindUse where
  /-- A submitted request, to be sent on it. -/
  | submission (serial : Serial) (kind : RequestKind) (payload : Payload)
  /-- The caller asked for the link. -/
  | connection
  /-- The scheduled attempt after a failure or a death. -/
  | retry
deriving DecidableEq

/-- Where the news of a death came from. -/
inductive DeathUse where
  | report
  /-- The command of this serial could not be sent. -/
  | failedSend (serial : Serial)
  /-- A local acknowledgment could not be sent. -/
  | failedAck
deriving DecidableEq

/-- What is to be done after a delivery. -/
inductive DeliveryUse where
  /-- The local acknowledgment of a reply, if it was asked for on a live link. -/
  | reply (live : Option LiveLink)
  /-- The end of the submission whose bind failed. -/
  | refusal (serial : Serial)
  /-- The other requests that a death has failed. -/
  | drain (rest : List PendingRequest) (use : DeathUse)
  /-- The end of a deadline. -/
  | deadline
deriving DecidableEq

/-- An outgoing call, with what is to be done with its answer. -/
inductive Outgoing where
  | bind (cookie : Epoch) (use : BindUse)
  | send (live : LiveLink) (serial : Serial) (kind : RequestKind) (payload : Payload)
  | deliver (delivery : Delivery) (use : DeliveryUse)
  | sendAck (live : LiveLink)

/-- What an outgoing call is answered with. -/
def Outgoing.Answer : Outgoing → Type
  | .bind _ _ => Except LinkFault Handle
  | .send _ _ _ _ => Except LinkFault Unit
  | .deliver _ _ => Unit
  | .sendAck _ => Except LinkFault Unit

/-- How a call of the engine ended. -/
inductive Returned where
  | submitted (serial : Serial)
  | connected (answer : Except LinkFault Epoch)
  | handled
  | advanced (tasks : Nat)
  | cut (overflow : Overflow)

/-- How far a transition came. -/
inductive Progress where
  | waits (call : Outgoing)
  | ends (returned : Returned)

/-- The station, the link, and the delay of the next attempt to bind. -/
structure Hub where
  station : Station
  link : Link
  reconnectDelay : Duration

namespace Hub

/-- An action of the station. -/
def atStation {α : Type} (act : Clocked Station α) : Clocked Hub α :=
  Clocked.within Hub.station (fun station hub => { hub with station }) act

/-- Enters a measurement. -/
def record (m : Measurement) : Clocked Hub Unit := atStation (Station.record m)

/-- Schedules the next attempt to bind, unless one is scheduled already. -/
def scheduleReconnect : Clocked Hub Unit := do
  let hub ← get
  match hub.link.armRetry with
  | none => return
  | some link =>
    set { hub with link }
    atStation (Station.schedule hub.reconnectDelay .reconnect)

/-- Goes on with the handle that was wanted, or without it.  A submitted request is sent, after its
deadline was set; without a handle it fails, unless it has left the ledger already. -/
def bound (use : BindUse) (answer : Except LinkFault LiveLink) : Clocked Hub Progress := do
  match use, answer with
  | .submission serial kind payload, .ok live =>
    let _ ← atStation (Station.arm serial kind live.epoch)
    return .waits (.send live serial kind payload)
  | .submission serial _ _, .error _ =>
    match ← atStation (Station.complete serial) with
    | none => return .ends (.submitted serial)
    | some request =>
      let delivery ← atStation (Station.settle request (.error .unavailable) .unavailable)
      return .waits (.deliver delivery (.refusal serial))
  | .connection, answer => return .ends (.connected (answer.map (·.epoch)))
  | .retry, _ => return .ends .handled

/-- Gets a handle: the live one, or a new one from the radio. -/
def bind (use : BindUse) : Clocked Hub Progress := do
  let hub ← get
  match hub.link.current with
  | some live => bound use (.ok live)
  | none =>
    let link := hub.link.beginBind
    set { hub with link }
    return .waits (.bind link.epoch use)

/-- Takes the radio's answer to a bind. -/
def bindAnswered (cookie : Epoch) (use : BindUse) (answer : Except LinkFault Handle) :
    Clocked Hub Progress := do
  let hub ← get
  let (outcome, link) := hub.link.endBind cookie answer
  set { hub with link }
  match outcome with
  | .ok _ => record (.bind true)
  | .error _ =>
    record (.bind false)
    scheduleReconnect
  bound use outcome

/-- The end of the handling of a death. -/
def deathHandled : DeathUse → Returned
  | .report => .handled
  | .failedSend serial => .submitted serial
  | .failedAck => .handled

/-- Fails the next of the requests that a death took out of the ledger; after the last one the next
attempt to bind is scheduled. -/
def drainNext (requests : List PendingRequest) (use : DeathUse) : Clocked Hub Progress := do
  match requests with
  | [] =>
    scheduleReconnect
    return .ends (deathHandled use)
  | request :: rest =>
    let delivery ← atStation (Station.settle request (.error .unavailable) .unavailable)
    return .waits (.deliver delivery (.drain rest use))

/-- Handles the news that the bind of a cookie died.  News of an epoch that is over changes
nothing. -/
def die (cookie : Epoch) (use : DeathUse) : Clocked Hub Progress := do
  let hub ← get
  match hub.link.confirmDeath cookie with
  | none => return .ends (deathHandled use)
  | some link =>
    set { hub with link }
    let drained ← atStation Station.drainAll
    drainNext drained use

/-- Sends the local acknowledgment that a frame asked for, on the link that was live when the frame
came.  A unit of the ack guard is taken for it. -/
def acknowledge : Option LiveLink → Clocked Hub Progress
  | none => return .ends .handled
  | some live => do
    let hub ← get
    let _ ← atStation (Station.acquire .ack hub.station.settings.ackSource)
    return .waits (.sendAck live)

/-- Receives a frame. -/
def receive (frame : Frame) : Clocked Hub Progress := do
  let hub ← get
  let live := if frame.requiresAck then hub.link.current else none
  match ← atStation (Station.receive frame) with
  | .replied _ delivery => return .waits (.deliver delivery (.reply live))
  | _ => acknowledge live

/-- Submits a request: a unit of the request guard is taken for it, it enters the ledger, and a
handle is got to send it on. -/
def submit (kind : RequestKind) (payload : Payload) (target : TargetId)
    (source : Option WorkSource) : Clocked Hub Progress := do
  let hub ← get
  let source := source.getD hub.station.settings.ackSource
  record (.submitted kind)
  let ticket ← atStation (Station.acquire .request source)
  let serial ← atStation (Station.enroll kind target source ticket)
  bind (.submission serial kind payload)

/-- Runs a task of the timeline. -/
def runTask : Task → Clocked Hub Progress
  | .expiry guard sequence => do
    atStation (Station.expire guard sequence)
    return .ends .handled
  | .deadline serial _ sentIn => do
    let hub ← get
    match ← atStation (Station.overdue serial sentIn hub.link.epoch) with
    | none => return .ends .handled
    | some delivery => return .waits (.deliver delivery .deadline)
  | .reconnect => do
    let hub ← get
    set { hub with link := hub.link.disarmRetry }
    if hub.link.phase = .bound then
      return .ends .handled
    else
      bind .retry

/-- Takes the answer to an outgoing call. -/
def answered : (call : Outgoing) → call.Answer → Clocked Hub Progress
  | .bind cookie use, answer => bindAnswered cookie use answer
  | .send live serial _ _, answer =>
    match (answer : Except LinkFault Unit) with
    | .ok () => return .ends (.submitted serial)
    | .error _ => die live.epoch (.failedSend serial)
  | .deliver _ use, _ =>
    match use with
    | .reply live => acknowledge live
    | .refusal serial => return .ends (.submitted serial)
    | .drain rest use => drainNext rest use
    | .deadline => return .ends .handled
  | .sendAck live, answer =>
    match (answer : Except LinkFault Unit) with
    | .ok () => do
      record .localAck
      return .ends .handled
    | .error _ => die live.epoch .failedAck

/-- News of the death of another epoch changes nothing. -/
theorem die_of_stale {hub : Hub} {cookie : Epoch} (h : cookie ≠ hub.link.epoch)
    (use : DeathUse) : die cookie use hub = .ok (.ends (deathHandled use)) hub := by
  simp [die, Link.confirmDeath_of_ne h]

end Hub

/-- A call that waits for an answer from outside. -/
structure Suspension where
  /-- The advance of the clock that ran the task which made the call, if a task made it. -/
  advance : Option Advance
  call : Outgoing

/-- Whose turn it is. -/
inductive Control where
  /-- The surroundings': they may make a call or answer the one on top of the stack.  The call that
  ended just now left its result. -/
  | outside (last : Option Returned)
  /-- The engine's: the next due task of an advance is to be run. -/
  | firing (advance : Advance)

/-- A call of the engine. -/
inductive Call where
  | submit (kind : RequestKind) (payload : Payload) (target : TargetId)
      (source : Option WorkSource)
  | connect
  | receive (frame : Frame)
  | die (cookie : Epoch)
  | advance (length : Duration)

/-- The engine: its state, the calls that wait, and whose turn it is. -/
structure Engine where
  hub : Hub
  stack : List Suspension
  control : Control
  /-- How many owners outside keep the engine in service.  Calls that wait keep it too. -/
  owners : Nat

namespace Engine

/-- An engine that follows a configuration. -/
def start (c : Config) (seed : Option Int) (entropy : Entropy) (outside : OutsideStore) : Engine :=
  { hub :=
      { station :=
          .start (.ofConfig c) c.freeListCapacity.toNat seed entropy outside
        link := .fresh
        reconnectDelay := c.reconnectDelay }
    stack := []
    control := .outside none
    owners := 1 }

/-- The time on the timeline. -/
def now (e : Engine) : Duration := e.hub.station.now

/-- The reading of the clock. -/
def reading (e : Engine) : Duration := e.hub.station.reading

/-- Runs a transition for a call from outside or for a task of an advance, and notes how far it
came. -/
def follow (advance : Option Advance) (transition : Clocked Hub Progress) (e : Engine) : Engine :=
  match transition e.hub with
  | .ok (.waits call) hub =>
    { e with hub, stack := ⟨advance, call⟩ :: e.stack, control := .outside none }
  | .ok (.ends returned) hub =>
    match advance with
    | none => { e with hub, control := .outside (some returned) }
    | some advance => { e with hub, control := .firing advance.step }
  | .error overflow hub => { e with hub, control := .outside (some (.cut overflow)) }

/-- Makes a call. -/
def call (e : Engine) : Call → Engine
  | .submit kind payload target source => e.follow none (Hub.submit kind payload target source)
  | .connect => e.follow none (Hub.bind .connection)
  | .receive frame => e.follow none (Hub.receive frame)
  | .die cookie => e.follow none (Hub.die cookie .report)
  | .advance length =>
    match e.hub.station.timeline.beginAdvance length with
    | .ok advance => { e with control := .firing advance }
    | .error overflow => { e with control := .outside (some (.cut overflow)) }

/-- Answers the outgoing call of the suspension on top of the stack. -/
def resume (e : Engine) (top : Suspension) (answer : top.call.Answer) : Engine :=
  { e with stack := e.stack.tail }.follow top.advance (Hub.answered top.call answer)

/-- Gives up the outgoing call on top of the stack, whose answer will not come: the call or the
advance that made it is cut off. -/
def abandon (e : Engine) (overflow : Overflow) : Engine :=
  { e with stack := e.stack.tail, control := .outside (some (.cut overflow)) }

/-- Whether calls or owners outside keep the engine in service.  A call that a task made does
not. -/
def inService (e : Engine) : Bool :=
  decide (0 < e.owners) || e.stack.any (·.advance.isNone)

/-- Whether the ledger and the governor are still there: a deadline that is set, or whose result is
being delivered, keeps them beyond the service of the engine. -/
def keepsLedger (e : Engine) : Bool :=
  e.inService ||
    e.hub.station.timeline.queue.any (fun timer =>
      match timer.task with
      | .deadline _ _ _ => true
      | _ => false) ||
    e.stack.any (fun suspension =>
      match suspension.call with
      | .deliver _ .deadline => true
      | _ => false)

/-- Whether the link is still there: an attempt to bind under way keeps it beyond the service of the
engine. -/
def keepsLink (e : Engine) : Bool :=
  e.inService ||
    e.stack.any (fun suspension =>
      match suspension.call with
      | .bind _ .retry => true
      | _ => false)

/-- Whether what a task works on is still there. -/
def serves (e : Engine) : Task → Bool
  | .expiry _ _ => e.keepsLedger
  | .deadline _ _ _ => true
  | .reconnect => e.keepsLink

/-- Sets the timeline. -/
def withTimeline (e : Engine) (timeline : Timeline Task) : Engine :=
  { e with hub := { e.hub with station := { e.hub.station with timeline } } }

/-- Runs the next due task of an advance.  When none is due any more the clock is set to where the
advance leads. -/
def fire (e : Engine) (advance : Advance) : Engine :=
  match e.hub.station.timeline.popDue? advance.target with
  | none =>
    { e.withTimeline (e.hub.station.timeline.setNow advance.target) with
      control := .outside (some (.advanced advance.fired)) }
  | some (task, timeline) =>
    let e := e.withTimeline timeline
    if e.serves task then e.follow (some advance) (Hub.runTask task)
    else { e with control := .firing advance.step }

/-- Whether the request of a target waits for its result: it is in the ledger, or among the requests
that a death has taken out and not failed yet. -/
def awaits (e : Engine) (target : TargetId) : Bool :=
  (e.keepsLedger && e.hub.station.ledger.requests.any (·.target == target)) ||
    e.stack.any (fun suspension =>
      match suspension.call with
      | .deliver _ (.drain rest _) => rest.any (·.target == target)
      | _ => false)

end Engine

end ModemLink
