import ModemLink.Script.Answer

/-!
# Scripts for the loopback radio

Steps on a loopback radio whose reports go to a handler that writes them down, until it is dropped.
-/

namespace ModemLink.Script

/-- What the handler wrote down. -/
inductive RadioEvent where
  | frame (frame : Frame)
  | died (cookie : Epoch)

/-- The radio, whether its handler is still there, and what it wrote down, the latest in front. -/
structure LoopbackState where
  radio : Loopback := .fresh
  attached : Bool := true
  log : List RadioEvent := []

/-- A step on a loopback radio. -/
inductive LoopbackStep where
  | connect (cookie : Epoch)
  | send (handle : Handle) (serial : Serial) (kind : RequestKind) (payload : Payload)
  | sendAck (handle : Handle)
  | report (frame : Frame)
  | reportDeath (cookie : Epoch)
  | kill
  | failBinds (count : Nat)
  | failSends (enabled : Bool)
  | dropHandler
  | attached
  | sent
  | serialsFor (kind : RequestKind)

/-- A look at a loopback radio. -/
structure LoopbackLook where
  log : List RadioEvent
  sent : Nat
  last : Option Serial
  localAcks : Nat
  binds : Nat
  attempts : Nat
  cookie : Option Epoch

namespace LoopbackState

/-- Reports to the handler over the sink of the radio, and tells whether it was reached. -/
def tell (s : LoopbackState) (event : RadioEvent) : Bool × LoopbackState :=
  if s.radio.hasSink && s.attached then (true, { s with log := event :: s.log }) else (false, s)

/-- Looks at the radio and takes what was written down. -/
def look (s : LoopbackState) : LoopbackLook × LoopbackState :=
  ({ log := s.log.reverse
     sent := s.radio.taken.length
     last := s.radio.lastSerial
     localAcks := s.radio.localAcks
     binds := s.radio.binds
     attempts := s.radio.attempts
     cookie := s.radio.cookie },
    { s with log := [] })

end LoopbackState

/-- Runs a step on a loopback radio. -/
def LoopbackStep.run : LoopbackStep → LoopbackState → Answer × LoopbackState
  | .connect cookie, s =>
    let (answer, radio) := s.radio.connect cookie
    (.handle answer, { s with radio })
  | .send handle serial kind payload, s =>
    let (answer, radio) := s.radio.send handle serial kind payload
    (.sent answer, { s with radio })
  | .sendAck handle, s =>
    let (answer, radio) := s.radio.sendAck handle
    (.sent answer, { s with radio })
  | .report frame, s =>
    let (reached, s) := s.tell (.frame frame)
    (.flag reached, s)
  | .reportDeath cookie, s =>
    let (reached, s) := s.tell (.died cookie)
    (.flag reached, s)
  | .kill, s =>
    let (cookie, radio) := s.radio.kill
    match cookie with
    | none => (.done, { s with radio })
    | some cookie =>
      let (_, told) := s.tell (.died cookie)
      (.epoch cookie, { told with radio })
  | .failBinds count, s => (.done, { s with radio := { s.radio with refusals := count } })
  | .failSends enabled, s => (.done, { s with radio := { s.radio with failSends := enabled } })
  | .dropHandler, s => (.flag false, { s with attached := false })
  | .attached, s => (.flag s.attached, s)
  | .sent, s => (.commands s.radio.sent, s)
  | .serialsFor kind, s => (.serials (s.radio.serialsFor kind), s)

/-- Runs a script on a loopback radio. -/
def runLoopback (steps : List LoopbackStep) : List (Answer × LoopbackLook) :=
  trace LoopbackStep.run LoopbackState.look steps {}

end ModemLink.Script
