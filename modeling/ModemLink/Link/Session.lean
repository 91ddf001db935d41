import ModemLink.Link
import ModemLink.Timeline

/-!
# Link sessions

The link alone, with its timer but without requests: binds on demand, reports of death, and attempts
to bind again after a delay.  A bind may be answered late: while it is under way the surroundings
may ask for the handle again, report deaths and let time pass, to any depth.  So the binds under way
form a stack.

Main statements: `confirmDeath_of_ne`, `stack_getHandle`.
-/

namespace ModemLink

/-- Who wants the handle of a bind under way. -/
inductive BindCaller where
  | outside
  /-- The scheduled attempt, run by an advance of the clock. -/
  | retry (advance : Advance)
deriving DecidableEq

/-- A bind under way. -/
structure OpenBind where
  cookie : Epoch
  caller : BindCaller
deriving DecidableEq

/-- How a call of the session ended. -/
inductive LinkReturned where
  | handle (answer : Except LinkFault LiveLink)
  | armed (new : Bool)
  | advanced (tasks : Nat)
  | cut (overflow : Overflow)

/-- Whose turn it is. -/
inductive LinkControl where
  | outside (last : Option LinkReturned)
  | firing (advance : Advance)

/-- The link, its timer, the binds counted, and the binds under way. -/
structure LinkSession where
  link : Link
  timeline : Timeline Unit
  delay : Duration
  binds : UInt64
  failures : UInt64
  stack : List OpenBind
  control : LinkControl

namespace LinkSession

/-- A session at the start of its clock. -/
def start (delay : Duration) : LinkSession := ⟨.fresh, .start, delay, 0, 0, [], .outside none⟩

/-- Schedules the next attempt, unless one is scheduled already, and tells whether it did. -/
def arm : Clocked LinkSession Bool := fun s =>
  match s.link.armRetry with
  | none => .ok false s
  | some link =>
    match s.timeline.schedule s.delay () with
    | .ok timeline => .ok true { s with link, timeline }
    | .error overflow => .error overflow { s with link }

/-- Hands an outcome to whoever wanted the handle. -/
def hand (s : LinkSession) (answer : Except LinkFault LiveLink) : BindCaller → LinkSession
  | .outside => { s with control := .outside (some (.handle answer)) }
  | .retry advance => { s with control := .firing advance.step }

/-- Gets the live handle, or begins a bind. -/
def bind (s : LinkSession) (caller : BindCaller) : LinkSession :=
  match s.link.current with
  | some live => s.hand (.ok live) caller
  | none =>
    let link := s.link.beginBind
    { s with link, stack := ⟨link.epoch, caller⟩ :: s.stack, control := .outside none }

/-- Asks for the handle. -/
def getHandle (s : LinkSession) : LinkSession := s.bind .outside

/-- Answers the bind on top of the stack. -/
def answer (s : LinkSession) (top : OpenBind) (answer : Except LinkFault Handle) : LinkSession :=
  let (outcome, link) := s.link.endBind top.cookie answer
  let s := { s with link, stack := s.stack.tail }
  match outcome with
  | .ok _ => { s with binds := s.binds + 1 }.hand outcome top.caller
  | .error _ =>
    match arm { s with failures := s.failures + 1 } with
    | .ok _ s => s.hand outcome top.caller
    | .error overflow s => { s with control := .outside (some (.cut overflow)) }

/-- Gives up the bind on top of the stack, whose answer will not come: whoever wanted its handle is
cut off, and the link stays as it is. -/
def abandon (s : LinkSession) (overflow : Overflow) : LinkSession :=
  { s with stack := s.stack.tail, control := .outside (some (.cut overflow)) }

/-- Schedules the next attempt on demand. -/
def scheduleReconnect (s : LinkSession) : LinkSession :=
  match arm s with
  | .ok new s => { s with control := .outside (some (.armed new)) }
  | .error overflow s => { s with control := .outside (some (.cut overflow)) }

/-- Reports a death, and tells the new epoch if the report was believed. -/
def confirmDeath (s : LinkSession) (cookie : Epoch) : Option Epoch × LinkSession :=
  match s.link.confirmDeath cookie with
  | some link => (some link.epoch, { s with link })
  | none => (none, s)

/-- Begins an advance of the clock. -/
def advance (s : LinkSession) (length : Duration) : LinkSession :=
  match s.timeline.beginAdvance length with
  | .ok advance => { s with control := .firing advance }
  | .error overflow => { s with control := .outside (some (.cut overflow)) }

/-- Runs the next due attempt of an advance; it is not made while the link is bound. -/
def fire (s : LinkSession) (advance : Advance) : LinkSession :=
  match s.timeline.popDue? advance.target with
  | none =>
    { s with
      timeline := s.timeline.setNow advance.target
      control := .outside (some (.advanced advance.fired)) }
  | some ((), timeline) =>
    let bound := s.link.phase = .bound
    let s := { s with timeline, link := s.link.disarmRetry }
    if bound then { s with control := .firing advance.step } else s.bind (.retry advance)

/-- A report of death that names another epoch changes nothing. -/
theorem confirmDeath_of_ne {s : LinkSession} {cookie : Epoch} (h : cookie ≠ s.link.epoch) :
    s.confirmDeath cookie = (none, s) := by
  simp [confirmDeath, Link.confirmDeath_of_ne h]

/-- Asking for the handle begins at most one bind. -/
theorem stack_getHandle (s : LinkSession) :
    s.getHandle.stack = s.stack ∨ ∃ top, s.getHandle.stack = top :: s.stack := by
  unfold getHandle bind
  split
  · exact .inl rfl
  · exact .inr ⟨_, rfl⟩

end LinkSession

end ModemLink
