import ModemLink.Link.Session
import ModemLink.Script.Answer

/-!
# Scripts for link sessions

Steps on a link session over a planned radio: each bind takes the next entry of the plan, which says
what steps are run while the bind is under way and whether it fails.  Past the end of the plan every
bind succeeds.  An inner step that is cut off cuts off the step around it as well.
-/

namespace ModemLink.Script

/-- A step on a link session. -/
inductive LinkStep where
  | getHandle
  | current
  | confirmDeath (cookie : Epoch)
  | scheduleReconnect
  | advance (nanos : Nat)
  | phase

/-- The name of the step. -/
def LinkStep.name : LinkStep → String
  | .getHandle => "get_handle"
  | .current => "current"
  | .confirmDeath _ => "confirm_death"
  | .scheduleReconnect => "schedule_reconnect"
  | .advance _ => "advance"
  | .phase => "phase"

/-- What one bind does. -/
structure BindPlan where
  during : List LinkStep
  fault : Option LinkFault

/-- What is written down about binds. -/
inductive LinkEvent where
  | connect (cookie : Epoch)
  | nested (name : String) (answer : Answer)
  | connected (cookie : Epoch)

/-- The session, the rest of the plan, the number of handles made, and what was written down, the
latest in front. -/
structure LinkState where
  session : LinkSession
  plan : List BindPlan
  handles : Nat := 0
  log : List LinkEvent := []

namespace LinkState

/-- Writes something down. -/
def note (s : LinkState) (event : LinkEvent) : LinkState := { s with log := event :: s.log }

/-- Takes the plan of the next bind. -/
def takePlan (s : LinkState) : BindPlan × LinkState :=
  match s.plan with
  | [] => (⟨[], none⟩, s)
  | first :: rest => (first, { s with plan := rest })

/-- What the radio answers a bind. -/
def radioAnswer (s : LinkState) (fault : Option LinkFault) :
    Except LinkFault Handle × LinkState :=
  match fault with
  | some fault => (.error fault, s)
  | none => (.ok ⟨s.handles⟩, { s with handles := s.handles + 1 })

end LinkState

/-- The answer of a step whose call has ended. -/
def Answer.ofLink : LinkReturned → Answer
  | .handle answer => .live (answer.map (·.epoch))
  | .armed new => .flag new
  | .advanced tasks => .count tasks
  | .cut overflow => .cut overflow

mutual

/-- Runs a step.  A call that it makes is followed to its end. -/
def runLinkStep (budget : Nat) (step : LinkStep) (s : LinkState) : Answer × LinkState :=
  match budget with
  | 0 => (.done, s)
  | budget + 1 =>
    let depth := s.session.stack.length
    match step with
    | .getHandle => driveLink budget depth { s with session := s.session.getHandle }
    | .current =>
      match s.session.link.current with
      | some live => (.live (.ok live.epoch), s)
      | none => (.done, s)
    | .confirmDeath cookie =>
      let (epoch, session) := s.session.confirmDeath cookie
      match epoch with
      | some epoch => (.epoch epoch, { s with session })
      | none => (.done, { s with session })
    | .scheduleReconnect =>
      driveLink budget depth { s with session := s.session.scheduleReconnect }
    | .advance nanos =>
      match Duration.ofNanos? nanos with
      | .ok length => driveLink budget depth { s with session := s.session.advance length }
      | .error overflow => (.cut overflow, s)
    | .phase => (.name s.session.link.phase.name, s)

/-- Follows a call to its end: due attempts are run and binds are answered as planned, until the
call made at the given depth of binds has ended. -/
def driveLink (budget : Nat) (depth : Nat) (s : LinkState) : Answer × LinkState :=
  match budget with
  | 0 => (.done, s)
  | budget + 1 =>
    match s.session.control with
    | .firing advance => driveLink budget depth { s with session := s.session.fire advance }
    | .outside last =>
      match s.session.stack with
      | [] => (last.elim .done .ofLink, s)
      | top :: rest =>
        if rest.length < depth then (last.elim .done .ofLink, s)
        else
          let (plan, s) := s.takePlan
          match runLinkSteps budget plan.during (s.note (.connect top.cookie)) with
          | (some overflow, s) =>
            driveLink budget depth { s with session := s.session.abandon overflow }
          | (none, s) =>
            let (answer, s) := (s.note (.connected top.cookie)).radioAnswer plan.fault
            driveLink budget depth { s with session := s.session.answer top answer }

/-- Runs the steps of a plan and writes their answers down, up to the first that is cut off. -/
def runLinkSteps (budget : Nat) (steps : List LinkStep) (s : LinkState) :
    Option Overflow × LinkState :=
  match budget with
  | 0 => (none, s)
  | budget + 1 =>
    match steps with
    | [] => (none, s)
    | step :: rest =>
      match runLinkStep budget step s with
      | (.cut overflow, s) => (some overflow, s)
      | (answer, s) => runLinkSteps budget rest (s.note (.nested step.name answer))

end

/-- A look at a link session; the log holds what was written down since the look before. -/
structure LinkLook where
  link : Link
  timers : Nat
  binds : UInt64
  failures : UInt64
  log : List LinkEvent

/-- Looks at a link session. -/
def LinkState.look (s : LinkState) : LinkLook × LinkState :=
  ({ link := s.session.link
     timers := s.session.timeline.waiting
     binds := s.session.binds
     failures := s.session.failures
     log := s.log.reverse },
    { s with log := [] })

/-- Runs a script on a link session. -/
def runLink (budget : Nat) (delay : Duration) (plan : List BindPlan) (steps : List LinkStep) :
    List (Answer × LinkLook) :=
  trace (runLinkStep budget) LinkState.look steps { session := .start delay, plan }

end ModemLink.Script
