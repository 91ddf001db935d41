import ModemLink.Script.Answer

/-!
# Scripts for the ledger and its counter

Steps on a counter of serials alone, and steps on a ledger with a clock of its own.
-/

namespace ModemLink.Script

/-- A step on a counter of serials. -/
inductive CounterStep where
  | next
  | peek
  | reseed

/-- A counter with the numbers it is drawn from. -/
structure CounterState where
  counter : SerialCounter
  entropy : Entropy

/-- Runs a step on a counter. -/
def CounterStep.run : CounterStep → CounterState → Answer × CounterState
  | .next, s =>
    let (serial, counter) := s.counter.issue
    (.serial serial, { s with counter })
  | .peek, s => (.serial s.counter.peek, s)
  | .reseed, s =>
    let (counter, entropy) := SerialCounter.drawn s.entropy
    (.serial counter.peek, ⟨counter, entropy⟩)

/-- Runs a script on a counter; each look shows the serial that comes next. -/
def runCounter (seed : Option Int) (entropy : Entropy) (steps : List CounterStep) :
    List (Answer × Serial) :=
  let (counter, entropy) := SerialCounter.start seed entropy
  trace CounterStep.run (fun s => (s.counter.peek, s)) steps ⟨counter, entropy⟩

/-- A step on a ledger. -/
inductive LedgerStep where
  | enroll (kind : RequestKind) (source : WorkSource) (ticket : Option Ticket)
  | complete (serial : Serial)
  | ack (serial : Serial)
  | drain
  | peek
  | contains (serial : Serial)
  | reseed
  /-- Lets so many nanoseconds pass. -/
  | tick (nanos : Nat)

/-- A ledger with its clock. -/
structure LedgerState where
  ledger : Ledger
  entropy : Entropy
  now : Duration

/-- The reading of the clock of a ledger. -/
def LedgerState.reading (s : LedgerState) : Duration := signedClock s.now

/-- A look at a ledger. -/
structure LedgerLook where
  size : Nat
  spare : Nat

/-- Runs a step on a ledger. -/
def LedgerStep.run : LedgerStep → LedgerState → Answer × LedgerState
  | .enroll kind source ticket, s =>
    let (serial, ledger) := s.ledger.enroll ⟨kind, ⟨0⟩, source, ticket, s.reading⟩
    (.serial serial, { s with ledger })
  | .complete serial, s =>
    let (request, ledger) := s.ledger.complete serial
    match request with
    | some request => (.request (.ofRequest s.reading request), { s with ledger })
    | none => (.done, { s with ledger })
  | .ack serial, s =>
    let (outcome, ledger) := s.ledger.markAcked serial
    (.ackOutcome outcome, { s with ledger })
  | .drain, s =>
    let (requests, ledger) := s.ledger.drain
    (.requests (requests.map (.ofRequest s.reading)), { s with ledger })
  | .peek, s => (.pending (s.ledger.views s.reading), s)
  | .contains serial, s => (.flag (s.ledger.contains serial), s)
  | .reseed, s =>
    let (serial, ledger, entropy) := s.ledger.reseed s.entropy
    (.serial serial, { s with ledger, entropy })
  | .tick nanos, s =>
    match Duration.ofNanos? (s.now.nanos + nanos) with
    | .ok now => (.done, { s with now })
    | .error overflow => (.cut overflow, s)

/-- Runs a script on a ledger. -/
def runLedger (capacity : Nat) (seed : Option Int) (entropy : Entropy) (steps : List LedgerStep) :
    List (Answer × LedgerLook) :=
  let (counter, entropy) := SerialCounter.start seed entropy
  trace LedgerStep.run (fun s => (⟨s.ledger.size, s.ledger.spare⟩, s)) steps
    ⟨.empty capacity counter, entropy, .zero⟩

end ModemLink.Script
