import ModemLink.Loopback
import ModemLink.Station

/-!
# Scripts and their answers

A script is a list of steps that exercise one part of the library.  Each step has an answer and is
followed by a look at the state.  This module holds what the scripts share: the answers, the
mailboxes that results are delivered to, and the tables of names that steps give to what they make.

Main statement: `length_trace`.
-/

namespace ModemLink.Script

/-- A pending request as it leaves the ledger: its view, and the ticket it still holds. -/
structure RequestView where
  view : PendingView
  ticket : Option Ticket

/-- The view of a request that leaves the ledger. -/
def RequestView.ofRequest (now : Duration) (request : PendingRequest) : RequestView :=
  ⟨.ofRequest now request, request.ticket⟩

/-- What a mailbox for one result shows. -/
inductive MailboxView where
  | waiting
  | closed
  | holds (result : RequestResult)

/-- What became of a frame. -/
inductive Disposition where
  | acked (serial : Serial) (released : Bool)
  | duplicate (serial : Serial)
  | completed (serial : Serial) (delivered : Bool)
  | dispatched (kind : IndicationKind) (subscribers : Nat)
  | violation (fault : RequestFault)

/-- The clock of the scripts: its seconds are a signed number of 64 bits, and it shows the time
since the earliest one.  So what is noted after 2^63 s is earlier than all that was noted before. -/
def signedClock (time : Duration) : Duration :=
  ⟨(time.nanos + 9223372036854775808000000000) % (Duration.maxNanos + 1),
    Nat.le_of_lt_succ (Nat.mod_lt _ (Nat.succ_pos _))⟩

/-- What a step answers. -/
inductive Answer where
  | done
  | flag (value : Bool)
  | count (n : Nat)
  | name (text : String)
  | report (text : String)
  | serial (serial : Serial)
  | serials (serials : List Serial)
  | epoch (epoch : Epoch)
  | live (answer : Except LinkFault Epoch)
  | handle (answer : Except LinkFault Handle)
  | sent (answer : Except LinkFault Unit)
  | ticket (ticket : Option Ticket)
  | request (request : RequestView)
  | requests (requests : List RequestView)
  | pending (views : List PendingView)
  | ackOutcome (outcome : AckOutcome)
  | guard (view : GuardView)
  | disposition (disposition : Disposition)
  | indications (indications : List Indication)
  | counters (counters : Counters)
  | latencies (rows : List (RequestKind × Latency))
  | mailboxes (views : List MailboxView)
  | mailbox (view : MailboxView)
  | powerCalls (calls : List PowerCall)
  | commands (commands : List SentCommand)
  | config (config : Config)
  /-- The step names what no step has made. -/
  | unknownName
  /-- The step needs what has been dropped. -/
  | outOfService
  /-- The step was cut off by an overflow. -/
  | cut (overflow : Overflow)

/-- The answer of an action that may be cut off. -/
def Answer.ofExcept {α : Type} (answer : α → Answer) : Except Overflow α → Answer
  | .ok a => answer a
  | .error overflow => .cut overflow

/-- Runs a script: after each step it looks at the state, and looking may change it. -/
def trace {σ Step View : Type} (step : Step → σ → Answer × σ) (look : σ → View × σ) :
    List Step → σ → List (Answer × View)
  | [], _ => []
  | first :: rest, s =>
    let (answer, s) := step first s
    let (view, s) := look s
    (answer, view) :: trace step look rest s

/-- A script has one answer for each step. -/
theorem length_trace {σ Step View : Type} (step : Step → σ → Answer × σ) (look : σ → View × σ)
    (steps : List Step) (s : σ) : (trace step look steps s).length = steps.length := by
  induction steps generalizing s with
  | nil => rfl
  | cons first rest ih => simp [trace, ih]

/-- Names given to what steps made, the latest in front. -/
abbrev Names (α : Type) := List (String × α)

namespace Names

/-- What a name stands for. -/
def get? {α : Type} (names : Names α) (name : String) : Option α := names.lookup name

/-- Lets a name stand for something, and for nothing else. -/
def set {α : Type} (names : Names α) (name : String) (a : α) : Names α :=
  (name, a) :: names.filter (·.1 != name)

/-- Takes a name back. -/
def erase {α : Type} (names : Names α) (name : String) : Names α := names.filter (·.1 != name)

end Names

/-- Where results are delivered: each target has a mailbox, which takes one result. -/
structure Mailboxes where
  /-- The results that came and were not read, by target. -/
  held : List (TargetId × RequestResult) := []

namespace Mailboxes

/-- Puts a result into the mailbox of a target. -/
def put (boxes : Mailboxes) (target : TargetId) (result : RequestResult) : Mailboxes :=
  ⟨(target, result) :: boxes.held⟩

/-- Looks into the mailbox of a target.  A result is read once; a mailbox without one waits as long
as its request does. -/
def read (boxes : Mailboxes) (target : TargetId) (awaited : Bool) : MailboxView × Mailboxes :=
  match boxes.held.lookup target with
  | some result => (.holds result, ⟨boxes.held.filter (·.1 != target)⟩)
  | none => (if awaited then .waiting else .closed, boxes)

/-- Looks into several mailboxes, one after the other. -/
def readAll (awaits : TargetId → Bool) : List TargetId → Mailboxes → List MailboxView × Mailboxes
  | [], boxes => ([], boxes)
  | target :: rest, boxes =>
    let (view, boxes) := boxes.read target (awaits target)
    let (views, boxes) := readAll awaits rest boxes
    (view :: views, boxes)

end Mailboxes

end ModemLink.Script
