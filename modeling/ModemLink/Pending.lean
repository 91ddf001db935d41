import ModemLink.Duration
import ModemLink.Guard
import ModemLink.RequestKind
import ModemLink.Serial

/-!
# Pending requests

A request that was admitted and has no result yet.
-/

namespace ModemLink

/-- Where a result is to be delivered.  What delivery there means is the caller's affair; here a
target is only a number. -/
structure TargetId where
  index : Nat
deriving DecidableEq, Hashable, Inhabited

/-- How far a pending request has come. -/
inductive RequestState where
  | sent
  | acked
deriving DecidableEq, Repr

/-- The name of the state. -/
def RequestState.name : RequestState → String
  | .sent => "sent"
  | .acked => "acked"

/-- A request that waits for its result. -/
structure PendingRequest where
  serial : Serial
  kind : RequestKind
  target : TargetId
  source : WorkSource
  /-- The unit held for the request, until its first acknowledgment. -/
  ticket : Option Ticket
  state : RequestState
  submittedAt : Duration
deriving DecidableEq

namespace PendingRequest

/-- The guard of which the request holds a unit. -/
def guard (request : PendingRequest) : Guard :=
  match request.ticket with
  | some ticket => ticket.guard
  | none => .unguarded

/-- How long ago the request was submitted. -/
def age (request : PendingRequest) (now : Duration) : Duration := now.elapsed request.submittedAt

end PendingRequest

/-- A pending request as diagnostics show it. -/
structure PendingView where
  serial : Serial
  kind : RequestKind
  age : Duration
  state : RequestState
  guard : Guard
  source : WorkSource
deriving DecidableEq

namespace PendingView

/-- The view of a request at a reading of the clock. -/
def ofRequest (now : Duration) (request : PendingRequest) : PendingView :=
  ⟨request.serial, request.kind, request.age now, request.state, request.guard, request.source⟩

/-- Older requests come first, and among equally old ones the smaller serial. -/
def le (a b : PendingView) : Bool :=
  decide (b.age < a.age) ||
    (decide (a.age = b.age) && decide (a.serial.number ≤ b.serial.number))

end PendingView

end ModemLink
