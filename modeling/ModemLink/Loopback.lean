import ModemLink.Link
import ModemLink.Payload
import ModemLink.RequestKind

/-!
# The loopback radio

A radio that remembers what it is told instead of sending it.  It can be made to refuse binds, to
fail sends, and to die; sends on the handle of a dead bind fail for good.  The frames it is to
report go to the sink of the last bind it accepted; after a death there is none until the next bind.
-/

namespace ModemLink

/-- A command the radio took. -/
structure SentCommand where
  serial : Serial
  kind : RequestKind
  payload : Payload
  epoch : Epoch
deriving DecidableEq

/-- The state of the loopback radio. -/
structure Loopback where
  /-- Whether frames can be reported. -/
  hasSink : Bool := false
  /-- The cookie of the live bind. -/
  cookie : Option Epoch := none
  /-- The commands taken, the latest in front. -/
  taken : List SentCommand := []
  localAcks : Nat := 0
  binds : Nat := 0
  attempts : Nat := 0
  /-- How many binds will be refused. -/
  refusals : Nat := 0
  failSends : Bool := false
  /-- The cookies of the binds that died. -/
  dead : List Epoch := []
  /-- The cookie of each handle handed out, in order. -/
  handles : Array Epoch := #[]
deriving Inhabited

namespace Loopback

/-- A radio nobody has bound. -/
def fresh : Loopback := {}

/-- The description of where frames are reported. -/
def sinkDescription (radio : Loopback) : String :=
  "ResponseSink \x7b attached: " ++ toString radio.hasSink ++ " \x7d"

/-- Binds the radio, unless it is to refuse. -/
def connect (radio : Loopback) (cookie : Epoch) : Except LinkFault Handle × Loopback :=
  let radio := { radio with attempts := radio.attempts + 1 }
  match radio.refusals with
  | refusals + 1 => (.error (.bindFailed "loopback refused bind"), { radio with refusals })
  | 0 =>
    (.ok ⟨radio.handles.size⟩, { radio with
      hasSink := true
      cookie := some cookie
      binds := radio.binds + 1
      handles := radio.handles.push cookie })

/-- The cookie a handle was handed out for. -/
def cookieOf (radio : Loopback) (handle : Handle) : Epoch :=
  (radio.handles[handle.index]?).getD .start

/-- Why a send on a handle fails, if it does. -/
def sendFault? (radio : Loopback) (handle : Handle) : Option LinkFault :=
  if radio.dead.contains (radio.cookieOf handle) then some .disconnected
  else if radio.failSends then some (.sendFailed "loopback send failure")
  else none

/-- Sends a command on a handle. -/
def send (radio : Loopback) (handle : Handle) (serial : Serial) (kind : RequestKind)
    (payload : Payload) : Except LinkFault Unit × Loopback :=
  match radio.sendFault? handle with
  | some fault => (.error fault, radio)
  | none =>
    (.ok (), { radio with taken := ⟨serial, kind, payload, radio.cookieOf handle⟩ :: radio.taken })

/-- Sends a local acknowledgment on a handle. -/
def sendAck (radio : Loopback) (handle : Handle) : Except LinkFault Unit × Loopback :=
  match radio.sendFault? handle with
  | some fault => (.error fault, radio)
  | none => (.ok (), { radio with localAcks := radio.localAcks + 1 })

/-- Lets the radio die, if it is bound.  Gives the cookie of the bind that ended. -/
def kill (radio : Loopback) : Option Epoch × Loopback :=
  match radio.cookie with
  | none => (none, radio)
  | some cookie =>
    (some cookie, { radio with cookie := none, hasSink := false, dead := cookie :: radio.dead })

/-- The commands taken, in order. -/
def sent (radio : Loopback) : List SentCommand := radio.taken.reverse

/-- The serial of the latest command. -/
def lastSerial (radio : Loopback) : Option Serial := radio.taken.head?.map (·.serial)

/-- The serials of the commands of a kind, in order. -/
def serialsFor (radio : Loopback) (kind : RequestKind) : List Serial :=
  (radio.sent.filter (·.kind == kind)).map (·.serial)

end Loopback

end ModemLink
