import ModemLink.Payload
import ModemLink.Serial

/-!
# Faults

A request fails with a `RequestFault`; a call on the link to the radio fails with a `LinkFault`.  To
the caller of a request every fault of the link means the same: the radio is unavailable.
-/

namespace ModemLink

/-- Why a request failed. -/
inductive RequestFault where
  /-- The radio could not be reached, or died before it replied. -/
  | unavailable
  /-- The radio refused, with a number of its own. -/
  | rejected (code : Int)
  /-- A frame named a serial that no open request has. -/
  | unknownSerial (serial : Serial)
deriving DecidableEq

namespace RequestFault

/-- The number that stands for the fault. -/
def code : RequestFault → Int
  | .unavailable => 1
  | .rejected code => code
  | .unknownSerial _ => 38

/-- The fault that a reply's code means; code zero is success. -/
def ofReplyCode? (code : Int) : Option RequestFault :=
  if code = 0 then none else some (.rejected code)

/-- The text of the fault. -/
def message : RequestFault → String
  | .unavailable => "Remote endpoint unavailable"
  | .rejected code => s!"Remote endpoint rejected request with code {code}"
  | .unknownSerial serial =>
    s!"Protocol violation: no pending request for serial {serial.label}"

end RequestFault

/-- What a target is handed: the payload of the reply, or why there is none. -/
abbrev RequestResult := Except RequestFault Payload

/-- What a reply means to the caller. -/
def RequestResult.ofReply (code : Int) (payload : Payload) : RequestResult :=
  match RequestFault.ofReplyCode? code with
  | none => .ok payload
  | some fault => .error fault

/-- Why a call on the link failed. -/
inductive LinkFault where
  | disconnected
  | bindFailed (reason : String)
  | sendFailed (reason : String)
deriving DecidableEq

namespace LinkFault

/-- The text of the fault. -/
def message : LinkFault → String
  | .disconnected => "Remote endpoint disconnected"
  | .bindFailed reason => s!"Bind failed: {reason}"
  | .sendFailed reason => s!"Send failed: {reason}"

/-- What a fault of the link means to the caller of a request. -/
def toRequestFault : LinkFault → RequestFault
  | _ => .unavailable

end LinkFault

end ModemLink
