import ModemLink.IndicationKind
import ModemLink.Serial

/-!
# Frames

What the radio sends: an early acknowledgment of a request, a reply to it, or an indication.
Replies and indications may ask to be acknowledged in turn.

Main statement: `requiresAck_iff_shape`.
-/

namespace ModemLink

/-- A message from the radio. -/
inductive Frame where
  | ack (serial : Serial)
  | reply (serial : Serial) (code : Int) (payload : Payload) (ackRequired : Bool)
  | indication (kind : IndicationKind) (payload : Payload) (ackRequired : Bool)
deriving DecidableEq

/-- The five shapes of a frame. -/
inductive FrameShape where
  | ackOnly
  | solicited
  | solicitedWithAck
  | unsolicited
  | unsolicitedWithAck
deriving DecidableEq, Repr

/-- The name of the shape. -/
def FrameShape.name : FrameShape → String
  | .ackOnly => "AckOnly"
  | .solicited => "Solicited"
  | .solicitedWithAck => "SolicitedWithAck"
  | .unsolicited => "Unsolicited"
  | .unsolicitedWithAck => "UnsolicitedWithAck"

namespace Frame

/-- The shape of a frame. -/
def shape : Frame → FrameShape
  | .ack _ => .ackOnly
  | .reply _ _ _ false => .solicited
  | .reply _ _ _ true => .solicitedWithAck
  | .indication _ _ false => .unsolicited
  | .indication _ _ true => .unsolicitedWithAck

/-- Whether the frame asks for a local acknowledgment. -/
def requiresAck : Frame → Bool
  | .ack _ => false
  | .reply _ _ _ ackRequired => ackRequired
  | .indication _ _ ackRequired => ackRequired

theorem requiresAck_iff_shape (frame : Frame) :
    frame.requiresAck = true ↔
      frame.shape = .solicitedWithAck ∨ frame.shape = .unsolicitedWithAck := by
  rcases frame with _ | ⟨_, _, _, _ | _⟩ | ⟨_, _, _ | _⟩ <;> simp [requiresAck, shape]

end Frame

end ModemLink
