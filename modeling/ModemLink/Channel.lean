import ModemLink.IndicationKind

/-!
# Channels

Indications get to a subscriber through a channel, which is somebody else's: all that is known of it
is that it gives out what was sent in the order in which it was sent, that it refuses more once it
was closed or dropped, and that a dropped one has nothing to give out.

* `Channel` -- a channel with its laws;
* `Channel.fifo` -- one that keeps a list.
-/

namespace ModemLink

/-- A channel for indications, seen from its receiving end. -/
structure Channel where
  Receiver : Type
  opened : Receiver
  /-- Whether a receiver takes indications in. -/
  accepting : Receiver → Bool
  /-- What a receiver may still give out, the first one in front. -/
  queued : Receiver → List Indication
  send : Indication → Receiver → Receiver
  close : Receiver → Receiver
  drop : Receiver → Receiver
  /-- Takes out so many indications at most. -/
  receive : Nat → Receiver → List Indication × Receiver
  accepting_opened : accepting opened = true
  queued_opened : queued opened = []
  accepting_send : ∀ indication receiver,
    accepting (send indication receiver) = accepting receiver
  queued_send : ∀ indication receiver, queued (send indication receiver) =
    if accepting receiver then queued receiver ++ [indication] else queued receiver
  accepting_close : ∀ receiver, accepting (close receiver) = false
  queued_close : ∀ receiver, queued (close receiver) = queued receiver
  accepting_drop : ∀ receiver, accepting (drop receiver) = false
  queued_drop : ∀ receiver, queued (drop receiver) = []
  taken : ∀ limit receiver, (receive limit receiver).1 = (queued receiver).take limit
  accepting_receive : ∀ limit receiver,
    accepting (receive limit receiver).2 = accepting receiver
  queued_receive : ∀ limit receiver,
    queued (receive limit receiver).2 = (queued receiver).drop limit

/-- One subscriber's queue. -/
structure Receiver where
  queue : List Indication
  /-- Whether the receiver takes indications in. -/
  accepting : Bool
deriving DecidableEq, Inhabited

/-- A channel that keeps what was sent in a list. -/
def Channel.fifo : Channel where
  Receiver := ModemLink.Receiver
  opened := ⟨[], true⟩
  accepting := Receiver.accepting
  queued := Receiver.queue
  send indication receiver :=
    if receiver.accepting then { receiver with queue := receiver.queue ++ [indication] }
    else receiver
  close receiver := { receiver with accepting := false }
  drop _ := ⟨[], false⟩
  receive limit receiver :=
    (receiver.queue.take limit, { receiver with queue := receiver.queue.drop limit })
  accepting_opened := rfl
  queued_opened := rfl
  accepting_send _ receiver := by cases h : receiver.accepting <;> simp [h]
  queued_send _ receiver := by cases h : receiver.accepting <;> simp [h]
  accepting_close _ := rfl
  queued_close _ := rfl
  accepting_drop _ := rfl
  queued_drop _ := rfl
  taken _ _ := rfl
  accepting_receive _ _ := rfl
  queued_receive _ _ := rfl

end ModemLink
