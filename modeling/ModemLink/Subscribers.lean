import ModemLink.Channel

/-!
# Subscribers

Whoever wants to hear of indications of a kind subscribes to it and gets a receiver, the end of a
channel of its own.  An indication goes to every open receiver of its kind.  A receiver may be
closed, after which it takes no more in but gives out what it has, or be dropped with all it has.
The register of a kind forgets closed and dropped receivers at the next indication of that kind, and
the whole kind once no receiver is left.

Main statements: `dispatch_of_no_register`, `fst_receiveUpTo`, `size_receivers_subscribe`.
-/

namespace ModemLink

/-- The name of a receiver: its place among all that were ever made. -/
structure ReceiverId where
  index : Nat
deriving DecidableEq, Inhabited

/-- The receivers ever made, and for each kind the register of its receivers. -/
structure Subscribers (channel : Channel := .fifo) where
  receivers : Array channel.Receiver
  registers : List (IndicationKind × List ReceiverId)
deriving Inhabited

namespace Subscribers

variable {channel : Channel}

/-- Nobody subscribed yet. -/
def empty : Subscribers channel := ⟨#[], []⟩

/-- Writes the register of a kind; an empty register is struck. -/
def setRegister (kind : IndicationKind) (ids : List ReceiverId)
    (registers : List (IndicationKind × List ReceiverId)) :
    List (IndicationKind × List ReceiverId) :=
  let others := registers.filter (·.1 != kind)
  if ids.isEmpty then others else (kind, ids) :: others

/-- The register of a kind. -/
def register (subs : Subscribers channel) (kind : IndicationKind) : List ReceiverId :=
  (subs.registers.lookup kind).getD []

/-- Whether a receiver takes indications in. -/
def isOpen (subs : Subscribers channel) (id : ReceiverId) : Bool :=
  match subs.receivers[id.index]? with
  | some receiver => channel.accepting receiver
  | none => false

/-- Makes a receiver for a kind. -/
def subscribe (subs : Subscribers channel) (kind : IndicationKind) :
    ReceiverId × Subscribers channel :=
  let id : ReceiverId := ⟨subs.receivers.size⟩
  (id, {
    receivers := subs.receivers.push channel.opened
    registers := setRegister kind (subs.register kind ++ [id]) subs.registers })

/-- Puts an indication into the queue of a receiver. -/
def deliver (indication : Indication) (receivers : Array channel.Receiver) (id : ReceiverId) :
    Array channel.Receiver :=
  receivers.modify id.index (channel.send indication)

/-- Hands an indication to the open receivers of its kind and tells how many there were. -/
def dispatch (subs : Subscribers channel) (indication : Indication) : Nat × Subscribers channel :=
  match subs.registers.lookup indication.kind with
  | none => (0, subs)
  | some ids =>
    let reached := ids.filter subs.isOpen
    (reached.length, {
      receivers := reached.foldl (deliver indication) subs.receivers
      registers := setRegister indication.kind reached subs.registers })

/-- The number of open receivers of a kind. -/
def count (subs : Subscribers channel) (kind : IndicationKind) : Nat :=
  ((subs.register kind).filter subs.isOpen).length

/-- Closes a receiver; what is queued stays. -/
def close (subs : Subscribers channel) (id : ReceiverId) : Subscribers channel :=
  { subs with receivers := subs.receivers.modify id.index channel.close }

/-- Drops a receiver with all it has. -/
def drop (subs : Subscribers channel) (id : ReceiverId) : Subscribers channel :=
  { subs with receivers := subs.receivers.modify id.index channel.drop }

/-- What is queued for a receiver. -/
def queued (subs : Subscribers channel) (id : ReceiverId) : List Indication :=
  match subs.receivers[id.index]? with
  | some receiver => channel.queued receiver
  | none => []

/-- Takes out what has been queued longest for a receiver, so many indications at most. -/
def receiveUpTo (subs : Subscribers channel) (limit : Nat) (id : ReceiverId) :
    List Indication × Subscribers channel :=
  let taken :=
    match subs.receivers[id.index]? with
    | some receiver => (channel.receive limit receiver).1
    | none => []
  (taken, { subs with
    receivers := subs.receivers.modify id.index fun r => (channel.receive limit r).2 })

/-- Takes out all that is queued for a receiver. -/
def receive (subs : Subscribers channel) (id : ReceiverId) :
    List Indication × Subscribers channel :=
  subs.receiveUpTo (subs.queued id).length id

/-- An indication of a kind that nobody listens to changes nothing. -/
theorem dispatch_of_no_register {subs : Subscribers channel} {indication : Indication}
    (h : subs.registers.lookup indication.kind = none) :
    subs.dispatch indication = (0, subs) := by
  simp [dispatch, h]

/-- What is taken out is the first part of the queue. -/
theorem fst_receiveUpTo (subs : Subscribers channel) (limit : Nat) (id : ReceiverId) :
    (subs.receiveUpTo limit id).1 = (subs.queued id).take limit := by
  unfold receiveUpTo queued
  cases subs.receivers[id.index]? with
  | none => exact List.take_nil.symm
  | some receiver => exact channel.taken limit receiver

/-- A subscription makes one receiver. -/
theorem size_receivers_subscribe (subs : Subscribers channel) (kind : IndicationKind) :
    (subs.subscribe kind).2.receivers.size = subs.receivers.size + 1 := by
  simp [subscribe]

end Subscribers

end ModemLink
