import ModemLink.Script.Answer

/-!
# Scripts for subscribers

Steps on a register of subscribers, whose receivers go by the names the steps give them.  A name
that is given again drops the receiver it stood for.
-/

namespace ModemLink.Script

/-- Subscribers and the names of their receivers. -/
structure SubscriberState where
  subscribers : Subscribers := .empty
  names : Names ReceiverId := []

namespace SubscriberState

/-- Makes a named receiver. -/
def subscribe (s : SubscriberState) (name : String) (kind : IndicationKind) : SubscriberState :=
  let (id, subscribers) := s.subscribers.subscribe kind
  let subscribers :=
    match s.names.get? name with
    | some old => subscribers.drop old
    | none => subscribers
  { subscribers, names := s.names.set name id }

/-- Drops a named receiver, and tells whether there was one. -/
def unsubscribe (s : SubscriberState) (name : String) : Bool × SubscriberState :=
  match s.names.get? name with
  | some id => (true, { subscribers := s.subscribers.drop id, names := s.names.erase name })
  | none => (false, s)

/-- Closes a named receiver. -/
def close (s : SubscriberState) (name : String) : SubscriberState :=
  match s.names.get? name with
  | some id => { s with subscribers := s.subscribers.close id }
  | none => s

/-- Takes out all that a named receiver has. -/
def receive (s : SubscriberState) (name : String) : List Indication × SubscriberState :=
  match s.names.get? name with
  | some id =>
    let (indications, subscribers) := s.subscribers.receive id
    (indications, { s with subscribers })
  | none => ([], s)

end SubscriberState

/-- A step on subscribers. -/
inductive SubscriberStep where
  | subscribe (name : String) (kind : IndicationKind)
  | unsubscribe (name : String)
  | close (name : String)
  | dispatch (indication : Indication)
  | count (kind : IndicationKind)
  | receive (name : String)

/-- Runs a step on subscribers. -/
def SubscriberStep.run : SubscriberStep → SubscriberState → Answer × SubscriberState
  | .subscribe name kind, s => (.done, s.subscribe name kind)
  | .unsubscribe name, s =>
    let (existed, s) := s.unsubscribe name
    (.flag existed, s)
  | .close name, s => (.done, s.close name)
  | .dispatch indication, s =>
    let (reached, subscribers) := s.subscribers.dispatch indication
    (.count reached, { s with subscribers })
  | .count kind, s => (.count (s.subscribers.count kind), s)
  | .receive name, s =>
    let (indications, s) := s.receive name
    (.indications indications, s)

/-- Runs a script on subscribers. -/
def runSubscribers (steps : List SubscriberStep) : List (Answer × Unit) :=
  trace SubscriberStep.run (fun s => ((), s)) steps {}

end ModemLink.Script
