import ModemLink.Subscribers

/-!
# What receivers get

Whoever subscribes, closes, drops and receives sees nothing of the registers: every answer follows
from what was asked before.  A receiver is open for the kind it was made for, from its subscription
until it is closed or dropped.  Due to it are the indications of that kind in between, in their
order, and it takes these out from the first on, as many as it is asked for.  A receiver that a
register still lists although it was closed is passed over, and one that was dropped gets nothing
more.

* `SubscriberHistory.openFor`, `due`, `obtained` -- what the events say about the receivers;
* `SubscriberHistory.Answers` -- what is answered after the events so far;
* `Subscribers.Heeds` -- what the registers and the queues have to do with the events;
* `Subscribers.Run.heeds` -- every run keeps to that.
-/

namespace ModemLink

/-- What is asked of subscribers or of a receiver, together with the answer. -/
inductive SubscriberEvent where
  | subscribed (kind : IndicationKind) (id : ReceiverId)
  | closed (id : ReceiverId)
  | dropped (id : ReceiverId)
  /-- So many indications at most are asked for, or all that are there. -/
  | received (limit : Option Nat) (id : ReceiverId) (taken : List Indication)
  | dispatched (indication : Indication) (reached : Nat)
  | counted (kind : IndicationKind) (number : Nat)
deriving DecidableEq

/-- The receiver that an event is about. -/
def SubscriberEvent.receiver? : SubscriberEvent → Option ReceiverId
  | .subscribed _ id | .closed id | .dropped id | .received _ id _ => some id
  | .dispatched .. | .counted .. => none

/-- With this event a receiver stops to take indications in. -/
def SubscriberEvent.Ends (event : SubscriberEvent) (id : ReceiverId) : Prop :=
  event = .closed id ∨ event = .dropped id

theorem SubscriberEvent.Ends.receiver? {event : SubscriberEvent} {id : ReceiverId}
    (ends : event.Ends id) : event.receiver? = some id := by
  rcases ends with rfl | rfl <;> rfl

/-- What happened to subscribers, the latest in front. -/
abbrev SubscriberHistory := List SubscriberEvent

namespace SubscriberHistory

/-- The receivers of a kind that are open, in the order of their subscription. -/
def openFor (kind : IndicationKind) : SubscriberHistory → List ReceiverId
  | [] => []
  | .subscribed other id :: history =>
    if other = kind then openFor kind history ++ [id] else openFor kind history
  | .closed id :: history | .dropped id :: history => (openFor kind history).filter (· ≠ id)
  | .received .. :: history | .dispatched .. :: history | .counted .. :: history =>
    openFor kind history

/-- The indications of a kind, in the order of their dispatch. -/
def dispatches (kind : IndicationKind) : SubscriberHistory → List Indication
  | [] => []
  | .dispatched indication _ :: history =>
    if indication.kind = kind then dispatches kind history ++ [indication]
    else dispatches kind history
  | .subscribed .. :: history | .closed _ :: history | .dropped _ :: history
  | .received .. :: history | .counted .. :: history => dispatches kind history

/-- The indications that are due to a receiver: those of its kind from while it was open. -/
def due (id : ReceiverId) : SubscriberHistory → List Indication
  | [] => []
  | .dispatched indication _ :: history =>
    if id ∈ openFor indication.kind history then due id history ++ [indication] else due id history
  | .subscribed .. :: history | .closed _ :: history | .dropped _ :: history
  | .received .. :: history | .counted .. :: history => due id history

/-- The indications that were taken out of a receiver. -/
def obtained (id : ReceiverId) : SubscriberHistory → List Indication
  | [] => []
  | .received _ other taken :: history =>
    if other = id then obtained id history ++ taken else obtained id history
  | .subscribed .. :: history | .closed _ :: history | .dropped _ :: history
  | .dispatched .. :: history | .counted .. :: history => obtained id history

/-- What a receiver may still take out: nothing once it was dropped. -/
def waiting (id : ReceiverId) (history : SubscriberHistory) : List Indication :=
  if .dropped id ∈ history then [] else (history.due id).drop (history.obtained id).length

/-- The answer of an event is the one that follows from the events before it. -/
def Answers (earlier : SubscriberHistory) : SubscriberEvent → Prop
  | .subscribed _ id => ∀ event ∈ earlier, event.receiver? ≠ some id
  | .closed _ | .dropped _ => True
  | .received (some limit) id taken => taken = (earlier.waiting id).take limit
  | .received none id taken => taken = earlier.waiting id
  | .dispatched indication reached => reached = (earlier.openFor indication.kind).length
  | .counted kind number => number = (earlier.openFor kind).length

variable {id : ReceiverId} {kind : IndicationKind} {later earlier : SubscriberHistory}

/-- A receiver subscribed to a kind and was neither closed nor dropped since. -/
def Open (kind : IndicationKind) (id : ReceiverId) (history : SubscriberHistory) : Prop :=
  ∃ later earlier, history = later ++ .subscribed kind id :: earlier ∧
    ∀ event ∈ later, ¬ event.Ends id

theorem open_cons {event : SubscriberEvent} {history : SubscriberHistory} :
    Open kind id (event :: history) ↔
      event = .subscribed kind id ∨ ¬ event.Ends id ∧ Open kind id history := by
  constructor
  · rintro ⟨later, earlier, hsplit, hlater⟩
    cases later with
    | nil => exact .inl (List.cons.inj hsplit).1
    | cons first rest =>
        obtain ⟨rfl, rfl⟩ := List.cons.inj hsplit
        obtain ⟨hfirst, hrest⟩ := List.forall_mem_cons.mp hlater
        exact .inr ⟨hfirst, rest, earlier, rfl, hrest⟩
  · rintro (rfl | ⟨hevent, later, earlier, rfl, hlater⟩)
    · exact ⟨[], history, rfl, by simp⟩
    · exact ⟨event :: later, earlier, rfl, List.forall_mem_cons.mpr ⟨hevent, hlater⟩⟩

theorem mem_openFor_iff {history : SubscriberHistory} :
    id ∈ history.openFor kind ↔ history.Open kind id := by
  induction history with
  | nil => simp [openFor, Open]
  | cons event history ih =>
      rw [open_cons, ← ih]
      cases event <;> simp [openFor, SubscriberEvent.Ends] <;> grind

/-- Nothing is due to a receiver that is not there yet. -/
theorem due_of_unmentioned {history : SubscriberHistory}
    (h : ∀ event ∈ history, event.receiver? ≠ some id) :
    (∀ kind, id ∉ history.openFor kind) ∧ history.due id = [] := by
  induction history with
  | nil => simp [openFor, due]
  | cons event history ih =>
      obtain ⟨hevent, hhistory⟩ := List.forall_mem_cons.mp h
      obtain ⟨hopen, hdue⟩ := ih hhistory
      cases event <;> simp_all [openFor, due, SubscriberEvent.receiver?]
      case subscribed => grind

/-- Since its subscription the indications of its kind are due to a receiver. -/
theorem due_of_open (fresh : ∀ event ∈ earlier, event.receiver? ≠ some id)
    (once : ∀ event ∈ later, ∀ other, event ≠ .subscribed other id)
    (unended : ∀ event ∈ later, ¬ event.Ends id) :
    (∀ other, id ∈ openFor other (later ++ .subscribed kind id :: earlier) ↔ other = kind) ∧
      due id (later ++ .subscribed kind id :: earlier) = later.dispatches kind := by
  induction later with
  | nil =>
      obtain ⟨hopen, hdue⟩ := due_of_unmentioned fresh
      refine ⟨fun other => ?_, hdue⟩
      by_cases hother : kind = other
      · simp [openFor, hother]
      · simp [openFor, hother, hopen other, Ne.symm hother]
  | cons event later ih =>
      obtain ⟨hevent, hlater⟩ := List.forall_mem_cons.mp once
      obtain ⟨hends, hunended⟩ := List.forall_mem_cons.mp unended
      obtain ⟨hopen, hdue⟩ := ih hlater hunended
      cases event <;> simp_all [openFor, due, dispatches, SubscriberEvent.Ends] <;> grind

/-- Once a receiver was closed or dropped nothing more becomes due to it. -/
theorem due_of_ended {event : SubscriberEvent} (ends : event.Ends id)
    (once : ∀ event ∈ later, ∀ other, event ≠ .subscribed other id) :
    (∀ kind, id ∉ openFor kind (later ++ event :: earlier)) ∧
      due id (later ++ event :: earlier) = earlier.due id := by
  induction later with
  | nil => rcases ends with rfl | rfl <;> simp [openFor, due]
  | cons first later ih =>
      obtain ⟨hfirst, hlater⟩ := List.forall_mem_cons.mp once
      obtain ⟨hopen, hdue⟩ := ih hlater
      cases first <;> simp_all [openFor, due]
      case subscribed => grind

end SubscriberHistory

namespace Subscribers

variable {channel : Channel} {subs : Subscribers channel} {id other : ReceiverId}
  {kind : IndicationKind}
  {indication : Indication} {history : SubscriberHistory} {event : SubscriberEvent}

/-- What is asked of subscribers, what is answered, and what becomes of them.  Only receivers that
were made can be asked for anything. -/
inductive Step (subs : Subscribers channel) : SubscriberEvent → Subscribers channel → Prop
  | subscribe (kind : IndicationKind) :
      Step subs (.subscribed kind (subs.subscribe kind).1) (subs.subscribe kind).2
  | close {id : ReceiverId} (made : id.index < subs.receivers.size) :
      Step subs (.closed id) (subs.close id)
  | drop {id : ReceiverId} (made : id.index < subs.receivers.size) :
      Step subs (.dropped id) (subs.drop id)
  | receiveUpTo (limit : Nat) {id : ReceiverId} (made : id.index < subs.receivers.size) :
      Step subs (.received (some limit) id (subs.receiveUpTo limit id).1)
        (subs.receiveUpTo limit id).2
  | receive {id : ReceiverId} (made : id.index < subs.receivers.size) :
      Step subs (.received none id (subs.receive id).1) (subs.receive id).2
  | dispatch (indication : Indication) :
      Step subs (.dispatched indication (subs.dispatch indication).1) (subs.dispatch indication).2
  | count (kind : IndicationKind) : Step subs (.counted kind (subs.count kind)) subs

/-- The runs from nobody on, with what happened in them. -/
inductive Run : SubscriberHistory → Subscribers channel → Prop
  | start : Run [] empty
  | step {history : SubscriberHistory} {subs after : Subscribers channel} {event : SubscriberEvent}
      (run : Run history subs) (step : subs.Step event after) : Run (event :: history) after

/-! ## Registers and receivers -/

/-- The register of another kind is not touched. -/
theorem register_setRegister (ids : List ReceiverId) (receivers : Array channel.Receiver)
    (other : IndicationKind) :
    register ⟨receivers, setRegister kind ids subs.registers⟩ other =
      if other = kind then ids else subs.register other := by
  have hothers : (subs.registers.filter (·.1 != kind)).lookup other =
      if other = kind then none else subs.registers.lookup other := by
    induction subs.registers with
    | nil => simp
    | cons entry rest ih => grind
  by_cases hkind : other = kind
  · subst hkind
    rw [if_pos rfl] at hothers
    cases ids <;> simp [register, setRegister, hothers]
  · have hbeq : (other == kind) = false := by simpa using hkind
    cases ids <;> simp [register, setRegister, List.lookup_cons, hothers, hkind, hbeq]

theorem isOpen_modify (change : channel.Receiver → channel.Receiver)
    (registers : List (IndicationKind × List ReceiverId)) (hne : other ≠ id) :
    isOpen ⟨subs.receivers.modify id.index change, registers⟩ other = subs.isOpen other := by
  have hindex : id.index ≠ other.index := fun heq => hne (by cases id; cases other; simp_all)
  simp only [isOpen, Array.getElem?_modify, hindex, if_false]

theorem queued_modify (change : channel.Receiver → channel.Receiver)
    (registers : List (IndicationKind × List ReceiverId)) (hne : other ≠ id) :
    queued ⟨subs.receivers.modify id.index change, registers⟩ other = subs.queued other := by
  have hindex : id.index ≠ other.index := fun heq => hne (by cases id; cases other; simp_all)
  simp only [queued, Array.getElem?_modify, hindex, if_false]

theorem isOpen_modify_self (change : channel.Receiver → channel.Receiver)
    (hchange : ∀ receiver, channel.accepting (change receiver) = false) :
    isOpen ⟨subs.receivers.modify id.index change, subs.registers⟩ id = false := by
  simp only [isOpen, Array.getElem?_modify, if_true]
  cases subs.receivers[id.index]? with
  | none => rfl
  | some receiver => exact hchange receiver

/-- A change of one receiver that closes it takes it out of the open ones. -/
theorem filter_isOpen_modify (change : channel.Receiver → channel.Receiver)
    (hchange : ∀ receiver, channel.accepting (change receiver) = false) (ids : List ReceiverId) :
    ids.filter (isOpen ⟨subs.receivers.modify id.index change, subs.registers⟩) =
      (ids.filter subs.isOpen).filter (· ≠ id) := by
  rw [List.filter_filter]
  refine List.filter_congr fun other _ => ?_
  by_cases hother : other = id
  · subst hother
    simp [isOpen_modify_self change hchange]
  · simp [isOpen_modify change subs.registers hother, hother]

theorem size_foldl_deliver (ids : List ReceiverId) (receivers : Array channel.Receiver) :
    (ids.foldl (deliver indication) receivers).size = receivers.size := by
  induction ids generalizing receivers with
  | nil => rfl
  | cons first rest ih => rw [List.foldl_cons, ih, deliver, Array.size_modify]

theorem isOpen_subscribe (kind : IndicationKind) (made : id.index < subs.receivers.size) :
    (subs.subscribe kind).2.isOpen id = subs.isOpen id := by
  simp [subscribe, isOpen, Array.getElem?_push_lt made, Array.getElem?_eq_getElem made]

theorem isOpen_subscribe_self (subs : Subscribers channel) (kind : IndicationKind) :
    (subs.subscribe kind).2.isOpen (subs.subscribe kind).1 = true := by
  simp [subscribe, isOpen, channel.accepting_opened]

/-- A new receiver has nothing in its queue. -/
theorem queued_subscribe (subs : Subscribers channel) (kind : IndicationKind) (id : ReceiverId) :
    (subs.subscribe kind).2.queued id = subs.queued id := by
  simp only [subscribe, queued, Array.getElem?_push]
  by_cases hid : id.index = subs.receivers.size
  · simp [hid, channel.queued_opened]
  · simp [hid]

/-- An indication is put into each of the queues once. -/
theorem getElem?_foldl_deliver {ids : List ReceiverId} (hids : ids.Nodup)
    (receivers : Array channel.Receiver) (id : ReceiverId) :
    (ids.foldl (deliver indication) receivers)[id.index]? =
      if id ∈ ids then
        receivers[id.index]?.map (channel.send indication)
      else receivers[id.index]? := by
  induction ids generalizing receivers with
  | nil => simp
  | cons first rest ih =>
      obtain ⟨hfirst, hrest⟩ := List.nodup_cons.mp hids
      rw [List.foldl_cons, ih hrest, deliver, Array.getElem?_modify]
      by_cases hid : id = first
      · subst hid
        simp [hfirst]
      · have hindex : first.index ≠ id.index := fun heq =>
          hid (by cases id; cases first; simp_all)
        simp [hid, hindex]

/-- The receivers that an indication reaches. -/
def reached (subs : Subscribers channel) (indication : Indication) : List ReceiverId :=
  (subs.register indication.kind).filter subs.isOpen

/-- An indication is handed out to the receivers it reaches, and the others are forgotten. -/
theorem dispatch_cases (subs : Subscribers channel) (indication : Indication) :
    (subs.dispatch indication).1 = (subs.reached indication).length ∧
      (subs.dispatch indication).2.receivers =
        (subs.reached indication).foldl (deliver indication) subs.receivers ∧
      ∀ kind, (subs.dispatch indication).2.register kind =
        if kind = indication.kind then subs.reached indication else subs.register kind := by
  cases hlookup : subs.registers.lookup indication.kind with
  | none =>
      have hnobody : subs.register indication.kind = [] := by simp [register, hlookup]
      rw [dispatch_of_no_register hlookup]
      refine ⟨by simp [reached, hnobody], by simp [reached, hnobody], fun kind => ?_⟩
      by_cases hkind : kind = indication.kind
      · subst hkind
        simp [reached, hnobody]
      · rw [if_neg hkind]
  | some ids =>
      have hids : subs.reached indication = ids.filter subs.isOpen := by
        simp [reached, register, hlookup]
      rw [hids]
      simp only [dispatch, hlookup, register_setRegister]
      exact ⟨trivial, trivial, fun _ => trivial⟩

/-- Nothing but a queue changes, and that only of a receiver that the indication reaches. -/
theorem getElem?_dispatch (hids : (subs.register indication.kind).Nodup) (id : ReceiverId) :
    (subs.dispatch indication).2.receivers[id.index]? =
      if id ∈ subs.reached indication then
        subs.receivers[id.index]?.map (channel.send indication)
      else subs.receivers[id.index]? := by
  rw [(dispatch_cases subs indication).2.1]
  exact getElem?_foldl_deliver (hids.filter _) _ id

theorem isOpen_dispatch (hids : (subs.register indication.kind).Nodup) (id : ReceiverId) :
    (subs.dispatch indication).2.isOpen id = subs.isOpen id := by
  simp only [isOpen, getElem?_dispatch hids]
  by_cases hid : id ∈ subs.reached indication
  · rw [if_pos hid]
    cases subs.receivers[id.index]? with
    | none => rfl
    | some receiver => exact channel.accepting_send indication receiver
  · rw [if_neg hid]

theorem queued_dispatch (hids : (subs.register indication.kind).Nodup) (id : ReceiverId) :
    (subs.dispatch indication).2.queued id =
      if id ∈ subs.reached indication then subs.queued id ++ [indication] else subs.queued id := by
  simp only [queued, getElem?_dispatch hids]
  by_cases hid : id ∈ subs.reached indication
  · have hopen : subs.isOpen id = true := (List.mem_filter.mp hid).2
    rw [if_pos hid, if_pos hid]
    cases hreceiver : subs.receivers[id.index]? with
    | none => simp [isOpen, hreceiver] at hopen
    | some receiver =>
        have haccepting : channel.accepting receiver = true := by
          simpa only [isOpen, hreceiver] using hopen
        exact (channel.queued_send indication receiver).trans (if_pos haccepting)
  · rw [if_neg hid, if_neg hid]

theorem size_dispatch (subs : Subscribers channel) (indication : Indication) :
    (subs.dispatch indication).2.receivers.size = subs.receivers.size := by
  rw [(dispatch_cases subs indication).2.1, size_foldl_deliver]

/-! ## What the registers and the queues have to do with the events -/

/-- The registers list the open receivers in the order of their subscription, and besides them only
receivers that were closed; a queue holds what is due and was not taken out yet. -/
structure Heeds (subs : Subscribers channel) (history : SubscriberHistory) : Prop where
  made : ∀ event ∈ history, ∀ id, event.receiver? = some id → id.index < subs.receivers.size
  listed : ∀ kind, ∀ id ∈ subs.register kind, id.index < subs.receivers.size
  nodup : ∀ kind, (subs.register kind).Nodup
  openFor : ∀ kind, (subs.register kind).filter subs.isOpen = history.openFor kind
  queued : ∀ id, .dropped id ∉ history → history.obtained id ++ subs.queued id = history.due id
  dropped : ∀ id, .dropped id ∈ history →
    subs.isOpen id = false ∧ subs.queued id = [] ∧ history.obtained id <+: history.due id

namespace Heeds

theorem start : (empty : Subscribers channel).Heeds [] where
  made := by simp
  listed := by simp [register, empty]
  nodup := by simp [register, empty]
  openFor := by simp [register, empty, SubscriberHistory.openFor]
  queued := by simp [Subscribers.queued, empty, SubscriberHistory.obtained, SubscriberHistory.due]
  dropped := by simp

/-- What a receiver may take out is what is in its queue. -/
theorem waiting (h : subs.Heeds history) (id : ReceiverId) :
    subs.queued id = history.waiting id := by
  by_cases hdropped : .dropped id ∈ history
  · simp only [SubscriberHistory.waiting, hdropped, if_true, (h.dropped id hdropped).2.1]
  · rw [SubscriberHistory.waiting, if_neg hdropped, ← h.queued id hdropped, List.drop_left]

/-- What was taken out is the first part of what was due. -/
theorem obtained_prefix (h : subs.Heeds history) (id : ReceiverId) :
    history.obtained id <+: history.due id := by
  by_cases hdropped : .dropped id ∈ history
  · exact (h.dropped id hdropped).2.2
  · exact ⟨_, h.queued id hdropped⟩

/-- A new receiver is one that nothing was about before. -/
theorem fresh (h : subs.Heeds history) (kind : IndicationKind) :
    ∀ event ∈ history, event.receiver? ≠ some (subs.subscribe kind).1 := by
  intro event hevent habout
  have hlt := h.made event hevent _ habout
  simp [subscribe] at hlt

/-- The receivers that events are about were made, the one of the latest event among them. -/
theorem made_cons {after : Subscribers channel} (h : subs.Heeds history)
    (size : subs.receivers.size ≤ after.receivers.size)
    (made : ∀ id, event.receiver? = some id → id.index < after.receivers.size) :
    ∀ e ∈ event :: history, ∀ id, e.receiver? = some id → id.index < after.receivers.size := by
  intro e he id habout
  rcases List.mem_cons.mp he with rfl | hearlier
  · exact made id habout
  · exact Nat.lt_of_lt_of_le (h.made e hearlier id habout) size

theorem subscribe (h : subs.Heeds history) (kind : IndicationKind) :
    (subs.subscribe kind).2.Heeds (.subscribed kind (subs.subscribe kind).1 :: history) := by
  have hsize := size_receivers_subscribe subs kind
  have hregister : ∀ other, (subs.subscribe kind).2.register other =
      if other = kind then subs.register kind ++ [(subs.subscribe kind).1]
      else subs.register other := fun other =>
    register_setRegister (subs.register kind ++ [(subs.subscribe kind).1]) _ other
  have hold : ∀ kind, ∀ id ∈ subs.register kind, id ≠ (subs.subscribe kind).1 := by
    intro kind id hid heq
    have hlt := h.listed kind id hid
    simp [heq, Subscribers.subscribe] at hlt
  refine ⟨h.made_cons (by omega) ?_, fun other id hid => ?_, fun other => ?_, fun other => ?_,
    fun id hid => ?_, fun id hid => ?_⟩
  · rintro _ ⟨⟩
    simp [Subscribers.subscribe]
  · rw [hregister] at hid
    rw [hsize]
    split at hid
    · rcases List.mem_append.mp hid with hid | hid
      · have hlt := h.listed kind id hid
        omega
      · rw [List.mem_singleton.mp hid]
        simp [Subscribers.subscribe]
    · have hlt := h.listed other id hid
      omega
  · rw [hregister]
    split
    · refine List.nodup_append.mpr ⟨h.nodup kind, by simp, fun a ha b hb => ?_⟩
      rw [List.mem_singleton.mp hb]
      exact hold kind a ha
    · exact h.nodup other
  · have hopen : ∀ ids : List ReceiverId, (∀ id ∈ ids, id.index < subs.receivers.size) →
        ids.filter (subs.subscribe kind).2.isOpen = ids.filter subs.isOpen := fun ids hids =>
      List.filter_congr fun id hid => isOpen_subscribe kind (hids id hid)
    rw [hregister, SubscriberHistory.openFor]
    by_cases hkind : other = kind
    · subst hkind
      rw [if_pos rfl, if_pos rfl, List.filter_append, hopen _ (h.listed other), h.openFor]
      simp [isOpen_subscribe_self]
    · rw [if_neg hkind, if_neg (Ne.symm hkind), hopen _ (h.listed other), h.openFor]
  · rw [queued_subscribe]
    exact h.queued id fun hearlier => hid (List.mem_cons_of_mem _ hearlier)
  · have hearlier : .dropped id ∈ history := by simpa using hid
    rw [queued_subscribe, isOpen_subscribe kind (h.made _ hearlier id rfl)]
    exact h.dropped id hearlier

/-- What is asked of one receiver leaves the others alone. -/
theorem modify {change : channel.Receiver → channel.Receiver} (h : subs.Heeds history)
    (made : id.index < subs.receivers.size) (about : event.receiver? = some id)
    (openFor : ∀ kind, (subs.register kind).filter
      (isOpen ⟨subs.receivers.modify id.index change, subs.registers⟩) =
        SubscriberHistory.openFor kind (event :: history))
    (due : ∀ other, SubscriberHistory.due other (event :: history) = history.due other)
    (others : ∀ other ≠ id, event ≠ .dropped other ∧
      SubscriberHistory.obtained other (event :: history) = history.obtained other)
    (queued : .dropped id ∉ event :: history →
      SubscriberHistory.obtained id (event :: history) ++
        Subscribers.queued ⟨subs.receivers.modify id.index change, subs.registers⟩ id =
          history.due id)
    (dropped : .dropped id ∈ event :: history →
      isOpen ⟨subs.receivers.modify id.index change, subs.registers⟩ id = false ∧
        Subscribers.queued ⟨subs.receivers.modify id.index change, subs.registers⟩ id = [] ∧
          SubscriberHistory.obtained id (event :: history) <+: history.due id) :
    Heeds ⟨subs.receivers.modify id.index change, subs.registers⟩ (event :: history) := by
  refine ⟨h.made_cons (by simp) fun other hother => ?_, fun kind other hother => ?_, h.nodup,
    openFor, fun other hother => ?_, fun other hother => ?_⟩
  · obtain rfl : id = other := Option.some.inj (about.symm.trans hother)
    simpa using made
  · simpa using h.listed kind other hother
  · rw [due]
    by_cases heq : other = id
    · subst heq
      exact queued hother
    · rw [queued_modify _ _ heq, (others other heq).2]
      exact h.queued other fun hearlier => hother (List.mem_cons_of_mem _ hearlier)
  · rw [due]
    by_cases heq : other = id
    · subst heq
      exact dropped hother
    · rw [queued_modify _ _ heq, isOpen_modify _ _ heq, (others other heq).2]
      rcases List.mem_cons.mp hother with hnow | hearlier
      · exact absurd hnow.symm (others other heq).1
      · exact h.dropped other hearlier

theorem close (h : subs.Heeds history) (made : id.index < subs.receivers.size) :
    (subs.close id).Heeds (.closed id :: history) := by
  have hqueued : (subs.close id).queued id = subs.queued id := by
    simp only [Subscribers.close, Subscribers.queued, Array.getElem?_modify, if_true]
    cases subs.receivers[id.index]? with
    | none => rfl
    | some receiver => exact channel.queued_close receiver
  refine h.modify made rfl (fun kind => ?_) (fun _ => rfl) (fun _ _ => ⟨nofun, rfl⟩)
    (fun hdropped => ?_) (fun hdropped => ?_)
  · rw [filter_isOpen_modify _ channel.accepting_close, h.openFor]
    rfl
  · exact (congrArg (history.obtained id ++ ·) hqueued).trans
      (h.queued id fun hearlier => hdropped (List.mem_cons_of_mem _ hearlier))
  · have hearlier : .dropped id ∈ history := by simpa using hdropped
    obtain ⟨-, hempty, hobtained⟩ := h.dropped id hearlier
    exact ⟨isOpen_modify_self _ channel.accepting_close, hqueued.trans hempty, hobtained⟩

theorem drop (h : subs.Heeds history) (made : id.index < subs.receivers.size) :
    (subs.drop id).Heeds (.dropped id :: history) := by
  have hqueued : (subs.drop id).queued id = [] := by
    simp only [Subscribers.drop, Subscribers.queued, Array.getElem?_modify, if_true]
    cases subs.receivers[id.index]? with
    | none => rfl
    | some receiver => exact channel.queued_drop receiver
  refine h.modify made rfl (fun kind => ?_) (fun _ => rfl)
    (fun other hother => ⟨fun heq => hother (by cases heq; rfl), rfl⟩)
    (fun hdropped => absurd List.mem_cons_self hdropped)
    (fun _ => ⟨isOpen_modify_self _ channel.accepting_drop, hqueued, h.obtained_prefix id⟩)
  rw [filter_isOpen_modify _ channel.accepting_drop, h.openFor]
  rfl

theorem receiveUpTo (h : subs.Heeds history) (made : id.index < subs.receivers.size)
    (limit : Nat) (asked : Option Nat) :
    (subs.receiveUpTo limit id).2.Heeds
      (.received asked id (subs.receiveUpTo limit id).1 :: history) := by
  have hqueued : (subs.receiveUpTo limit id).2.queued id = (subs.queued id).drop limit := by
    simp only [Subscribers.receiveUpTo, Subscribers.queued, Array.getElem?_modify, if_true]
    cases subs.receivers[id.index]? with
    | none => exact List.drop_nil.symm
    | some receiver => exact channel.queued_receive limit receiver
  have hopen : ∀ other, (subs.receiveUpTo limit id).2.isOpen other = subs.isOpen other := by
    intro other
    simp only [Subscribers.receiveUpTo, isOpen, Array.getElem?_modify]
    by_cases hindex : id.index = other.index
    · rw [if_pos hindex]
      cases subs.receivers[other.index]? with
      | none => rfl
      | some receiver => exact channel.accepting_receive limit receiver
    · rw [if_neg hindex]
  have hobtained : SubscriberHistory.obtained id
      (.received asked id (subs.receiveUpTo limit id).1 :: history) =
        history.obtained id ++ (subs.queued id).take limit :=
    (if_pos rfl).trans (congrArg (history.obtained id ++ ·) (fst_receiveUpTo subs limit id))
  refine h.modify made rfl (fun kind => ?_) (fun _ => rfl)
    (fun other hother => ⟨nofun, if_neg (Ne.symm hother)⟩) (fun hdropped => ?_)
    (fun hdropped => ?_)
  · exact (List.filter_congr fun other _ => hopen other).trans (h.openFor kind)
  · rw [hobtained, List.append_assoc]
    refine Eq.trans (congrArg _ ?_)
      (h.queued id fun hearlier => hdropped (List.mem_cons_of_mem _ hearlier))
    exact (congrArg ((subs.queued id).take limit ++ ·) hqueued).trans (List.take_append_drop _ _)
  · have hearlier : .dropped id ∈ history := by simpa using hdropped
    obtain ⟨hclosed, hempty, hprefix⟩ := h.dropped id hearlier
    rw [hobtained, hempty, List.take_nil, List.append_nil]
    exact ⟨(hopen id).trans hclosed, hqueued.trans (by rw [hempty, List.drop_nil]), hprefix⟩

theorem dispatch (h : subs.Heeds history) (indication : Indication) :
    (subs.dispatch indication).2.Heeds
      (.dispatched indication (subs.dispatch indication).1 :: history) := by
  have hids := h.nodup indication.kind
  have hregister := (dispatch_cases subs indication).2.2
  have hopen : ∀ ids : List ReceiverId,
      ids.filter (subs.dispatch indication).2.isOpen = ids.filter subs.isOpen := fun ids =>
    List.filter_congr fun id _ => isOpen_dispatch hids id
  have hsublist : ∀ kind,
      ((subs.dispatch indication).2.register kind).Sublist (subs.register kind) := by
    intro kind
    rw [hregister]
    split
    · rename_i hkind
      rw [hkind]
      exact List.filter_sublist
    · exact List.Sublist.refl _
  -- a receiver that is reached is one the events call open
  have hreached : ∀ id, id ∈ subs.reached indication ↔ id ∈ history.openFor indication.kind :=
    fun id => by rw [← h.openFor, reached]
  refine ⟨h.made_cons (Nat.le_of_eq (size_dispatch subs indication).symm) nofun, fun kind id hid =>
      ?_,
    fun kind => (h.nodup kind).sublist (hsublist kind), fun kind => ?_, fun id hid => ?_,
    fun id hid => ?_⟩
  · rw [size_dispatch]
    exact h.listed kind id ((hsublist kind).subset hid)
  · rw [hopen, hregister]
    split
    · rename_i hkind
      rw [reached, List.filter_filter, hkind]
      simp only [Bool.and_self]
      exact h.openFor indication.kind
    · exact h.openFor kind
  · have hearlier : .dropped id ∉ history := fun hearlier => hid (List.mem_cons_of_mem _ hearlier)
    have hsame := h.queued id hearlier
    rw [queued_dispatch hids, SubscriberHistory.due]
    simp only [hreached id]
    split
    · rw [← List.append_assoc]
      exact congrArg (· ++ [indication]) hsame
    · exact hsame
  · have hearlier : .dropped id ∈ history := by simpa using hid
    obtain ⟨hclosed, hempty, hobtained⟩ := h.dropped id hearlier
    have hnot : id ∉ subs.reached indication := fun hin => by
      simp [(List.mem_filter.mp hin).2] at hclosed
    rw [isOpen_dispatch hids, queued_dispatch hids, if_neg hnot, SubscriberHistory.due,
      if_neg (mt (hreached id).mpr hnot)]
    exact ⟨hclosed, hempty, hobtained⟩

theorem answers {after : Subscribers channel} (h : subs.Heeds history)
    (step : subs.Step event after) :
    history.Answers event := by
  cases step with
  | subscribe kind => exact h.fresh kind
  | close made => trivial
  | drop made => trivial
  | @receiveUpTo limit id made =>
      exact (fst_receiveUpTo subs limit id).trans (congrArg (List.take limit) (h.waiting id))
  | @receive id made =>
      exact ((fst_receiveUpTo subs _ id).trans List.take_length).trans (h.waiting id)
  | dispatch indication =>
      exact (dispatch_cases subs indication).1.trans (congrArg _ (h.openFor indication.kind))
  | count kind => exact congrArg List.length (h.openFor kind)

theorem count (h : subs.Heeds history) (kind : IndicationKind) :
    subs.Heeds (.counted kind (subs.count kind) :: history) where
  made := h.made_cons Nat.le.refl nofun
  listed := h.listed
  nodup := h.nodup
  openFor := h.openFor
  queued id hid := h.queued id fun hearlier => hid (List.mem_cons_of_mem _ hearlier)
  dropped id hid := h.dropped id (by simpa using hid)

theorem step {after : Subscribers channel} (h : subs.Heeds history) (step : subs.Step event after) :
    after.Heeds (event :: history) := by
  cases step with
  | subscribe kind => exact h.subscribe kind
  | close made => exact h.close made
  | drop made => exact h.drop made
  | receiveUpTo limit made => exact h.receiveUpTo made limit (some limit)
  | @receive id made => exact h.receiveUpTo made (subs.queued id).length none
  | dispatch indication => exact h.dispatch indication
  | count kind => exact h.count kind

end Heeds

/-- Every run keeps the registers and the queues to the events. -/
theorem Run.heeds (run : Run history subs) : subs.Heeds history := by
  induction run with
  | start => exact .start
  | step _ step ih => exact ih.step step

/-- Every answer of a run is the one that follows from the events before it. -/
theorem Run.answers (run : Run history subs) :
    ∀ later event earlier, history = later ++ event :: earlier →
      SubscriberHistory.Answers earlier event := by
  induction run with
  | start => simp
  | @step history subs after latest run step ih =>
      intro later event earlier hsplit
      cases later with
      | nil =>
          obtain ⟨rfl, rfl⟩ := List.cons.inj hsplit
          exact run.heeds.answers step
      | cons first rest =>
          obtain ⟨-, rfl⟩ := List.cons.inj hsplit
          exact ih rest event earlier rfl

/-- What an event is about is not made again. -/
theorem Run.made_once {later earlier : SubscriberHistory} (run : Run history subs)
    (split : history = later ++ event :: earlier) (about : event.receiver? = some id) :
    ∀ e ∈ later, ∀ kind, e ≠ .subscribed kind id := by
  rintro _ he kind rfl
  obtain ⟨front, back, rfl⟩ := List.append_of_mem he
  have hfresh := run.answers front (.subscribed kind id) (back ++ event :: earlier)
    (by simp [split])
  exact hfresh event (by simp) about

theorem Run.due_of_open {later earlier : SubscriberHistory} (run : Run history subs)
    (split : history = later ++ .subscribed kind id :: earlier)
    (unended : ∀ e ∈ later, ¬ e.Ends id) : history.due id = later.dispatches kind := by
  have hfresh := run.answers later (.subscribed kind id) earlier split
  have honce := run.made_once split rfl
  rw [split]
  exact (SubscriberHistory.due_of_open hfresh honce unended).2

theorem Run.due_of_ended {later earlier : SubscriberHistory} (run : Run history subs)
    (split : history = later ++ event :: earlier) (ends : event.Ends id) :
    history.due id = earlier.due id := by
  have honce := run.made_once split ends.receiver?
  rw [split]
  exact (SubscriberHistory.due_of_ended ends honce).2

/-- Receivers get what is due to them.  Due to a receiver are the indications of its kind from its
subscription until it is closed or dropped.  It takes them out from the first on, and unless it was
dropped all that it did not take out yet is in its queue.  Every answer keeps to that: an indication
reaches as many receivers as are open for its kind, and as many are counted. -/
theorem audience_gets_what_is_due (run : Run history subs) :
    (∀ (later earlier : SubscriberHistory) kind id,
      history = later ++ .subscribed kind id :: earlier →
        (∀ event ∈ later, ¬ event.Ends id) → history.due id = later.dispatches kind) ∧
    (∀ (later earlier : SubscriberHistory) event id, history = later ++ event :: earlier →
      event.Ends id → history.due id = earlier.due id) ∧
    (∀ id, history.obtained id <+: history.due id ∧
      (.dropped id ∉ history → history.obtained id ++ subs.queued id = history.due id)) ∧
    (∀ (later earlier : SubscriberHistory) event, history = later ++ event :: earlier →
      earlier.Answers event) ∧
    (∀ kind, (history.openFor kind).Nodup ∧
      (∀ id, id ∈ history.openFor kind ↔ history.Open kind id) ∧
      subs.count kind = (history.openFor kind).length) := by
  have heeds := run.heeds
  refine ⟨fun _ _ _ _ => run.due_of_open, fun _ _ _ _ => run.due_of_ended,
    fun id => ⟨heeds.obtained_prefix id, heeds.queued id⟩,
    fun later earlier event => run.answers later event earlier, fun kind => ?_⟩
  rw [← heeds.openFor kind]
  refine ⟨(heeds.nodup kind).filter _, fun id => ?_, rfl⟩
  rw [heeds.openFor kind]
  exact SubscriberHistory.mem_openFor_iff

/-- A ring. -/
private def ring (number : Int) : Indication := ⟨.callRing, .ints [number]⟩

/-- Of two receivers one is closed and the other dropped, so that nobody is left for a while. -/
private def reopened : SubscriberHistory := [
  .counted .callRing 1, .received none ⟨0⟩ [ring 0], .dispatched (ring 3) 1,
  .subscribed .callRing ⟨2⟩, .counted .callRing 0, .dispatched (ring 2) 0, .dropped ⟨1⟩,
  .received (some 1) ⟨1⟩ [ring 0], .dispatched (ring 1) 1, .counted .callRing 1, .closed ⟨0⟩,
  .dispatched (ring 0) 2, .subscribed .callRing ⟨1⟩, .subscribed .callRing ⟨0⟩]

private theorem exists_run_reopened : ∃ subs : Subscribers, Run reopened subs := by
  refine ⟨_, .step (.step (.step (.step (.step (.step (.step (.step (.step (.step (.step (.step
    (.step (.step .start (.subscribe _)) (.subscribe _)) (.dispatch _)) (.close ?_)) (.count _))
    (.dispatch _)) (.receiveUpTo _ ?_)) (.drop ?_)) (.dispatch _)) (.count _)) (.subscribe _))
    (.dispatch _)) (.receive ?_)) (.count _)⟩
  all_goals decide

theorem audience_gets_what_is_due_reopened : ∃ subs : Subscribers, Run reopened subs ∧
    reopened.due ⟨0⟩ = [ring 0] ∧ reopened.due ⟨1⟩ = [ring 0, ring 1] ∧
      reopened.due ⟨2⟩ = [ring 3] ∧ subs.queued ⟨2⟩ = [ring 3] ∧ subs.count .callRing = 1 := by
  obtain ⟨subs, run⟩ := exists_run_reopened
  obtain ⟨-, -, hqueues, -, hcounts⟩ := audience_gets_what_is_due run
  have hqueued := (hqueues ⟨2⟩).2 (by decide)
  have hcount := (hcounts .callRing).2.2
  exact ⟨subs, run, by decide, by decide, by decide, hqueued, hcount⟩

end Subscribers

end ModemLink
