import ModemLink.Proofs.Conversations
import ModemLink.Script.Frames

/-!
# Frames are answered one conversation at a time

Requests are admitted, frames come in, deadlines and the timers of units run out, deaths take all
requests out, and those are failed one after the other, in any order and for any serials.  Whatever
the order, a frame is answered as if there had been nothing but the conversation about its own
serial.  Each conversation gives the unit of its request back at most once, with the first
acknowledgment or with its end, and no count of a guard falls otherwise, except by a forced
clearing.

* `DeskMoment.signal?` -- what a call means for the conversation about a serial;
* `conversation` -- how far that has come, told from these signals alone;
* `Happens.converses` -- every call takes the conversations on as its signals say;
* `DeskRun.answered_alone` -- what that means for every frame of a run.
-/

namespace ModemLink

open scoped List
open Station Clocked

namespace Station

/-- Sends the local acknowledgment that a frame asked for; `sent` tells whether that succeeds. -/
def acknowledge (sent : Bool) : Clocked Station Unit := do
  let s ← get
  let _ ← acquire .ack s.settings.ackSource
  if sent then
    record .localAck

/-- Takes the request of a serial out and settles it. -/
def finish (serial : Serial) (result : RequestResult) (outcome : Outcome) :
    Clocked Station (Option Delivery) := do
  match ← complete serial with
  | none => return none
  | some request =>
    let delivery ← settle request result outcome
    return some delivery

end Station

/-! ## Calls -/

/-- A station, and the requests that deaths have taken out and that are still to be failed. -/
structure Desk where
  station : Station
  drained : Multiset PendingRequest

/-- A call that concerns requests, frames or guards. -/
inductive DeskCall where
  | accept (kind : RequestKind) (guard : Guard) (target : TargetId) (source : WorkSource)
  | receive (frame : Frame)
  /-- The local acknowledgment of a frame. -/
  | acknowledge (sent : Bool)
  | overdue (serial : Serial) (sentIn current : Epoch)
  | finish (serial : Serial) (result : RequestResult) (outcome : Outcome)
  | drain
  /-- A request that a death took out is failed. -/
  | fail (request : PendingRequest) (result : RequestResult) (outcome : Outcome)
  | expire (guard : Guard) (sequence : Nat)
  /-- Time passes, tasks are put on the timeline, and subscribers come and go. -/
  | pass (timeline : Timeline Task) (subscribers : Subscribers)

/-- What a call is answered. -/
inductive DeskAnswer where
  | issued (serial : Serial) (unit : Option Ticket)
  | received (reception : Reception)
  | done

/-- A call that was made, with its answer and with the desk before and after it. -/
structure DeskMoment where
  before : Desk
  call : DeskCall
  answer : DeskAnswer
  after : Desk

namespace DeskMoment

/-- What the calls do, as long as no overflow cuts them off. -/
inductive Happens : DeskMoment → Prop where
  | accept {s middle t : Station} {drained : Multiset PendingRequest} {kind : RequestKind}
      {guard : Guard} {target : TargetId} {source : WorkSource} {unit : Option Ticket}
      {serial : Serial} (hacquire : acquire guard source s = .ok unit middle)
      (hroom : middle.ledger.size < Serial.space)
      (henroll : enroll kind target source unit middle = .ok serial t) :
      Happens ⟨⟨s, drained⟩, .accept kind guard target source, .issued serial unit, ⟨t, drained⟩⟩
  | receive {s t : Station} {drained : Multiset PendingRequest} {frame : Frame}
      {reception : Reception} (hrun : Station.receive frame s = .ok reception t) :
      Happens ⟨⟨s, drained⟩, .receive frame, .received reception, ⟨t, drained⟩⟩
  | acknowledge {s t : Station} {drained : Multiset PendingRequest} {sent : Bool}
      (hrun : Station.acknowledge sent s = .ok () t) :
      Happens ⟨⟨s, drained⟩, .acknowledge sent, .done, ⟨t, drained⟩⟩
  | overdue {s t : Station} {drained : Multiset PendingRequest} {serial : Serial}
      {sentIn current : Epoch} {delivery : Option Delivery}
      (hrun : Station.overdue serial sentIn current s = .ok delivery t) :
      Happens ⟨⟨s, drained⟩, .overdue serial sentIn current, .done, ⟨t, drained⟩⟩
  | finish {s t : Station} {drained : Multiset PendingRequest} {serial : Serial}
      {result : RequestResult} {outcome : Outcome} {delivery : Option Delivery}
      (hrun : Station.finish serial result outcome s = .ok delivery t) :
      Happens ⟨⟨s, drained⟩, .finish serial result outcome, .done, ⟨t, drained⟩⟩
  | drain {s t : Station} {drained : Multiset PendingRequest} {out : List PendingRequest}
      (hrun : drainAll s = .ok out t) :
      Happens ⟨⟨s, drained⟩, .drain, .done, ⟨t, out + drained⟩⟩
  | fail {s t : Station} {drained : Multiset PendingRequest} {request : PendingRequest}
      {result : RequestResult} {outcome : Outcome} {delivery : Delivery}
      (hrun : settle request result outcome s = .ok delivery t) :
      Happens ⟨⟨s, request ::ₘ drained⟩, .fail request result outcome, .done, ⟨t, drained⟩⟩
  | expire {s t : Station} {drained : Multiset PendingRequest} {guard : Guard} {sequence : Nat}
      (hrun : Station.expire guard sequence s = .ok () t) :
      Happens ⟨⟨s, drained⟩, .expire guard sequence, .done, ⟨t, drained⟩⟩
  | pass {s : Station} {drained : Multiset PendingRequest} {timeline : Timeline Task}
      {subscribers : Subscribers} :
      Happens ⟨⟨s, drained⟩, .pass timeline subscribers, .done,
        ⟨{ s with timeline, subscribers }, drained⟩⟩

/-- What a call means for the conversation about a serial. -/
def signal? (m : DeskMoment) (serial : Serial) : Option Signal :=
  match m.call, m.answer with
  | .accept _ _ target _, .issued own unit =>
    if serial = own then some (.issued target unit) else none
  | .receive (.ack own), _ => if serial = own then some .acked else none
  | .receive (.reply own _ _ _), _ => if serial = own then some .ended else none
  | .overdue own sentIn current, _ =>
    if serial = own ∧ current = sentIn then some .ended else none
  | .finish own _ _, _ => if serial = own then some .ended else none
  | .drain, _ => some .ended
  | _, _ => none

/-- How many units of a guard a call takes. -/
def taken (m : DeskMoment) (guard : Guard) : Nat :=
  match m.call with
  | .accept _ own _ _ => if own = guard ∧ guard ≠ .unguarded then 1 else 0
  | .acknowledge _ => if Guard.ack = guard ∧ guard ≠ .unguarded then 1 else 0
  | _ => 0

end DeskMoment

/-- How far the conversation about a serial has come after a history that has its latest call in
front. -/
def conversation : List DeskMoment → Serial → Conversation
  | [], _ => .idle
  | m :: earlier, serial =>
    match m.signal? serial with
    | none => conversation earlier serial
    | some signal => (conversation earlier serial).next signal

namespace DeskMoment

/-- The unit that a call gives back. -/
def given (m : DeskMoment) (earlier : List DeskMoment) : Option Ticket :=
  match m.call with
  | .receive (.ack serial) => (conversation earlier serial).unit
  | .receive (.reply serial _ _ _) => (conversation earlier serial).unit
  | .overdue serial sentIn current =>
    if current = sentIn then (conversation earlier serial).unit else none
  | .finish serial _ _ => (conversation earlier serial).unit
  | .fail request _ _ => request.ticket
  | _ => none

variable {m : DeskMoment} {earlier : List DeskMoment} {serial : Serial}

/-- A call that is a signal in one conversation takes that one a step on. -/
theorem conversation_cons_of_signal (serial : Serial) (signal : Signal)
    (h : ∀ other, m.signal? other = if other = serial then some signal else none) :
    conversation (m :: earlier) =
      Function.update (conversation earlier) serial
        ((conversation earlier serial).next signal) := by
  funext other
  rw [conversation, h]
  by_cases hother : other = serial
  · subst hother
    rw [if_pos rfl, Function.update_self]
  · rw [if_neg hother, Function.update_of_ne hother]

/-- A call that is no signal leaves all conversations where they are. -/
theorem conversation_cons_of_none (h : ∀ other, m.signal? other = none) :
    conversation (m :: earlier) = conversation earlier := by
  funext other
  rw [conversation, h]

/-- What a call does to the desk, given the conversations before it. -/
structure Serves (earlier : List DeskMoment) (m : DeskMoment) : Prop where
  converses : m.after.station.Converses (conversation (m :: earlier)) m.after.drained
  answer : ∀ serial response, m.call = .receive (response.frame serial) →
    m.answer =
      .received ((conversation earlier serial).answer m.before.station.governor serial response)
  honours : (∀ guard sequence, m.call ≠ .expire guard sequence) →
    ∀ ticket, m.after.station.governor.honours ticket = m.before.station.governor.honours ticket
  balance : (∀ guard sequence, m.call ≠ .expire guard sequence) → ∀ guard,
    m.before.station.governor.count guard + m.taken guard =
      m.after.station.governor.count guard +
        m.before.station.governor.worth guard (m.given earlier)
  drained : m.call = .drain → ∃ out : List PendingRequest,
    m.after.drained = out + m.before.drained ∧ ∀ serial, (conversation earlier serial).Of out serial

/-- A call that takes no unit and gives one back. -/
theorem Serves.of_givesBack
    (hconverses : m.after.station.Converses (conversation (m :: earlier)) m.after.drained)
    (hgiven : m.before.station.GivesBack (m.given earlier) m.after.station)
    (htaken : ∀ guard, m.taken guard = 0)
    (hanswer : ∀ serial response, m.call = .receive (response.frame serial) →
      m.answer =
        .received ((conversation earlier serial).answer m.before.station.governor serial response))
    (hdrain : m.call ≠ .drain) : m.Serves earlier :=
  ⟨hconverses, hanswer, fun _ => hgiven.honours,
    fun _ guard => by rw [htaken, Nat.add_zero, hgiven.count], fun heq => absurd heq hdrain⟩

/-- A call that takes a unit and gives none back. -/
theorem Serves.of_acquire (guard : Guard) (source : WorkSource) (now : Duration)
    (hconverses : m.after.station.Converses (conversation (m :: earlier)) m.after.drained)
    (hgovernor : m.after.station.governor =
      (m.before.station.governor.acquire guard source now).2)
    (htaken : ∀ other, m.taken other = if guard = other ∧ other ≠ .unguarded then 1 else 0)
    (hgiven : m.given earlier = none)
    (hreceive : ∀ frame, m.call ≠ .receive frame) (hdrain : m.call ≠ .drain) :
    m.Serves earlier := by
  refine ⟨hconverses, fun _ _ heq => absurd heq (hreceive _), fun _ ticket => ?_,
    fun _ other => ?_, fun heq => absurd heq hdrain⟩
  · rw [hgovernor, Governor.honours_acquire]
  · rw [hgovernor, Governor.count_acquire, htaken, hgiven]
    rfl

section

variable {s t : Station} {drained : Multiset PendingRequest}

/-- An admission begins the conversation about the serial that it issues. -/
theorem serves_accept (h : s.Converses (conversation earlier) drained) {middle : Station}
    {kind : RequestKind} {guard : Guard} {target : TargetId} {source : WorkSource}
    {unit : Option Ticket} (hacquire : acquire guard source s = .ok unit middle)
    (hroom : middle.ledger.size < Serial.space)
    (henroll : enroll kind target source unit middle = .ok serial t) :
    Serves earlier
      ⟨⟨s, drained⟩, .accept kind guard target source, .issued serial unit, ⟨t, drained⟩⟩ := by
  have hacquired : wp (acquire guard source)
      (fun unit middle => unit = (s.governor.acquire guard source s.reading).1.map (·.ticket) ∧
        ∃ timeline, middle =
          { s with governor := (s.governor.acquire guard source s.reading).2, timeline })
      (fun _ => True) s := wp_acquire (fun timeline => ⟨rfl, timeline, rfl⟩) trivial
  obtain ⟨rfl, timeline, rfl⟩ := (wp_of_ok hacquire).mp hacquired
  cases henroll
  refine .of_acquire guard source s.reading ?_ rfl (fun _ => rfl) rfl (by simp) (by simp)
  rw [conversation_cons_of_signal _ (.issued target _) fun _ => rfl]
  exact h.enroll hroom ⟨kind, target, source, _, s.clock timeline.now⟩
    (h.owes.acquire guard source s.reading) timeline

/-- A frame is answered as the conversation about its serial says; an indication is in none. -/
theorem serves_receive (h : s.Converses (conversation earlier) drained) {frame : Frame}
    {reception : Reception} (hrun : Station.receive frame s = .ok reception t) :
    Serves earlier ⟨⟨s, drained⟩, .receive frame, .received reception, ⟨t, drained⟩⟩ := by
  cases frame with
  | ack own =>
      obtain ⟨rfl, hafter, hgiven⟩ := (wp_of_ok hrun).mp (h.receive own .ack)
      refine .of_givesBack ?_ hgiven (fun _ => rfl) ?_ (by simp)
      · rw [conversation_cons_of_signal own .acked fun _ => rfl]
        exact hafter
      · intro serial response hcall
        cases response <;> cases hcall
        rfl
  | reply own code payload ackRequired =>
      obtain ⟨rfl, hafter, hgiven⟩ :=
        (wp_of_ok hrun).mp (h.receive own (.reply code payload ackRequired))
      refine .of_givesBack ?_ hgiven (fun _ => rfl) ?_ (by simp)
      · rw [conversation_cons_of_signal own .ended fun _ => rfl]
        exact hafter
      · intro serial response hcall
        cases response <;> cases hcall
        rfl
  | indication kind payload ackRequired =>
      have hindication : wp (receiveIndication kind payload)
          (fun _ t => t.Converses (conversation earlier) drained ∧ s.GivesBack none t)
          (fun _ => True) s := by
        simp only [receiveIndication, wp_bind, wp_get, wp_set]
        refine wp_record (fun recorder _ => ?_) fun _ => trivial
        exact ⟨⟨h.ledger, h.pending, h.owes⟩, .of_governor_eq rfl⟩
      obtain ⟨hafter, hgiven⟩ := (wp_of_ok hrun).mp hindication
      refine .of_givesBack ?_ hgiven (fun _ => rfl) ?_ (by simp)
      · rw [conversation_cons_of_none fun _ => rfl]
        exact hafter
      · intro serial response hcall
        cases response <;> cases hcall

/-- A local acknowledgment takes a unit that nobody will give back. -/
theorem serves_acknowledge (h : s.Converses (conversation earlier) drained) {sent : Bool}
    (hrun : Station.acknowledge sent s = .ok () t) :
    Serves earlier ⟨⟨s, drained⟩, .acknowledge sent, .done, ⟨t, drained⟩⟩ := by
  have hacknowledge : wp (Station.acknowledge sent)
      (fun _ t => t.Converses (conversation earlier) drained ∧
        t.governor = (s.governor.acquire .ack s.settings.ackSource s.reading).2)
      (fun _ => True) s := by
    simp only [Station.acknowledge, wp_bind, wp_get]
    refine wp_acquire (fun timeline => ?_) trivial
    have howes := h.owes.acquire_kept .ack s.settings.ackSource s.reading
    cases sent with
    | false => exact ⟨⟨h.ledger, h.pending, howes⟩, rfl⟩
    | true =>
        refine wp_record (fun recorder _ => ?_) fun _ => trivial
        exact ⟨⟨h.ledger, h.pending, howes⟩, rfl⟩
  obtain ⟨hafter, hgovernor⟩ := (wp_of_ok hrun).mp hacknowledge
  refine .of_acquire .ack _ s.reading ?_ hgovernor (fun _ => rfl) rfl (by simp) (by simp)
  rw [conversation_cons_of_none fun _ => rfl]
  exact hafter

/-- The end of a conversation, however it comes. -/
theorem converses_ended {conversations : Serial → Conversation}
    (h : t.Converses (Function.update conversations serial .idle) drained) :
    t.Converses (Function.update conversations serial ((conversations serial).next .ended))
      drained := by
  cases hconversation : conversations serial <;> exact h

theorem serves_overdue (h : s.Converses (conversation earlier) drained) {sentIn current : Epoch}
    {delivery : Option Delivery}
    (hrun : Station.overdue serial sentIn current s = .ok delivery t) :
    Serves earlier ⟨⟨s, drained⟩, .overdue serial sentIn current, .done, ⟨t, drained⟩⟩ := by
  have hoverdue := (wp_of_ok hrun).mp (h.overdue serial sentIn current)
  by_cases hepoch : current = sentIn
  · rw [if_pos hepoch] at hoverdue
    obtain ⟨hafter, hgiven⟩ := hoverdue
    refine .of_givesBack ?_ ?_ (fun _ => rfl) (by simp) (by simp)
    · rw [conversation_cons_of_signal serial .ended
        fun other => by simp [signal?, hepoch]]
      exact converses_ended hafter
    · simp only [given, hepoch, if_true]
      exact hgiven
  · rw [if_neg hepoch] at hoverdue
    subst hoverdue
    refine .of_givesBack ?_ ?_ (fun _ => rfl) (by simp) (by simp)
    · rw [conversation_cons_of_none fun other => by simp [signal?, hepoch]]
      exact h
    · simp only [given, hepoch, if_false]
      exact .of_governor_eq rfl

theorem serves_finish (h : s.Converses (conversation earlier) drained) {result : RequestResult}
    {outcome : Outcome} {delivery : Option Delivery}
    (hrun : Station.finish serial result outcome s = .ok delivery t) :
    Serves earlier ⟨⟨s, drained⟩, .finish serial result outcome, .done, ⟨t, drained⟩⟩ := by
  have hfinish : wp (Station.finish serial result outcome)
      (fun _ t => t.Converses (Function.update (conversation earlier) serial .idle) drained ∧
        s.GivesBack (conversation earlier serial).unit t)
      (fun _ => True) s := by
    refine h.finish serial (fun hidle => ?_) fun request t _ hafter hgiven => ⟨hafter, hgiven⟩
    rw [wp_pure, hidle, ← hidle, Function.update_eq_self, hidle]
    exact ⟨h, .of_governor_eq rfl⟩
  obtain ⟨hafter, hgiven⟩ := (wp_of_ok hrun).mp hfinish
  refine .of_givesBack ?_ hgiven (fun _ => rfl) (by simp) (by simp)
  rw [conversation_cons_of_signal serial .ended fun _ => rfl]
  exact converses_ended hafter

/-- A death ends all conversations, and takes the requests out that were in them. -/
theorem serves_drain (h : s.Converses (conversation earlier) drained) {out : List PendingRequest}
    (hrun : drainAll s = .ok out t) :
    Serves earlier ⟨⟨s, drained⟩, .drain, .done, ⟨t, out + drained⟩⟩ := by
  obtain ⟨hafter, hout, hgiven⟩ := (wp_of_ok hrun).mp h.drainAll
  refine ⟨?_, by simp, fun _ => hgiven.honours, fun _ => hgiven.count, fun _ => ⟨out, rfl, hout⟩⟩
  have hidle : conversation (⟨⟨s, drained⟩, .drain, .done, ⟨t, out + drained⟩⟩ :: earlier) =
      fun _ => .idle := by
    funext serial
    rw [conversation]
    change (conversation earlier serial).next .ended = .idle
    cases conversation earlier serial <;> rfl
  rw [hidle]
  exact hafter

theorem serves_fail {request : PendingRequest}
    (h : s.Converses (conversation earlier) (request ::ₘ drained)) {result : RequestResult}
    {outcome : Outcome} {delivery : Delivery}
    (hrun : settle request result outcome s = .ok delivery t) :
    Serves earlier
      ⟨⟨s, request ::ₘ drained⟩, .fail request result outcome, .done, ⟨t, drained⟩⟩ := by
  obtain ⟨hafter, hgiven⟩ := (wp_of_ok hrun).mp (h.fail result outcome)
  refine .of_givesBack ?_ hgiven (fun _ => rfl) (by simp) (by simp)
  rw [conversation_cons_of_none fun _ => rfl]
  exact hafter

end

/-- **Every call takes the conversations on as its signals say**, answers a frame as the
conversation about its serial says, and changes the counts of the guards by what it takes and gives
back. -/
theorem Happens.serves (h : m.Happens)
    (hbefore : m.before.station.Converses (conversation earlier) m.before.drained) :
    m.Serves earlier := by
  cases h with
  | accept hacquire hroom henroll => exact serves_accept hbefore hacquire hroom henroll
  | receive hrun => exact serves_receive hbefore hrun
  | acknowledge hrun => exact serves_acknowledge hbefore hrun
  | overdue hrun => exact serves_overdue hbefore hrun
  | finish hrun => exact serves_finish hbefore hrun
  | drain hrun => exact serves_drain hbefore hrun
  | fail hrun => exact serves_fail hbefore hrun
  | expire hrun =>
      have hafter := (wp_of_ok hrun).mp (hbefore.expire _ _)
      refine ⟨?_, by simp, fun hne => absurd rfl (hne _ _), fun hne => absurd rfl (hne _ _),
        by simp⟩
      rw [conversation_cons_of_none fun _ => rfl]
      exact hafter
  | pass =>
      refine .of_givesBack ?_ (.of_governor_eq rfl) (fun _ => rfl) (by simp) (by simp)
      rw [conversation_cons_of_none fun _ => rfl]
      exact ⟨hbefore.ledger, hbefore.pending, hbefore.owes⟩

end DeskMoment

/-! ## Runs -/

/-- The calls made since a station was started, the latest in front, and the desk after them. -/
inductive DeskRun (start : Station) : List DeskMoment → Desk → Prop where
  | start : DeskRun start [] ⟨start, 0⟩
  | step {history : List DeskMoment} {m : DeskMoment} (hrun : DeskRun start history m.before)
      (hmoment : m.Happens) : DeskRun start (m :: history) m.after

/-- A call takes the unit of a serial away from it: by acknowledging its request, or by ending the
conversation about it. -/
def DeskMoment.Parts (m : DeskMoment) (earlier : List DeskMoment) (serial : Serial) : Prop :=
  (conversation earlier serial).unit ≠ none ∧
    ∃ signal, m.signal? serial = some signal ∧ ∀ target unit, signal ≠ .issued target unit

/-- Only the issue of a serial brings a unit with it. -/
theorem Conversation.unit_next (conversation : Conversation) {signal : Signal}
    (h : ∀ target unit, signal ≠ .issued target unit) : (conversation.next signal).unit = none := by
  cases signal with
  | issued target unit => exact absurd rfl (h target unit)
  | acked => cases conversation <;> rfl
  | ended => cases conversation <;> rfl

/-- A conversation that has a unit again after it lost one has begun again in between. -/
theorem DeskMoment.Parts.issued {first : DeskMoment} {earlier middle : List DeskMoment}
    {serial : Serial} (h : first.Parts earlier serial)
    (hunit : (conversation (middle ++ first :: earlier) serial).unit ≠ none) :
    ∃ issue ∈ middle, ∃ target unit, issue.signal? serial = some (.issued target unit) := by
  induction middle with
  | nil =>
      obtain ⟨-, signal, hsignal, hother⟩ := h
      rw [List.nil_append, conversation, hsignal] at hunit
      exact absurd (Conversation.unit_next _ hother) hunit
  | cons m rest ih =>
      rw [List.cons_append, conversation] at hunit
      cases hsignal : m.signal? serial with
      | none =>
          rw [hsignal] at hunit
          obtain ⟨issue, hmem, hissued⟩ := ih hunit
          exact ⟨issue, List.mem_cons_of_mem _ hmem, hissued⟩
      | some signal =>
          rw [hsignal] at hunit
          by_cases hissued : ∃ target unit, signal = .issued target unit
          · obtain ⟨target, unit, rfl⟩ := hissued
            exact ⟨m, List.mem_cons_self .., target, unit, hsignal⟩
          · push Not at hissued
            exact absurd (Conversation.unit_next _ hissued) hunit

/-- What a frame is answered depends on the governor only through the tickets that are good. -/
theorem Conversation.answer_congr {governor after : Governor}
    (h : ∀ ticket, after.honours ticket = governor.honours ticket) (conversation : Conversation)
    (serial : Serial) (response : Response) :
    conversation.answer after serial response = conversation.answer governor serial response := by
  have hsame : after.honours = governor.honours := funext h
  cases response with
  | ack =>
      cases conversation with
      | sent target unit => simp only [answer, hsame]
      | _ => rfl
  | reply code payload ackRequired => rfl

namespace DeskRun

variable {settings : StationSettings} {spare : Nat} {seed : Option Int} {entropy : Entropy}
  {outside : OutsideStore} {history : List DeskMoment} {desk : Desk}

/-- A request can be accepted as long as there is a free serial. -/
theorem accept {start s : Station} {drained : Multiset PendingRequest}
    (run : DeskRun start history ⟨s, drained⟩) (kind : RequestKind) (guard : Guard)
    (target : TargetId) (source : WorkSource) {unit : Option Ticket} {middle : Station}
    (hacquire : acquire guard source s = .ok unit middle)
    (hroom : middle.ledger.size < Serial.space) :
    DeskRun start
      (⟨⟨s, drained⟩, .accept kind guard target source,
        .issued (middle.ledger.enroll ⟨kind, target, source, unit, middle.reading⟩).1 unit,
        ⟨{ middle with
          ledger := (middle.ledger.enroll ⟨kind, target, source, unit, middle.reading⟩).2 },
          drained⟩⟩ :: history)
      ⟨{ middle with ledger := (middle.ledger.enroll ⟨kind, target, source, unit,
          middle.reading⟩).2 },
        drained⟩ :=
  run.step (.accept hacquire hroom rfl)

/-- Time can pass, and subscribers come and go, at any point. -/
theorem pass {start s : Station} {drained : Multiset PendingRequest}
    (run : DeskRun start history ⟨s, drained⟩) (timeline : Timeline Task)
    (subscribers : Subscribers) :
    DeskRun start
      (⟨⟨s, drained⟩, .pass timeline subscribers, .done,
        ⟨{ s with timeline, subscribers }, drained⟩⟩ :: history)
      ⟨{ s with timeline, subscribers }, drained⟩ :=
  run.step .pass

/-- The station holds the conversations that the history tells. -/
theorem converses (run : DeskRun (.start settings spare seed entropy outside) history desk) :
    desk.station.Converses (conversation history) desk.drained := by
  induction run with
  | start => exact .start settings spare seed entropy outside
  | step _ hmoment ih => exact (hmoment.serves ih).converses

/-- What a call did is seen in the history, and the calls before it are a run. -/
theorem split {start : Station} {later earlier : List DeskMoment} {m : DeskMoment}
    (run : DeskRun start (later ++ m :: earlier) desk) :
    DeskRun start earlier m.before ∧ m.Happens := by
  induction later generalizing desk with
  | nil =>
      cases run with
      | step hrun hmoment => exact ⟨hrun, hmoment⟩
  | cons latest rest ih =>
      cases run with
      | step hrun _ => exact ih hrun

/-- A frame that comes in is answered, unless a sum leaves its range. -/
theorem exists_receive (run : DeskRun (.start settings spare seed entropy outside) history desk)
    {serial : Serial} {response : Response} (hsums : ¬ desk.station.Exceeds serial response) :
    ∃ t, Station.receive (response.frame serial) desk.station =
      .ok ((conversation history serial).answer desk.station.governor serial response) t := by
  have hconverses := run.converses
  have hends := ends_receive hconverses.ledger hsums
  cases hreceive : Station.receive (response.frame serial) desk.station with
  | error overflow t => exact ((wp_of_error hreceive).mp hends).elim
  | ok reception t =>
      obtain ⟨rfl, -, -⟩ := (wp_of_ok hreceive).mp (hconverses.receive serial response)
      exact ⟨t, rfl⟩

/-- A frame changes nothing about what a frame for another serial is answered. -/
theorem answer_of_ne {m : DeskMoment}
    (run : DeskRun (.start settings spare seed entropy outside) history m.before)
    (hmoment : m.Happens) {serial other : Serial} {response response' : Response}
    (hcall : m.call = .receive (response.frame serial)) (hne : other ≠ serial)
    {reception reception' : Reception} {t t' : Station}
    (hbefore : Station.receive (response'.frame other) m.before.station = .ok reception t)
    (hafter : Station.receive (response'.frame other) m.after.station = .ok reception' t') :
    reception' = reception := by
  have hserves := hmoment.serves run.converses
  have hsame : conversation (m :: history) other = conversation history other := by
    have hnone : m.signal? other = none := by
      unfold DeskMoment.signal?
      rw [hcall]
      cases response <;> exact if_neg hne
    rw [conversation, hnone]
  obtain ⟨hanswer, -, -⟩ := (wp_of_ok hbefore).mp (run.converses.receive other response')
  obtain ⟨hanswer', -, -⟩ := (wp_of_ok hafter).mp (hserves.converses.receive other response')
  rw [hanswer, hanswer', hsame]
  refine Conversation.answer_congr (hserves.honours fun guard sequence heq => ?_) _ _ _
  rw [hcall] at heq
  cases heq

/-- **Frames are answered one conversation at a time.**  After any calls a frame is answered as the
conversation about its serial says, unless a sum leaves its range; the conversation is told by the
calls that are signals in it.  A frame changes nothing about what a frame for another serial is
answered.  A call changes the count of a guard by the unit that it takes and by the unit that it
gives back, if that one is still good, and only a forced clearing does otherwise; a death takes the
requests out with their units, to be failed later.  And a serial that has lost its unit twice was
issued again in between. -/
theorem answered_alone
    (run : DeskRun (.start settings spare seed entropy outside) history desk) :
    (∀ serial response, ¬ desk.station.Exceeds serial response →
      ∃ t, Station.receive (response.frame serial) desk.station =
        .ok ((conversation history serial).answer desk.station.governor serial response) t) ∧
    (∀ later (m : DeskMoment) earlier, history = later ++ m :: earlier →
      (∀ serial response, m.call = .receive (response.frame serial) →
        m.answer = .received
          ((conversation earlier serial).answer m.before.station.governor serial response) ∧
        ∀ other (response' : Response) reception reception' t t', other ≠ serial →
          Station.receive (response'.frame other) m.before.station = .ok reception t →
          Station.receive (response'.frame other) m.after.station = .ok reception' t' →
          reception' = reception) ∧
      ((∀ guard sequence, m.call ≠ .expire guard sequence) → ∀ guard,
        m.before.station.governor.count guard + m.taken guard =
          m.after.station.governor.count guard +
            m.before.station.governor.worth guard (m.given earlier)) ∧
      (m.call = .drain → ∃ out : List PendingRequest, m.after.drained = out + m.before.drained ∧
        ∀ serial, (conversation earlier serial).Of out serial)) ∧
    ∀ serial later (m : DeskMoment) middle (first : DeskMoment) earlier,
      history = later ++ m :: (middle ++ first :: earlier) →
      first.Parts earlier serial → m.Parts (middle ++ first :: earlier) serial →
      ∃ issue ∈ middle, ∃ target unit, issue.signal? serial = some (.issued target unit) := by
  refine ⟨fun serial response hsums => run.exists_receive hsums, ?_, ?_⟩
  · rintro later m earlier rfl
    obtain ⟨hearlier, hmoment⟩ := run.split
    have hserves := hmoment.serves hearlier.converses
    refine ⟨fun serial response hcall => ⟨hserves.answer serial response hcall, ?_⟩,
      hserves.balance, hserves.drained⟩
    intro other response' reception reception' t t' hne hbefore hafter
    exact hearlier.answer_of_ne hmoment hcall hne hbefore hafter
  · rintro serial later m middle first earlier - hfirst ⟨hunit, -⟩
    exact hfirst.issued hunit

end DeskRun

/-- A station that has admitted one request answers two acknowledgments: the first one gives its
unit back, and the second one is a duplicate. -/
theorem answered_alone_twice :
    ∃ history s t u drained serial,
      DeskRun (.start ⟨.ofMillis 2000, .ofMillis 1000, .zero, [], .phone⟩ 0 (some 0) ⟨[]⟩ .silent)
        history ⟨s, drained⟩ ∧
      Station.receive (.ack serial) s = .ok (.acked serial true) t ∧
      Station.receive (.ack serial) t = .ok (.duplicate serial) u := by
  have started : DeskRun
      (.start ⟨.ofMillis 2000, .ofMillis 1000, .zero, [], .phone⟩ 0 (some 0) ⟨[]⟩ .silent) [] _ :=
    .start
  have accepted := started.accept .getImei .request ⟨0⟩ .phone rfl (by decide +kernel)
  obtain ⟨t, hfirst⟩ := accepted.answered_alone.1 ⟨0⟩ .ack (by
    -- no time has passed, so the time held stays in range
    intro hexceeds
    cases hexceeds with
    | @ack request ticket state hpending hserial hunit hbooks hover =>
        cases hguard : ticket.guard <;> rw [hguard] at hbooks <;> cases hbooks
        · exact GuardState.giveUnit_ne_none rfl ticket hover
        · exact GuardState.giveUnit_ne_none rfl ticket hover)
  have acked := accepted.step (.receive hfirst)
  obtain ⟨u, hsecond⟩ := acked.answered_alone.1 ⟨0⟩ .ack (by
    -- the acknowledged request holds no unit
    intro hexceeds
    cases hexceeds with
    | ack hpending hserial hunit hbooks hover =>
        have hnone := acked.converses.unit_of_mem hpending
        rw [hserial, hunit] at hnone
        cases hnone)
  exact ⟨_, _, t, u, _, _, accepted, hfirst, hsecond⟩

namespace DeskRun

variable {settings : StationSettings} {spare : Nat} {seed : Option Int} {entropy : Entropy}
  {outside : OutsideStore} {history : List DeskMoment} {desk : Desk}

/-- A reply that is answered has settled the request that was pending under its serial. -/
theorem receive_of_mem {s : Station} {request : PendingRequest} (hwf : s.ledger.WellFormed)
    (hmem : request ∈ s.ledger.requests) (code : Int) (payload : Payload) (ackRequired : Bool) :
    wp (Station.receive (.reply request.serial code payload ackRequired))
      (fun _ t => s.ledger.requests ~ request :: t.ledger.requests ∧ t.reading = s.reading ∧
        settled s.reading (s.settlement request (.ofResult (.ofReply code payload))) s.account =
          some t.account)
      (fun _ => True) s := by
  simp only [Station.receive, receiveReply, wp_bind]
  refine wp_complete hwf (fun hnone => absurd rfl (hnone request hmem)) ?_
  intro other hother hsame ledger hout
  obtain rfl := hwf.serial_inj hother hmem hsame
  rw [wp_bind]
  refine wp_intro (fun delivery t hsettle => ?_) fun _ _ _ => trivial
  obtain ⟨-, ⟨governor, recorder, rfl⟩, haccount⟩ := settle_eq_ok hsettle
  exact ⟨hout.requests, rfl, haccount⟩

/-- If the pending requests cannot all be settled one after the other, some reply is not answered
although its serial is pending. -/
theorem exists_reply_cut_off {requests : List PendingRequest}
    (run : DeskRun (.start settings spare seed entropy outside) history desk)
    (hperm : desk.station.ledger.requests ~ requests)
    (hover : ((requests.map fun request => desk.station.settlement request .success).foldlM
      (fun account item => settled desk.station.reading item account) desk.station.account).isSome =
        false) :
    ∃ later last serial,
      DeskRun (.start settings spare seed entropy outside) (later ++ history) last ∧
      (conversation (later ++ history) serial).target? ≠ none ∧
      ∀ reception t,
        Station.receive (.reply serial 0 .empty false) last.station ≠ .ok reception t := by
  induction requests generalizing history desk with
  | nil => cases hover
  | cons request rest ih =>
      have hconverses := run.converses
      have hmem : request ∈ desk.station.ledger.requests :=
        hperm.mem_iff.mpr (List.mem_cons_self ..)
      cases hreceive : Station.receive (.reply request.serial 0 .empty false) desk.station with
      | error overflow t =>
          refine ⟨[], desk, request.serial, run, ?_, fun reception t heq => ?_⟩
          · rw [List.nil_append, (hconverses.of_mem hmem).1, Conversation.target?_ofRequest]
            simp
          · rw [hreceive] at heq
            cases heq
      | ok reception t =>
          obtain ⟨hleft, hnow, haccount⟩ :=
            (wp_of_ok hreceive).mp (receive_of_mem hconverses.ledger hmem 0 .empty false)
          have houtcome : Outcome.ofResult (.ofReply 0 .empty) = .success := rfl
          have hsettlement : (fun request => t.settlement request .success) =
              fun request => desk.station.settlement request .success := by
            funext other
            rw [settlement, settlement, hnow]
          rw [houtcome] at haccount
          rw [List.map_cons, List.foldlM_cons, haccount] at hover
          have hrest : ((rest.map fun request => t.settlement request .success).foldlM
              (fun account item => settled t.reading item account) t.account).isSome = false := by
            rw [hsettlement, hnow]
            exact hover
          have hnext := run.step
            (m := ⟨desk, .receive _, .received reception, ⟨t, desk.drained⟩⟩) (.receive hreceive)
          obtain ⟨later, last, serial, hlater, hcut⟩ :=
            ih hnext ((List.perm_cons request).mp (hleft.symm.trans hperm)) hrest
          rw [← List.singleton_append, ← List.append_assoc] at hlater hcut
          exact ⟨_, last, serial, hlater, hcut⟩

end DeskRun

/-- Three requests of one kind are admitted at the start of the clock, and after 2^64 / 3 s they are
replied to.  The sum of their latencies leaves its range, so one of the replies is not answered
although its serial is pending. -/
theorem reply_cut_off_after_overflow :
    ∃ history desk serial,
      DeskRun (.start ⟨.ofMillis 2000, .ofMillis 1000, .zero, [], .phone⟩ 0 (some 0) ⟨[]⟩ .silent)
        history desk ∧
      (conversation history serial).target? ≠ none ∧
      ∀ reception t,
        Station.receive (.reply serial 0 .empty false) desk.station ≠ .ok reception t := by
  have started : DeskRun
      (.start ⟨.ofMillis 2000, .ofMillis 1000, .zero, [], .phone⟩ 0 (some 0) ⟨[]⟩ .silent) [] _ :=
    .start
  have first := started.accept .getImei .unguarded ⟨0⟩ .phone rfl (by decide +kernel)
  have second := first.accept .getImei .unguarded ⟨1⟩ .phone rfl (by decide +kernel)
  have third := second.accept .getImei .unguarded ⟨2⟩ .phone rfl (by decide +kernel)
  have waiting := third.pass
    (Timeline.start.setNow ⟨6148914691236517206 * 1000000000, by decide⟩) .empty
  have hone := started.converses.ledger.perm_requests_enroll
    ⟨.getImei, ⟨0⟩, .phone, none, .zero⟩
  have htwo := first.converses.ledger.perm_requests_enroll
    ⟨.getImei, ⟨1⟩, .phone, none, .zero⟩
  have hthree := second.converses.ledger.perm_requests_enroll
    ⟨.getImei, ⟨2⟩, .phone, none, .zero⟩
  obtain ⟨later, last, serial, hrun, hpending, hcut⟩ := waiting.exists_reply_cut_off
    (hthree.trans ((htwo.trans (hone.cons _)).cons _)) (by decide +kernel)
  exact ⟨_, last, serial, hrun, hpending, hcut⟩

/-! ## Scripted frames -/

namespace Script.FrameState

end Script.FrameState

end ModemLink
