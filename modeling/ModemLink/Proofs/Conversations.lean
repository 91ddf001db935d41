import ModemLink.Proofs.OutstandingUnits
import ModemLink.Proofs.Settlements

/-!
# One conversation per serial

What a frame is answered depends on how far the conversation about its serial has come: nobody is
pending under it, or a request is that was not acknowledged yet, or one that was.  Such a
conversation knows the target of its request and the unit that the request still holds, and nothing
of any other serial.  The ledger of a station holds one conversation for each serial, and every
action of the station takes each of them one step on, or leaves it where it is.

* `Conversation.answer` -- what a frame is answered, read off the conversation about its serial;
* `Station.Converses` -- the ledger holds these conversations, and the units of their requests are
  out;
* `Converses.receive`, `Converses.finish` and the others -- what an action does to the conversations
  and to the counts of the guards;
* `Station.ends_receive` -- which sums cut a frame off.
-/

namespace ModemLink

open scoped List

/-! ## Conversations -/

/-- What a frame says about the serial that it is for. -/
inductive Response where
  | ack
  | reply (code : Int) (payload : Payload) (ackRequired : Bool)

/-- The frame that says so. -/
def Response.frame (serial : Serial) : Response → Frame
  | .ack => .ack serial
  | .reply code payload ackRequired => .reply serial code payload ackRequired

/-- How far the conversation about a serial has come. -/
inductive Conversation where
  | idle
  | sent (target : TargetId) (unit : Option Ticket)
  | acked (target : TargetId)

/-- What may happen in a conversation. -/
inductive Signal where
  /-- The serial was issued to a request. -/
  | issued (target : TargetId) (unit : Option Ticket)
  | acked
  /-- The request was taken out, for whatever reason. -/
  | ended

/-- What a frame is in the conversation about its serial. -/
def Response.signal : Response → Signal
  | .ack => .acked
  | .reply _ _ _ => .ended

namespace Conversation

/-- The unit that is held for the serial. -/
def unit : Conversation → Option Ticket
  | .sent _ unit => unit
  | _ => none

/-- The target of the request that is pending under the serial. -/
def target? : Conversation → Option TargetId
  | .idle => none
  | .sent target _ => some target
  | .acked target => some target

/-- The answer to a frame for the serial. -/
def answer (conversation : Conversation) (governor : Governor) (serial : Serial) :
    Response → Reception
  | .ack =>
    match conversation with
    | .idle => .violation (.unknownSerial serial)
    | .sent _ unit => .acked serial (unit.any governor.honours)
    | .acked _ => .duplicate serial
  | .reply code payload _ =>
    match conversation.target? with
    | none => .violation (.unknownSerial serial)
    | some target => .replied serial ⟨target, .ofReply code payload⟩

/-- The conversation after a signal. -/
def next : Conversation → Signal → Conversation
  | _, .issued target unit => .sent target unit
  | .idle, .acked => .idle
  | .sent target _, .acked => .acked target
  | .acked target, .acked => .acked target
  | _, .ended => .idle

/-- The conversation that a pending request is in. -/
def ofRequest (request : PendingRequest) : Conversation :=
  match request.state with
  | .sent => .sent request.target request.ticket
  | .acked => .acked request.target

/-- The requests hold the conversation about a serial; an acknowledged one holds no unit. -/
def Of (requests : List PendingRequest) (serial : Serial) : Conversation → Prop
  | .idle => ∀ request ∈ requests, request.serial ≠ serial
  | conversation => ∃ request ∈ requests, request.serial = serial ∧
      ofRequest request = conversation ∧ (request.state = .acked → request.ticket = none)

variable {conversation : Conversation} {requests others : List PendingRequest}
  {request : PendingRequest} {serial : Serial}

theorem target?_ofRequest : (ofRequest request).target? = some request.target := by
  unfold ofRequest
  split <;> rfl

/-- Where a request of the serial is pending, the conversation is its own. -/
theorem Of.of_mem (h : conversation.Of requests serial) (hmem : request ∈ requests)
    (hserial : request.serial = serial)
    (hinj : ∀ other ∈ requests, other.serial = request.serial → other = request) :
    conversation = ofRequest request ∧ (request.state = .acked → request.ticket = none) := by
  cases conversation with
  | idle => exact absurd hserial (h request hmem)
  | sent target unit =>
      obtain ⟨other, hother, hsame, heq, hacked⟩ := h
      obtain rfl := hinj other hother (hsame.trans hserial.symm)
      exact ⟨heq.symm, hacked⟩
  | acked target =>
      obtain ⟨other, hother, hsame, heq, hacked⟩ := h
      obtain rfl := hinj other hother (hsame.trans hserial.symm)
      exact ⟨heq.symm, hacked⟩

/-- The unit that is held for the serial is the one that its request holds. -/
theorem unit_ofRequest (hacked : request.state = .acked → request.ticket = none) :
    (ofRequest request).unit = request.ticket := by
  unfold ofRequest
  cases hstate : request.state with
  | sent => rfl
  | acked => exact (hacked hstate).symm

/-- Requests of other serials are none of the conversation's business. -/
theorem Of.congr (h : conversation.Of requests serial)
    (hsame : ∀ request, request.serial = serial → (request ∈ requests ↔ request ∈ others)) :
    conversation.Of others serial := by
  cases conversation with
  | idle => exact fun request hmem hserial => h request ((hsame request hserial).mpr hmem) hserial
  | sent target unit =>
      obtain ⟨request, hmem, hserial, hrest⟩ := h
      exact ⟨request, (hsame request hserial).mp hmem, hserial, hrest⟩
  | acked target =>
      obtain ⟨request, hmem, hserial, hrest⟩ := h
      exact ⟨request, (hsame request hserial).mp hmem, hserial, hrest⟩

theorem Of.perm (h : conversation.Of requests serial) (hperm : requests ~ others) :
    conversation.Of others serial :=
  h.congr fun _ _ => hperm.mem_iff

/-- A serial that no request has is idle. -/
theorem Of.eq_idle (h : conversation.Of requests serial)
    (hnone : ∀ request ∈ requests, request.serial ≠ serial) : conversation = .idle := by
  cases conversation with
  | idle => rfl
  | sent target unit =>
      obtain ⟨request, hmem, hserial, -⟩ := h
      exact absurd hserial (hnone request hmem)
  | acked target =>
      obtain ⟨request, hmem, hserial, -⟩ := h
      exact absurd hserial (hnone request hmem)

end Conversation

/-! ## The conversations that a station holds -/

namespace Station

open Clocked

/-- The ledger holds these conversations.  The units of pending and of carried requests are out. -/
structure Converses (conversations : Serial → Conversation) (carried : Multiset PendingRequest)
    (s : Station) : Prop where
  ledger : s.ledger.WellFormed
  pending : ∀ serial, (conversations serial).Of s.ledger.requests serial
  owes : s.governor.Owes (tickets (s.pending + carried))

/-- A unit that was held was given back, to a governor that thinks as well of every other ticket. -/
structure GivesBack (s : Station) (unit : Option Ticket) (t : Station) : Prop where
  count : ∀ guard, s.governor.count guard = t.governor.count guard + s.governor.worth guard unit
  honours : ∀ ticket, t.governor.honours ticket = s.governor.honours ticket

theorem GivesBack.of_governor_eq {s t : Station} (h : t.governor = s.governor) :
    s.GivesBack none t :=
  ⟨fun _ => by rw [h]; rfl, fun _ => by rw [h]⟩

namespace Converses

variable {conversations : Serial → Conversation} {carried : Multiset PendingRequest} {s : Station}
  {request : PendingRequest} {serial : Serial}

theorem start (settings : StationSettings) (spare : Nat) (seed : Option Int) (entropy : Entropy)
    (outside : OutsideStore) :
    Converses (fun _ => .idle) 0 (Station.start settings spare seed entropy outside) :=
  ⟨Ledger.wellFormed_empty _ _, fun _ _ hmem => absurd hmem List.not_mem_nil, Governor.owes_fresh⟩

/-- The clock and the subscribers are no business of the conversations. -/
theorem surroundings (h : s.Converses conversations carried) (timeline : Timeline Task)
    (subscribers : Subscribers) (recorder : Recorder) :
    Converses conversations carried { s with timeline, subscribers, recorder } :=
  ⟨h.ledger, h.pending, h.owes⟩

theorem of_mem (h : s.Converses conversations carried) (hmem : request ∈ s.ledger.requests) :
    conversations request.serial = .ofRequest request ∧
      (request.state = .acked → request.ticket = none) :=
  (h.pending request.serial).of_mem hmem rfl fun _ hother hsame =>
    h.ledger.serial_inj hother hmem hsame

theorem unit_of_mem (h : s.Converses conversations carried)
    (hmem : request ∈ s.ledger.requests) :
    (conversations request.serial).unit = request.ticket := by
  obtain ⟨hconversation, hacked⟩ := h.of_mem hmem
  rw [hconversation, Conversation.unit_ofRequest hacked]

theorem idle_of_none (h : s.Converses conversations carried)
    (hnone : ∀ request ∈ s.ledger.requests, request.serial ≠ serial) :
    conversations serial = .idle :=
  (h.pending serial).eq_idle hnone

/-- An admitted request begins a conversation about its serial. -/
theorem enroll (h : s.Converses conversations carried) (hroom : s.ledger.size < Serial.space)
    (enrollment : Ledger.Enrollment) {governor : Governor}
    (howes : governor.Owes (enrollment.ticket.elim 0 singleton + tickets (s.pending + carried)))
    (timeline : Timeline Task) :
    Converses
      (Function.update conversations (s.ledger.enroll enrollment).1
        (.sent enrollment.target enrollment.ticket))
      carried { s with ledger := (s.ledger.enroll enrollment).2, governor, timeline } := by
  have hperm := h.ledger.perm_requests_enroll enrollment
  refine ⟨h.ledger.enroll hroom enrollment, fun serial => ?_, ?_⟩
  · by_cases hserial : serial = (s.ledger.enroll enrollment).1
    · subst hserial
      rw [Function.update_self]
      exact ⟨enrollment.under _, hperm.mem_iff.mpr (List.mem_cons_self ..), rfl, rfl,
        fun hacked => by cases hacked⟩
    · rw [Function.update_of_ne hserial]
      refine (h.pending serial).congr fun request hrequest => ?_
      rw [hperm.mem_iff, List.mem_cons]
      refine ⟨.inr, fun hmem => hmem.resolve_left fun heq => hserial ?_⟩
      rw [← hrequest, heq]
      rfl
  · have hbag : ((s.ledger.enroll enrollment).2.requests : Multiset PendingRequest) =
        enrollment.under (s.ledger.enroll enrollment).1 ::ₘ s.pending :=
      Multiset.coe_eq_coe.mpr hperm
    change governor.Owes
      (tickets (((s.ledger.enroll enrollment).2.requests : Multiset PendingRequest) + carried))
    rw [hbag, Multiset.cons_add, tickets, Multiset.filterMap_cons]
    have hunit : (enrollment.under (s.ledger.enroll enrollment).1).ticket = enrollment.ticket := rfl
    rw [hunit]
    cases hticket : enrollment.ticket with
    | none =>
        rw [hticket] at howes
        exact howes
    | some ticket =>
        rw [hticket] at howes
        exact howes

/-- A request that is taken out and settled ends the conversation about its serial. -/
theorem settled (h : s.Converses conversations carried) (hmem : request ∈ s.ledger.requests)
    {ledger : Ledger} (hout : Ledger.Completed s.ledger request ledger) {governor : Governor}
    (hreturned : s.governor.Returned s.reading request.ticket governor) (recorder : Recorder) :
    Converses (Function.update conversations request.serial .idle) carried
        { s with ledger, governor, recorder } ∧
      s.GivesBack (conversations request.serial).unit { s with ledger, governor, recorder } := by
  have hbag : s.pending = request ::ₘ (ledger.requests : Multiset PendingRequest) :=
    Multiset.coe_eq_coe.mpr hout.requests
  have howes := h.owes
  rw [hbag, Multiset.cons_add] at howes
  obtain ⟨hafter, hcount⟩ := howes.returned hreturned
  refine ⟨⟨hout.wellFormed, fun serial => ?_, hafter⟩, ?_, hreturned.honours⟩
  · by_cases hserial : serial = request.serial
    · subst hserial
      rw [Function.update_self]
      exact hout.serial_ne h.ledger
    · rw [Function.update_of_ne hserial]
      refine (h.pending serial).congr fun other hother => ?_
      rw [hout.requests.mem_iff, List.mem_cons]
      refine ⟨fun hin => hin.resolve_left fun heq => hserial ?_, .inr⟩
      rw [← hother, heq]
  · rw [h.unit_of_mem hmem]
    exact hcount

/-- The first acknowledgment of a request takes the conversation about its serial one step on. -/
theorem acknowledged (h : s.Converses conversations carried) (hmem : request ∈ s.ledger.requests)
    {ledger : Ledger} (hwf : ledger.WellFormed)
    (hafter : request :: ledger.requests ~ Ledger.acknowledged request :: s.ledger.requests)
    {governor : Governor} (hreturned : s.governor.Returned s.reading request.ticket governor)
    (recorder : Recorder) :
    Converses (Function.update conversations request.serial (.acked request.target)) carried
        { s with ledger, governor, recorder } ∧
      s.GivesBack request.ticket { s with ledger, governor, recorder } := by
  obtain ⟨others, hothers⟩ := Multiset.exists_cons_of_mem (Multiset.mem_coe.mpr hmem)
  have hbag : (ledger.requests : Multiset PendingRequest) =
      Ledger.acknowledged request ::ₘ others := by
    have heq := Multiset.coe_eq_coe.mpr hafter
    rw [← Multiset.cons_coe, ← Multiset.cons_coe, hothers, Multiset.cons_swap] at heq
    exact (Multiset.cons_inj_right request).mp heq
  have howes := h.owes
  rw [show s.pending = _ from hothers, Multiset.cons_add] at howes
  obtain ⟨hgiven, hcount⟩ := howes.returned hreturned
  refine ⟨⟨hwf, fun serial => ?_, ?_⟩, hcount, hreturned.honours⟩
  · by_cases hserial : serial = request.serial
    · subst hserial
      rw [Function.update_self]
      refine ⟨Ledger.acknowledged request, ?_, rfl, rfl, fun _ => rfl⟩
      rw [← Multiset.mem_coe, hbag]
      exact Multiset.mem_cons_self _ _
    · rw [Function.update_of_ne hserial]
      refine (h.pending serial).congr fun other hother => ?_
      have hne : other ≠ request := fun heq => hserial (by rw [← hother, heq])
      have hne' : other ≠ Ledger.acknowledged request := by
        intro heq
        refine hserial ?_
        rw [← hother, heq]
        rfl
      have hiff := hafter.mem_iff (a := other)
      simp only [List.mem_cons, hne, hne', false_or] at hiff
      exact hiff.symm
  · change governor.Owes (tickets ((ledger.requests : Multiset PendingRequest) + carried))
    rw [hbag, Multiset.cons_add, tickets, Multiset.filterMap_cons_none _ _ rfl]
    exact hgiven

/-- A frame for a serial that is idle is a violation, and changes nothing but the books. -/
theorem violate (h : s.Converses conversations carried) :
    wp (Station.violate serial)
      (fun reception t => reception = .violation (.unknownSerial serial) ∧
        Converses conversations carried t ∧ s.GivesBack none t)
      (fun _ => True) s := by
  rw [Station.violate, wp_bind]
  refine wp_record (fun recorder _ => ?_) fun _ => trivial
  exact ⟨rfl, h.surroundings s.timeline s.subscribers recorder, .of_governor_eq rfl⟩

/-- What becomes of a conversation in which a signal changes nothing. -/
theorem of_next_eq (h : s.Converses conversations carried) (serial : Serial) (signal : Signal)
    (hsame : (conversations serial).next signal = conversations serial) :
    Converses (Function.update conversations serial ((conversations serial).next signal)) carried
      s := by
  rw [hsame, Function.update_eq_self]
  exact h

/-- An acknowledgment is answered as the conversation says, and the unit that is held is given
back. -/
theorem receiveAck (h : s.Converses conversations carried) (serial : Serial) :
    wp (Station.receiveAck serial)
      (fun reception t =>
        reception = (conversations serial).answer s.governor serial .ack ∧
          Converses (Function.update conversations serial ((conversations serial).next .acked))
            carried t ∧
          s.GivesBack (conversations serial).unit t)
      (fun _ => True) s := by
  have hmarked := h.ledger.acknowledged serial
  simp only [Station.receiveAck, wp_bind, wp_get, wp_set]
  cases hmark : s.ledger.markAcked serial with
  | mk outcome ledger =>
      rw [hmark] at hmarked
      cases hmarked with
      | unknown hnone =>
          have hidle := h.idle_of_none hnone
          refine h.violate.mono (fun reception t ht => ?_) fun _ _ => trivial
          have hnext := ht.2.1.of_next_eq serial .acked (by rw [hidle]; rfl)
          rw [hidle] at hnext ⊢
          exact ⟨ht.1, hnext, ht.2.2⟩
      | @duplicate request hmem hsame hstate =>
          obtain ⟨hconversation, -⟩ := h.of_mem hmem
          have hself : conversations serial = .acked request.target := by
            rw [← hsame, hconversation, Conversation.ofRequest, hstate]
          have hnext := h.of_next_eq serial .acked (by rw [hself]; rfl)
          rw [hself] at hnext ⊢
          exact ⟨rfl, hnext, .of_governor_eq rfl⟩
      | @first request _ hmem hsame hstate hwf hafter =>
          obtain ⟨hconversation, -⟩ := h.of_mem hmem
          have hself : conversations serial = .sent request.target request.ticket := by
            rw [← hsame, hconversation, Conversation.ofRequest, hstate]
          subst hsame
          rw [hself]
          simp only [wp_bind]
          refine wp_record (fun recorder _ => ?_) (fun _ => trivial)
          cases hticket : request.ticket with
          | none =>
              have hreturned : s.governor.Returned s.reading request.ticket s.governor := by
                rw [hticket]
                rfl
              have hstep := h.acknowledged hmem hwf hafter hreturned recorder
              rw [hticket] at hstep
              exact ⟨rfl, hstep⟩
          | some ticket =>
              simp only [wp_bind]
              refine wp_release (fun good governor hrelease => ?_) (fun _ => trivial)
              have hreturned : s.governor.Returned s.reading request.ticket governor := by
                rw [hticket]
                exact ⟨good, hrelease⟩
              have hstep := h.acknowledged hmem hwf hafter hreturned recorder
              rw [hticket] at hstep
              refine ⟨?_, hstep⟩
              obtain ⟨others, hothers⟩ := Multiset.exists_cons_of_mem (Multiset.mem_coe.mpr hmem)
              have howes := h.owes
              rw [show s.pending = _ from hothers, Multiset.cons_add, tickets,
                Multiset.filterMap_cons_some _ _ _ hticket] at howes
              rw [(howes.release hrelease).2.1]
              rfl

/-- A request is taken out, if there is one of the serial, and settled: that ends the conversation,
and the unit that is held is given back. -/
theorem finish (h : s.Converses conversations carried) (serial : Serial)
    {result : PendingRequest → RequestResult} {outcome : PendingRequest → Outcome} {α : Type}
    {none' : Clocked Station α} {some' : Delivery → Clocked Station α} {post : α → Station → Prop}
    (hnone : conversations serial = .idle → wp none' post (fun _ => True) s)
    (hsome : ∀ request t, (conversations serial).target? = some request.target →
      Converses (Function.update conversations serial .idle) carried t →
      s.GivesBack (conversations serial).unit t →
      wp (some' ⟨request.target, result request⟩) post (fun _ => True) t) :
    wp (do
      match ← complete serial with
      | none => none'
      | some request =>
        let delivery ← settle request (result request) (outcome request)
        some' delivery) post (fun _ => True) s := by
  rw [wp_bind]
  refine wp_complete h.ledger (fun hall => hnone (h.idle_of_none hall)) ?_
  rintro request hmem rfl ledger hout
  rw [wp_bind]
  refine wp_settle (fun governor recorder hreturned _ => ?_) fun _ _ => trivial
  obtain ⟨hafter, hgiven⟩ := h.settled hmem hout hreturned recorder
  refine hsome request _ ?_ hafter hgiven
  rw [(h.of_mem hmem).1, Conversation.target?_ofRequest]

/-- A reply is answered as the conversation says, which it ends, and the unit that is held is given
back. -/
theorem receiveReply (h : s.Converses conversations carried) (serial : Serial) (code : Int)
    (payload : Payload) (ackRequired : Bool) :
    wp (Station.receiveReply serial code payload)
      (fun reception t =>
        reception = (conversations serial).answer s.governor serial
            (.reply code payload ackRequired) ∧
          Converses (Function.update conversations serial ((conversations serial).next .ended))
            carried t ∧
          s.GivesBack (conversations serial).unit t)
      (fun _ => True) s := by
  refine h.finish serial (fun hidle => ?_) fun request t htarget hafter hgiven => ?_
  · refine h.violate.mono (fun reception t ht => ?_) fun _ _ => trivial
    have hnext := ht.2.1.of_next_eq serial .ended (by rw [hidle]; rfl)
    rw [hidle] at hnext ⊢
    exact ⟨ht.1, hnext, ht.2.2⟩
  · have hended : (conversations serial).next .ended = .idle := by
      cases conversations serial <;> rfl
    rw [wp_pure, hended]
    refine ⟨?_, hafter, hgiven⟩
    simp only [Conversation.answer, htarget]

/-- **A frame is answered as the conversation about its serial says**, and takes it one step on. -/
theorem receive (h : s.Converses conversations carried) (serial : Serial) (response : Response) :
    wp (Station.receive (response.frame serial))
      (fun reception t =>
        reception = (conversations serial).answer s.governor serial response ∧
          Converses
            (Function.update conversations serial ((conversations serial).next response.signal))
            carried t ∧
          s.GivesBack (conversations serial).unit t)
      (fun _ => True) s := by
  cases response with
  | ack => exact h.receiveAck serial
  | reply code payload ackRequired => exact h.receiveReply serial code payload ackRequired

/-- A deadline of the present epoch ends the conversation, and gives the unit back that is held; one
of another epoch does nothing. -/
theorem overdue (h : s.Converses conversations carried) (serial : Serial)
    (sentIn current : Epoch) :
    wp (Station.overdue serial sentIn current)
      (fun _ t => if current = sentIn then
          Converses (Function.update conversations serial .idle) carried t ∧
            s.GivesBack (conversations serial).unit t
        else t = s)
      (fun _ => True) s := by
  unfold Station.overdue
  by_cases hepoch : current = sentIn
  · simp only [hepoch, ne_eq, not_true_eq_false, if_true, if_false]
    refine h.finish serial (fun hidle => ?_) fun request t _ hafter hgiven => ⟨hafter, hgiven⟩
    rw [wp_pure, hidle, ← hidle, Function.update_eq_self, hidle]
    exact ⟨h, .of_governor_eq rfl⟩
  · simp only [ne_eq, hepoch, not_false_eq_true, if_true, if_false]
    exact rfl

/-- A death ends all conversations.  Their requests are carried, with the units that they hold. -/
theorem drainAll (h : s.Converses conversations carried) :
    wp Station.drainAll
      (fun drained t => Converses (fun _ => .idle) (drained + carried) t ∧
        (∀ serial, (conversations serial).Of drained serial) ∧ s.GivesBack none t)
      (fun _ => True) s := by
  refine wp_drainAll (fun drained ledger entropy recorder hdrained hempty hwf _ => ?_)
    fun _ _ _ => trivial
  refine ⟨⟨hwf, fun serial request hmem => ?_, ?_⟩, fun serial => ?_, .of_governor_eq rfl⟩
  · change request ∈ ledger.requests at hmem
    rw [hempty] at hmem
    cases hmem
  · have hbag : s.pending = (drained : Multiset PendingRequest) :=
      Multiset.coe_eq_coe.mpr hdrained.symm
    have howes := h.owes
    rw [hbag] at howes
    change s.governor.Owes
      (tickets ((ledger.requests : Multiset PendingRequest) + (drained + carried)))
    rw [hempty, Multiset.coe_nil, zero_add]
    exact howes
  · exact (h.pending serial).perm hdrained.symm

/-- A carried request that is settled is carried no longer, and its unit is given back. -/
theorem fail (h : s.Converses conversations (request ::ₘ carried)) (result : RequestResult)
    (outcome : Outcome) :
    wp (settle request result outcome)
      (fun _ t => Converses conversations carried t ∧ s.GivesBack request.ticket t)
      (fun _ => True) s := by
  refine wp_settle (fun governor recorder hreturned _ => ?_) fun _ _ => trivial
  have howes := h.owes
  rw [Multiset.add_cons] at howes
  obtain ⟨hafter, hcount⟩ := howes.returned hreturned
  exact ⟨⟨h.ledger, h.pending, hafter⟩, hcount, hreturned.honours⟩

/-- The timer of a unit is no business of the conversations. -/
theorem expire (h : s.Converses conversations carried) (guard : Guard) (sequence : Nat) :
    wp (Station.expire guard sequence) (fun _ t => Converses conversations carried t)
      (fun _ => True) s :=
  wp_expire (fun _ _ _ hexpire _ => ⟨h.ledger, h.pending, h.owes.expire hexpire⟩)
    fun _ _ => trivial

end Converses

/-! ## Frames that are cut off -/

variable {s : Station}

/-- A sum leaves its range if the request of the serial is settled, or its unit given back, now. -/
inductive Exceeds (s : Station) (serial : Serial) : Response → Prop
  | ack {request : PendingRequest} {ticket : Ticket} {state : GuardState}
      (pending : request ∈ s.ledger.requests) (same : request.serial = serial)
      (unit : request.ticket = some ticket) (books : s.governor.state? ticket.guard = some state)
      (exceeds : state.giveUnit s.reading ticket = none) : Exceeds s serial .ack
  | reply {request : PendingRequest} {code : Int} {payload : Payload} {ackRequired : Bool}
      (pending : request ∈ s.ledger.requests) (same : request.serial = serial)
      (exceeds : settled s.reading
        (s.settlement request (.ofResult (.ofReply code payload))) s.account = none) :
      Exceeds s serial (.reply code payload ackRequired)

/-- A measurement that is not of a completion is entered without a sum. -/
theorem ends_record {m : Measurement}
    (h : ∀ kind outcome latency, m ≠ .completed kind outcome latency)
    {post : Unit → Station → Prop} (hpost : ∀ recorder, post () { s with recorder }) :
    wp (record m) post (fun _ => False) s := by
  have houtside : ∃ outside, OutsideStore.record m s.recorder.outside = .ok () outside := by
    cases s.recorder.outside with
    | silent => exact ⟨_, rfl⟩
    | exposition x => exact ⟨_, rfl⟩
    | books metrics =>
        simp only [OutsideStore.record, Metrics.record_of_not_completed h]
        exact ⟨_, rfl⟩
  obtain ⟨outside, houtside⟩ := houtside
  rw [record, wp_within, Recorder.record, Recorder.recordBoth, wp_bind, wp_within,
    wp_of_ok (Metrics.record_of_not_completed h _), wp_within, wp_of_ok houtside]
  exact hpost _

/-- A violation is always answered. -/
theorem ends_violate (serial : Serial) :
    wp (violate serial) (fun _ _ => True) (fun _ => False) s := by
  rw [violate, wp_bind]
  exact ends_record (by simp) fun _ => trivial

/-- A ticket is given back unless the time held leaves its range. -/
theorem ends_release {ticket : Ticket}
    (h : ∀ state, s.governor.state? ticket.guard = some state →
      state.giveUnit s.reading ticket ≠ none) :
    wp (release ticket) (fun _ _ => True) (fun _ => False) s := by
  have hrun : release ticket s =
      within governor (fun governor s => { s with governor })
        (Governor.release ticket s.reading) s := rfl
  rw [wp_of_eq hrun, wp_within]
  refine wp_intro (fun _ _ _ => trivial) fun overflow after hrelease => ?_
  cases hstate : s.governor.state? ticket.guard with
  | none =>
      simp only [Governor.release, hstate] at hrelease
      cases hrelease
  | some state =>
      have hends := Governor.ends?_release_of_state hstate s.reading (fun _ => (state, state))
        (fun _ => (state, state)) rfl fun _ _ => rfl
      rw [ends?, hrelease] at hends
      cases hgive : state.giveUnit s.reading ticket with
      | none => exact h state hstate hgive
      | some given =>
          rw [hgive] at hends
          cases hends

/-- A frame is cut off only if a sum leaves its range. -/
theorem ends_receive {serial : Serial} {response : Response} (hwf : s.ledger.WellFormed)
    (h : ¬ s.Exceeds serial response) :
    wp (receive (response.frame serial)) (fun _ _ => True) (fun _ => False) s := by
  cases response with
  | ack =>
      have hmarked := hwf.acknowledged serial
      simp only [Response.frame, receive, receiveAck, wp_bind, wp_get, wp_set]
      cases hmark : s.ledger.markAcked serial with
      | mk outcome ledger =>
          rw [hmark] at hmarked
          cases hmarked with
          | unknown hnone => exact ends_violate serial
          | duplicate hmem hsame hstate => trivial
          | @first request _ hmem hsame hstate hafter hperm =>
              simp only [wp_bind]
              refine ends_record (by simp) fun recorder => ?_
              cases hticket : request.ticket with
              | none => trivial
              | some ticket =>
                  simp only [wp_bind]
                  exact ends_release fun state hstate hover =>
                    h (.ack hmem hsame hticket hstate hover)
  | reply code payload ackRequired =>
      simp only [Response.frame, receive, receiveReply, wp_bind]
      refine wp_complete hwf (fun _ => ends_violate serial) ?_
      rintro request hmem rfl ledger -
      rw [wp_bind]
      refine wp_intro (fun _ _ _ => trivial) fun overflow t hsettle => ?_
      have hnone := settle_eq_error hsettle
      exact h (.reply hmem rfl hnone)

end Station

end ModemLink
