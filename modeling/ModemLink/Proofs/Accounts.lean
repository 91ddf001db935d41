import ModemLink.Engine
import ModemLink.Proofs.GuardBooks
import ModemLink.Proofs.StationRules

/-!
# Accounts of the submitted requests

A submitted request is in the ledger until it is taken out, and from then on in the hands of the
call that took it out, until it is settled and its result is delivered.  A death takes out many at
once, which its call carries from one delivery to the next.

The accounts of a station say three things about the requests in the ledger and the carried ones
together: they and the delivered ones are the submitted ones, the counters tell how many they are,
and the books of the request guard speak of the tickets that they still hold.  Nothing else happens
to accounts than that a request comes in, or goes out, or gives its ticket back.

* `Books.enter`, `Books.settle`, `Books.acknowledge` -- the three things that happen to accounts;
* `Station.Accounts` and the rules under its name -- every action of a station keeps accounts, as
  long as no overflow cuts it short.
-/

namespace ModemLink

/-- The tickets that requests hold. -/
def tickets (requests : Multiset PendingRequest) : Multiset Ticket :=
  requests.filterMap (·.ticket)

/-- What is true of the requests that were neither delivered nor lost. -/
structure Books (submitted delivered : Multiset TargetId) (requests : Multiset PendingRequest)
    (counters : Counters) (governor : Governor) : Prop where
  targets : submitted = requests.map (·.target) + delivered
  outstanding : counters.outstanding = UInt64.ofNat requests.card
  backed : governor.Backs .request (tickets requests)

namespace Books

variable {submitted delivered : Multiset TargetId} {requests : Multiset PendingRequest}
  {request : PendingRequest} {counters counters' : Counters} {governor governor' : Governor}
  {now : Duration}

/-- The governor that got the ticket of a request back backs the tickets of the others. -/
theorem backed_of_returned (h : governor.Backs .request (tickets (request ::ₘ requests)))
    (hreturned : governor.Returned now request.ticket governor') :
    governor'.Backs .request (tickets requests) := by
  cases hticket : request.ticket with
  | none =>
      rw [tickets, Multiset.filterMap_cons_none _ _ hticket] at h
      rw [hticket] at hreturned
      rw [hreturned]
      exact h
  | some ticket =>
      rw [tickets, Multiset.filterMap_cons_some _ _ _ hticket] at h
      rw [hticket] at hreturned
      obtain ⟨good, hrelease⟩ := hreturned
      exact h.release hrelease

/-- A request that comes in. -/
theorem enter (h : Books submitted delivered requests counters governor) (request : PendingRequest)
    (hcounters : counters'.outstanding = counters.outstanding + 1)
    (hticket : request.ticket = (governor.acquire .request source now).1.map (·.ticket)) :
    Books (request.target ::ₘ submitted) delivered (request ::ₘ requests) counters'
      (governor.acquire .request source now).2 := by
  obtain ⟨grant, hgrant, hbacked⟩ := h.backed.acquire source now
  refine ⟨?_, ?_, ?_⟩
  · rw [h.targets, Multiset.map_cons, Multiset.cons_add]
  · rw [hcounters, h.outstanding, Multiset.card_cons, UInt64.ofNat_add]
    rfl
  · rw [hgrant, Option.map_some] at hticket
    rw [tickets, Multiset.filterMap_cons_some _ _ _ hticket]
    exact hbacked

/-- An admitted request comes in. -/
theorem enroll {ledger : Ledger} {carried : Multiset PendingRequest}
    (h : Books submitted delivered (ledger.requests + carried) counters governor)
    (hwf : ledger.WellFormed) (hcounters : counters'.outstanding = counters.outstanding + 1)
    (enrollment : Ledger.Enrollment)
    (hticket : enrollment.ticket = (governor.acquire .request source now).1.map (·.ticket)) :
    Books (enrollment.target ::ₘ submitted) delivered
      ((ledger.enroll enrollment).2.requests + carried) counters'
      (governor.acquire .request source now).2 := by
  have hrequests := Multiset.coe_eq_coe.mpr (hwf.perm_requests_enroll enrollment)
  rw [← Multiset.cons_coe] at hrequests
  rw [hrequests, Multiset.cons_add]
  exact h.enter (enrollment.under _) hcounters hticket

/-- A request that goes out. -/
theorem settle (h : Books submitted delivered (request ::ₘ requests) counters governor)
    (hcounters : counters'.outstanding = counters.outstanding - 1)
    (hreturned : governor.Returned now request.ticket governor') :
    Books submitted (request.target ::ₘ delivered) requests counters' governor' := by
  refine ⟨?_, ?_, backed_of_returned h.backed hreturned⟩
  · rw [h.targets, Multiset.map_cons, Multiset.cons_add, Multiset.add_cons]
  · rw [hcounters, h.outstanding, Multiset.card_cons, UInt64.ofNat_add]
    exact UInt64.add_sub_cancel _ _

/-- A request that gives its ticket back. -/
theorem acknowledge (h : Books submitted delivered (request ::ₘ requests) counters governor)
    (hcounters : counters'.outstanding = counters.outstanding)
    (hreturned : governor.Returned now request.ticket governor') :
    Books submitted delivered (Ledger.acknowledged request ::ₘ requests) counters' governor' := by
  refine ⟨?_, ?_, ?_⟩
  · rw [h.targets, Multiset.map_cons, Multiset.map_cons]
    rfl
  · rw [hcounters, h.outstanding, Multiset.card_cons, Multiset.card_cons]
  · rw [tickets, Multiset.filterMap_cons_none _ _ rfl]
    exact backed_of_returned h.backed hreturned

/-- A pending request whose first acknowledgment comes gives its ticket back. -/
theorem markAcked {ledger after : Ledger} {carried : Multiset PendingRequest}
    (h : Books submitted delivered (ledger.requests + carried) counters governor)
    (hmem : request ∈ ledger.requests)
    (hafter : (request :: after.requests).Perm (Ledger.acknowledged request :: ledger.requests))
    (hcounters : counters'.outstanding = counters.outstanding)
    (hreturned : governor.Returned now request.ticket governor') :
    Books submitted delivered (after.requests + carried) counters' governor' := by
  obtain ⟨others, hothers⟩ := Multiset.exists_cons_of_mem (Multiset.mem_coe.mpr hmem)
  have hrequests : (after.requests : Multiset PendingRequest) =
      Ledger.acknowledged request ::ₘ others := by
    have heq := Multiset.coe_eq_coe.mpr hafter
    rw [← Multiset.cons_coe, ← Multiset.cons_coe, hothers, Multiset.cons_swap] at heq
    exact (Multiset.cons_inj_right request).mp heq
  rw [hothers, Multiset.cons_add] at h
  rw [hrequests, Multiset.cons_add]
  exact h.acknowledge hcounters hreturned

end Books

/-- The targets that a received frame hands a result to. -/
def Reception.delivered : Reception → List TargetId
  | .replied _ delivery => [delivery.target]
  | _ => []

namespace Station

open Clocked

/-- The pending requests, as a bag. -/
def pending (s : Station) : Multiset PendingRequest := s.ledger.requests

/-- The ledger is well formed, and the books are right of its requests and the carried ones. -/
structure Accounts (submitted delivered : Multiset TargetId) (carried : Multiset PendingRequest)
    (s : Station) : Prop where
  ledger : s.ledger.WellFormed
  books : Books submitted delivered (s.pending + carried) s.counters s.governor

namespace Accounts

variable {submitted delivered : Multiset TargetId} {carried : Multiset PendingRequest} {s : Station}
  {request : PendingRequest}

theorem start (settings : StationSettings) (spareCapacity : Nat) (seed : Option Int)
    (entropy : Entropy) (outside : OutsideStore) :
    (Station.start settings spareCapacity seed entropy outside).Accounts 0 0 0 := by
  have hcounters : (Station.start settings spareCapacity seed entropy outside).counters = {} := rfl
  have hpending : (Station.start settings spareCapacity seed entropy outside).pending = 0 := rfl
  refine ⟨Ledger.wellFormed_empty _ _, rfl, ?_, Governor.backs_fresh (by simp)⟩
  rw [hcounters, hpending]
  rfl

/-- The clock and the subscribers are no business of the accounts. -/
theorem surroundings (h : s.Accounts submitted delivered carried) (timeline : Timeline Task)
    (subscribers : Subscribers) :
    Station.Accounts submitted delivered carried { s with timeline, subscribers } :=
  ⟨h.ledger, h.books⟩

/-- A measurement of something else. -/
theorem wp_record {m : Measurement} {post : Unit → Station → Prop}
    (h : s.Accounts submitted delivered carried) (hm : Counters.concernsRequest m = false)
    (hpost : ∀ t : Station, t.Accounts submitted delivered carried → post () t) :
    wp (record m) post (fun _ => True) s := by
  refine Station.wp_record (fun recorder hrecorder => hpost _ ?_) (fun _ => trivial)
  refine ⟨h.ledger, h.books.targets, ?_, h.books.backed⟩
  change recorder.books.counters.outstanding = _
  rw [hrecorder, Counters.outstanding_of_other hm]
  exact h.books.outstanding

theorem wp_schedule {delay : Duration} {task : Task} {post : Unit → Station → Prop}
    (h : s.Accounts submitted delivered carried)
    (hpost : ∀ t : Station, t.Accounts submitted delivered carried → post () t) :
    wp (schedule delay task) post (fun _ => True) s :=
  Station.wp_schedule (fun timeline _ => hpost _ (h.surroundings timeline s.subscribers)) trivial

/-- The units of the ack guard are no business of the requests. -/
theorem wp_acquire {source : WorkSource} {post : Option Ticket → Station → Prop}
    (h : s.Accounts submitted delivered carried)
    (hpost : ∀ ticket (t : Station), t.Accounts submitted delivered carried → post ticket t) :
    wp (acquire .ack source) post (fun _ => True) s :=
  Station.wp_acquire
    (fun _ => hpost _ _ ⟨h.ledger, h.books.targets, h.books.outstanding,
      h.books.backed.acquire_of_ne (by simp) source s.reading⟩)
    trivial

/-- A completed request is carried by whoever completed it. -/
theorem wp_complete {serial : Serial} {post : Option PendingRequest → Station → Prop}
    (h : s.Accounts submitted delivered carried)
    (hnone : ∀ t : Station, t.Accounts submitted delivered carried → post none t)
    (hsome : ∀ request (t : Station),
      t.Accounts submitted delivered (request ::ₘ carried) → post (some request) t) :
    wp (complete serial) post (fun _ => True) s := by
  refine Station.wp_complete h.ledger (fun _ => hnone s h) (fun request _ _ ledger hout => ?_)
  refine hsome request _ ⟨hout.wellFormed, ?_⟩
  have hpending : s.pending = request ::ₘ (ledger.requests : Multiset PendingRequest) :=
    Multiset.coe_eq_coe.mpr hout.requests
  have hbooks := h.books
  rw [hpending, Multiset.cons_add, ← Multiset.add_cons] at hbooks
  exact hbooks

/-- A carried request that is settled is carried no longer, and its target gets a result. -/
theorem wp_settle {result : RequestResult} {outcome : Outcome} {post : Delivery → Station → Prop}
    (h : s.Accounts submitted delivered (request ::ₘ carried))
    (hpost : ∀ t : Station, t.Accounts submitted (request.target ::ₘ delivered) carried →
      post ⟨request.target, result⟩ t) :
    wp (settle request result outcome) post (fun _ => True) s := by
  refine Station.wp_settle (fun governor recorder hreturned hcounters => hpost _ ?_)
    (fun _ _ => trivial)
  have hbooks := h.books
  rw [Multiset.add_cons] at hbooks
  exact ⟨h.ledger, hbooks.settle hcounters hreturned⟩

/-- A drain leaves all requests in the hands of whoever drained. -/
theorem wp_drainAll {post : List PendingRequest → Station → Prop}
    (h : s.Accounts submitted delivered carried)
    (hpost : ∀ (drained : List PendingRequest) (t : Station),
      t.Accounts submitted delivered (drained + carried) → post drained t) :
    wp drainAll post (fun _ => True) s := by
  refine Station.wp_drainAll (fun drained ledger entropy recorder hdrained hempty hwf hcounters =>
    hpost drained _ ⟨hwf, ?_⟩) (fun _ _ _ => trivial)
  have hbooks := h.books
  rw [show s.pending = drained from Multiset.coe_eq_coe.mpr hdrained.symm] at hbooks
  have hnone : (ledger.requests : Multiset PendingRequest) = 0 := by rw [hempty]; rfl
  refine ⟨?_, ?_, ?_⟩
  · simpa only [pending, hnone, zero_add] using hbooks.targets
  · simpa only [pending, hnone, zero_add, counters, hcounters] using hbooks.outstanding
  · simpa only [pending, hnone, zero_add] using hbooks.backed

/-- A submitted request takes a unit of the request guard and enters the ledger. -/
theorem wp_submit (h : s.Accounts submitted delivered carried) (kind : RequestKind)
    (target : TargetId) (source : WorkSource) (post : Serial → Station → Prop)
    (hroom : s.ledger.size < Serial.space)
    (hpost : ∀ serial (t : Station),
      t.Accounts (target ::ₘ submitted) delivered carried → post serial t) :
    wp (do
      record (.submitted kind)
      let ticket ← acquire .request source
      enroll kind target source ticket) post (fun _ => True) s := by
  rw [wp_bind]
  refine Station.wp_record (fun recorder hrecorder => ?_) (fun _ => trivial)
  rw [wp_bind]
  refine Station.wp_acquire (fun timeline => ?_) trivial
  rw [wp_enroll]
  have hcounters : recorder.books.counters.outstanding = s.counters.outstanding + 1 := by
    rw [hrecorder, Counters.outstanding_submitted]
  exact hpost _ _ ⟨h.ledger.enroll hroom _,
    h.books.enroll h.ledger hcounters ⟨kind, target, source, _, s.clock timeline.now⟩ rfl⟩

/-- The timers of the guards keep accounts. -/
theorem wp_expire {guard : Guard} {sequence : Nat} {post : Unit → Station → Prop}
    (h : s.Accounts submitted delivered carried)
    (hpost : ∀ t : Station, t.Accounts submitted delivered carried → post () t) :
    wp (expire guard sequence) post (fun _ => True) s := by
  refine Station.wp_expire (fun cleared governor recorder hexpire hcounters =>
    hpost _ ⟨h.ledger, h.books.targets, hcounters.trans h.books.outstanding, ?_⟩)
    (fun _ _ => trivial)
  by_cases hguard : guard = .request
  · subst hguard
    exact h.books.backed.expire hexpire
  · exact h.books.backed.expire_of_ne hguard hexpire

/-- The deadline of a request keeps accounts. -/
theorem wp_arm {serial : Serial} {kind : RequestKind} {epoch : Epoch}
    {post : Bool → Station → Prop} (h : s.Accounts submitted delivered carried)
    (hpost : ∀ armed (t : Station), t.Accounts submitted delivered carried → post armed t) :
    wp (arm serial kind epoch) post (fun _ => True) s := by
  simp only [arm, wp_bind, wp_get]
  split
  · rw [wp_bind]
    exact h.wp_schedule fun t ht => hpost true t ht
  · exact hpost false s h

/-- A violation is no business of the requests. -/
theorem wp_violate {serial : Serial} {post : Reception → Station → Prop}
    (h : s.Accounts submitted delivered carried)
    (hpost : ∀ reception (t : Station),
      t.Accounts submitted (reception.delivered + delivered) carried → post reception t) :
    wp (violate serial) post (fun _ => True) s := by
  rw [violate, wp_bind]
  exact h.wp_record rfl fun t ht => hpost _ t (by simpa [Reception.delivered] using ht)

/-- The first acknowledgment of a request gives its ticket back. -/
theorem wp_receiveAck {serial : Serial} {post : Reception → Station → Prop}
    (h : s.Accounts submitted delivered carried)
    (hpost : ∀ reception (t : Station),
      t.Accounts submitted (reception.delivered + delivered) carried → post reception t) :
    wp (receiveAck serial) post (fun _ => True) s := by
  have hacked := h.ledger.acknowledged serial
  simp only [receiveAck, wp_bind, wp_get, wp_set]
  cases hmark : s.ledger.markAcked serial with
  | mk outcome ledger =>
      rw [hmark] at hacked
      cases hacked with
      | unknown hnone => exact wp_violate h hpost
      | duplicate hmem hsame hstate =>
          exact hpost _ s (by simpa [Reception.delivered] using h)
      | first hmem hsame hstate hwf hrequests =>
          rename_i request
          simp only [wp_bind]
          refine Station.wp_record (fun recorder hrecorder => ?_) (fun _ => trivial)
          have hcounters : recorder.books.counters.outstanding = s.counters.outstanding := by
            rw [hrecorder]
            exact Counters.outstanding_of_other rfl _
          cases hticket : request.ticket with
          | none =>
              have hreturned : s.governor.Returned s.reading request.ticket s.governor := by
                rw [hticket]
                rfl
              refine hpost _ _ ?_
              simp only [Reception.delivered, Multiset.coe_nil, zero_add]
              exact ⟨hwf, h.books.markAcked hmem hrequests hcounters hreturned⟩
          | some ticket =>
              simp only [wp_bind]
              refine Station.wp_release (fun good governor hrelease => hpost _ _ ?_)
                (fun _ => trivial)
              have hreturned : s.governor.Returned s.reading request.ticket governor := by
                rw [hticket]
                exact ⟨good, hrelease⟩
              simp only [Reception.delivered, Multiset.coe_nil, zero_add]
              exact ⟨hwf, h.books.markAcked hmem hrequests hcounters hreturned⟩

/-- A frame hands a result to at most one target. -/
theorem wp_receive {frame : Frame} {post : Reception → Station → Prop}
    (h : s.Accounts submitted delivered carried)
    (hpost : ∀ reception (t : Station),
      t.Accounts submitted (reception.delivered + delivered) carried → post reception t) :
    wp (receive frame) post (fun _ => True) s := by
  cases frame with
  | ack serial => exact wp_receiveAck h hpost
  | reply serial code payload ackRequired =>
      rw [receive, receiveReply, wp_bind]
      refine h.wp_complete (fun t ht => wp_violate ht hpost) (fun request t ht => ?_)
      rw [wp_bind]
      refine ht.wp_settle (fun t ht => hpost _ t ?_)
      simpa [Reception.delivered] using ht
  | indication kind payload ackRequired =>
      simp only [receive, receiveIndication, wp_bind, wp_get, wp_set]
      refine wp_record (h.surroundings s.timeline _) rfl (fun t ht => hpost _ t ?_)
      simpa [Reception.delivered] using ht

/-- A deadline that passes hands a result to at most one target. -/
theorem wp_overdue {serial : Serial} {sentIn current : Epoch}
    {post : Option Delivery → Station → Prop} (h : s.Accounts submitted delivered carried)
    (hnone : ∀ t : Station, t.Accounts submitted delivered carried → post none t)
    (hsome : ∀ delivery (t : Station),
      t.Accounts submitted (delivery.target ::ₘ delivered) carried → post (some delivery) t) :
    wp (overdue serial sentIn current) post (fun _ => True) s := by
  unfold overdue
  split
  · exact hnone s h
  · rw [wp_bind]
    refine h.wp_complete (fun t ht => hnone t ht) (fun request t ht => ?_)
    rw [wp_bind]
    exact ht.wp_settle fun t ht => hsome _ t ht

end Accounts

end Station

end ModemLink
