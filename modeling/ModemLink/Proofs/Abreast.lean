import ModemLink.Proofs.Lockstep
import ModemLink.Proofs.StationRules
import ModemLink.Proofs.UnitTimers

/-!
# Stations that differ in acknowledgments only

Two stations are alike if nothing tells them apart but what indications and local acknowledgments
leave behind: the subscribers and what they got, the ack guard and its timers, and the counters of
both.  They are abreast if their clocks show the same besides.

Any action of the station but the end of an ack timer does the same to both of two stations that are
abreast: it gives the same answer, or the same overflow cuts it short, and it leaves them abreast.
That rests on no request holding a unit of the ack guard.  An indication, a unit of the ack guard
and the end of its timer may come to one of the stations alone and do not show.

* `Ledger.AckFree` -- no pending request holds a unit of the ack guard;
* `Station.Alike`, `Station.Abreast` -- alike, and alike at the same reading of the clock;
* `Station.agree_receive`, `Station.agree_settle` and the others -- one lemma for each action;
* `Station.receiveIndication_aside`, `Station.acquire_ack_aside`, `Station.expire_ack_aside` -- what
  does not show.
-/

namespace ModemLink

/-! ## Requests -/

/-- The request holds no unit of the ack guard. -/
def PendingRequest.AckFree (request : PendingRequest) : Prop :=
  ∀ ticket, request.ticket = some ticket → ticket.guard ≠ .ack

namespace Ledger

/-- The ledger is well formed, and no request in it holds a unit of the ack guard. -/
structure AckFree (ledger : Ledger) : Prop where
  wellFormed : ledger.WellFormed
  units : ∀ request ∈ ledger.requests, request.AckFree

namespace AckFree

variable {ledger : Ledger}

theorem of_empty (hwf : ledger.WellFormed) (hempty : ledger.requests = []) : ledger.AckFree :=
  ⟨hwf, by simp [hempty]⟩

theorem enroll (h : ledger.AckFree) (hroom : ledger.size < Serial.space) {request : Enrollment}
    (hticket : ∀ ticket, request.ticket = some ticket → ticket.guard ≠ .ack) :
    (ledger.enroll request).2.AckFree := by
  refine ⟨h.wellFormed.enroll hroom request, fun pending hmem => ?_⟩
  rcases List.mem_cons.mp ((h.wellFormed.perm_requests_enroll request).mem_iff.mp hmem) with
    rfl | hold
  · exact hticket
  · exact h.units pending hold

theorem complete (h : ledger.AckFree) (serial : Serial) :
    (ledger.complete serial).2.AckFree ∧
      ∀ request, (ledger.complete serial).1 = some request → request.AckFree := by
  by_cases hall : ∀ request ∈ ledger.requests, request.serial ≠ serial
  · rw [h.wellFormed.complete_of_none hall]
    exact ⟨h, by simp⟩
  · push Not at hall
    obtain ⟨request, hmem, rfl⟩ := hall
    obtain ⟨after, heq, hcompleted⟩ := h.wellFormed.complete_of_mem hmem
    rw [heq]
    refine ⟨⟨hcompleted.wellFormed, fun other hother => ?_⟩, ?_⟩
    · exact h.units other (hcompleted.requests.mem_iff.mpr (List.mem_cons_of_mem _ hother))
    · rintro _ ⟨⟩
      exact h.units request hmem

theorem markAcked (h : ledger.AckFree) (serial : Serial) :
    (ledger.markAcked serial).2.AckFree ∧
      ∀ ticket, (ledger.markAcked serial).1 = .acked (some ticket) → ticket.guard ≠ .ack := by
  have hacked := h.wellFormed.acknowledged serial
  cases hmark : ledger.markAcked serial with
  | mk outcome after =>
      rw [hmark] at hacked
      cases hacked with
      | unknown _ => exact ⟨h, by simp⟩
      | duplicate _ _ _ => exact ⟨h, by simp⟩
      | @first request after hmem _ _ hwf hrequests =>
          refine ⟨⟨hwf, fun other hother => ?_⟩, fun ticket hticket => ?_⟩
          · rcases List.mem_cons.mp (hrequests.mem_iff.mp (List.mem_cons_of_mem _ hother)) with
              rfl | hold
            · rintro _ ⟨⟩
            · exact h.units other hold
          · exact h.units request hmem ticket (AckOutcome.acked.inj hticket)

theorem drain (h : ledger.AckFree) :
    ledger.drain.2.AckFree ∧ ∀ request ∈ ledger.drain.1, request.AckFree := by
  refine ⟨of_empty (wellFormed_snd_drain ledger) (requests_snd_drain ledger), ?_⟩
  intro request hmem
  exact h.units request ((perm_fst_drain ledger).mem_iff.mp hmem)

theorem reseed (h : ledger.AckFree) (entropy : Entropy) : (ledger.reseed entropy).2.1.AckFree :=
  ⟨h.wellFormed.reseed entropy, h.units⟩

end AckFree

end Ledger

/-! ## Stations -/

/-- The delivery that a reception leads to. -/
def Reception.delivery? : Reception → Option Delivery
  | .replied _ delivery => some delivery
  | _ => none

namespace Station

/-- Nothing but what indications and local acknowledgments leave behind tells two stations apart,
and the time on their timelines perhaps. -/
structure Alike (s t : Station) : Prop where
  settings : s.settings = t.settings
  ledger : s.ledger = t.ledger
  entropy : s.entropy = t.entropy
  governor : s.governor.Alike t.governor
  recorder : s.recorder.aside = t.recorder.aside
  timeline : s.timeline.Alike t.timeline
  clock : s.clock = t.clock
  ackFree : s.ledger.AckFree

/-- For two stations that are alike it is the same time. -/
structure Abreast (s t : Station) : Prop extends Alike s t where
  now : s.now = t.now

theorem Alike.symm {s t : Station} (h : s.Alike t) : t.Alike s :=
  ⟨h.settings.symm, h.ledger.symm, h.entropy.symm, h.governor.symm, h.recorder.symm,
    h.timeline.symm, h.clock.symm, h.ledger ▸ h.ackFree⟩

theorem Abreast.symm {s t : Station} (h : s.Abreast t) : t.Abreast s :=
  ⟨h.toAlike.symm, h.now.symm⟩

theorem Abreast.reading {s t : Station} (h : s.Abreast t) : s.reading = t.reading := by
  rw [Station.reading, Station.reading, h.clock, h.now]

/-- To set both clocks makes stations that are alike abreast. -/
theorem Alike.abreast {s t : Station} (h : s.Alike t) {timeline timeline' : Timeline Task}
    (htimeline : timeline.Alike timeline') (hnow : timeline.now = timeline'.now) :
    Abreast { s with timeline } { t with timeline := timeline' } :=
  ⟨{ h with timeline := htimeline }, hnow⟩

open Clocked

variable {s t : Station}

theorem agree_record (h : s.Abreast t) (m : Measurement) :
    Agree Abreast Eq (record m) (record m) s t :=
  (Recorder.agree_record m h.recorder).within fun _ _ hparts => { h with recorder := hparts }

/-- A measurement of an indication or of a local acknowledgment does not show. -/
theorem record_aside (h : s.Abreast t) {m : Measurement} (hm : m.isAside = true) :
    ∃ after, record m s = .ok () after ∧ after.Abreast t := by
  obtain ⟨recorder, hrecord, haside⟩ := Recorder.record_aside hm s.recorder
  refine ⟨{ s with recorder }, ?_, { h with recorder := haside.trans h.recorder }⟩
  simp only [record, within, hrecord]

theorem agree_schedule (h : s.Abreast t) (delay : Duration) {task task' : Task}
    (htask : task = task' ∨ task.isAckTimer = true ∧ task'.isAckTimer = true) :
    Agree Abreast Eq (schedule delay task) (schedule delay task') s t := by
  rcases h.timeline.schedule h.now delay htask with ⟨a, b, ha, hb, halike, hnow⟩ |
    ⟨overflow, ha, hb⟩
  · unfold Agree schedule
    simp only [ha, hb]
    exact ⟨trivial, h.toAlike.abreast halike hnow⟩
  · unfold Agree schedule
    simp only [ha, hb]
    exact ⟨trivial, h⟩

/-- What remains to be done when a unit has been granted is to start its timer. -/
theorem acquire_of_grant {guard : Guard} {source : WorkSource} {grant : Governor.Grant}
    {governor : Governor}
    (hgrant : s.governor.acquire guard source s.reading = (some grant, governor)) :
    acquire guard source s =
      (do
        schedule (s.settings.timeout guard) (.expiry guard grant.sequence)
        return some grant.ticket : Clocked Station (Option Ticket)) { s with governor } := by
  simp only [acquire, hgrant]
  split
  · rename_i after hrun
    exact (bind_of_ok hrun fun _ => pure (some grant.ticket)).symm
  · rename_i overflow after hrun
    exact (bind_of_error hrun _).symm

/-- A unit is taken from both guards, and its timer is started at both. -/
theorem agree_acquire (h : s.Abreast t) (source : WorkSource) :
    Agree Abreast (fun ticket ticket' => ticket = ticket' ∧
        ∀ issued, ticket = some issued → issued.guard ≠ .ack)
      (acquire .request source) (acquire .request source) s t := by
  obtain ⟨hgrant, hgovernor⟩ : (s.governor.acquire .request source s.reading).1 =
      (t.governor.acquire .request source s.reading).1 ∧
      (s.governor.acquire .request source s.reading).2.Alike
        (t.governor.acquire .request source s.reading).2 :=
    h.governor.acquire (by simp) source s.reading
  obtain ⟨grant, hsome, hticket⟩ : ∃ grant, (s.governor.acquire .request source s.reading).1 =
      some grant ∧ grant.ticket.guard ≠ .ack := ⟨_, rfl, by simp⟩
  have hs : s.governor.acquire .request source s.reading =
      (some grant, (s.governor.acquire .request source s.reading).2) := Prod.ext hsome rfl
  have ht : t.governor.acquire .request source t.reading =
      (some grant, (t.governor.acquire .request source s.reading).2) := by
    rw [← h.reading]
    exact Prod.ext (hgrant.symm.trans hsome) rfl
  have htaken : Abreast { s with governor := (s.governor.acquire .request source s.reading).2 }
      { t with governor := (t.governor.acquire .request source s.reading).2 } :=
    { h with governor := hgovernor }
  have htimeout : t.settings.timeout .request = s.settings.timeout .request := by rw [h.settings]
  refine agree_of_eq (acquire_of_grant hs) (acquire_of_grant ht) ?_
  rw [htimeout]
  refine (agree_schedule htaken _ (.inl rfl)).bind fun _ _ after after' _ hafter => ?_
  refine agree_pure ⟨rfl, ?_⟩ hafter
  rintro _ ⟨⟩
  exact hticket

/-- Of the ack guard the units may be different ones. -/
theorem agree_acquire_ack (h : s.Abreast t) (source : WorkSource) :
    Agree Abreast (fun _ _ => True) (acquire .ack source) (acquire .ack source) s t := by
  have hgovernor := (h.governor.acquire_ack source s.reading).symm.acquire_ack source t.reading
  have htaken : Abreast { s with governor := (s.governor.acquire .ack source s.reading).2 }
      { t with governor := (t.governor.acquire .ack source t.reading).2 } :=
    { h with governor := hgovernor.symm }
  have htimeout : t.settings.timeout .ack = s.settings.timeout .ack := by rw [h.settings]
  refine agree_of_eq (acquire_of_grant rfl) (acquire_of_grant rfl) ?_
  rw [htimeout]
  refine (agree_schedule htaken _ (.inr ?_)).bind fun _ _ after after' _ hafter => ?_
  · exact ⟨rfl, rfl⟩
  · exact agree_pure trivial hafter

/-- A unit of the ack guard that one of the stations takes does not show. -/
theorem acquire_ack_aside (h : s.Abreast t) {source : WorkSource} {ticket : Option Ticket}
    {after : Station} (hrun : acquire .ack source s = .ok ticket after) : after.Abreast t := by
  rcases acquire_eq_ok hrun with ⟨hnone, -, -⟩ | ⟨state, timeline, -, -, hschedule, rfl⟩
  · cases hnone
  · have hnow : timeline.now = s.timeline.now := by
      obtain ⟨deadline, -, rfl⟩ := Timeline.schedule_eq_ok hschedule
      rfl
    exact { h with
      governor := h.governor.update_ack _ fun _ hcall => GuardState.guard_of_mem_acquire hcall
      timeline := h.timeline.scheduleAck hschedule rfl
      now := hnow.trans h.now }

/-- A ticket of another guard is given back to both. -/
theorem agree_release (h : s.Abreast t) {ticket : Ticket} (hguard : ticket.guard ≠ .ack) :
    Agree Abreast Eq (release ticket) (release ticket) s t := by
  have hrelease : ∀ s, release ticket s =
      within Station.governor (fun governor s => { s with governor })
        (Governor.release ticket s.reading) s := fun _ => rfl
  refine agree_of_eq (hrelease s) (hrelease t) ?_
  rw [← h.reading]
  exact (h.governor.release hguard).within fun _ _ hparts => { h with governor := hparts }

/-- A request is entered into both ledgers under the same serial. -/
theorem agree_enroll (h : s.Abreast t) (kind : RequestKind) (target : TargetId)
    (source : WorkSource) {ticket : Option Ticket} (hroom : s.ledger.size < Serial.space)
    (hticket : ∀ issued, ticket = some issued → issued.guard ≠ .ack) :
    Agree Abreast Eq (enroll kind target source ticket) (enroll kind target source ticket) s t := by
  have henroll : ∀ s, enroll kind target source ticket s =
      .ok (s.ledger.enroll ⟨kind, target, source, ticket, s.reading⟩).1
        { s with ledger := (s.ledger.enroll ⟨kind, target, source, ticket, s.reading⟩).2 } :=
    fun _ => rfl
  refine agree_of_ok (henroll s) (henroll t) ?_ ?_
  · rw [h.ledger, h.reading]
  · refine { h with ledger := ?_, ackFree := h.ackFree.enroll hroom hticket }
    dsimp only
    rw [h.ledger, h.reading]

/-- The request of a serial is taken out of both ledgers. -/
theorem agree_complete (h : s.Abreast t) (serial : Serial) :
    Agree Abreast (fun request request' => request = request' ∧
        ∀ completed, request = some completed → completed.AckFree)
      (complete serial) (complete serial) s t := by
  obtain ⟨hledger, hrequest⟩ := h.ackFree.complete serial
  refine agree_of_ok rfl rfl ⟨?_, hrequest⟩ { h with ledger := ?_, ackFree := hledger }
  · rw [h.ledger]
  · rw [h.ledger]

/-- A request is settled at both. -/
theorem agree_settle (h : s.Abreast t) {request : PendingRequest} (hfree : request.AckFree)
    (result : RequestResult) (outcome : Outcome) :
    Agree Abreast Eq (settle request result outcome) (settle request result outcome) s t := by
  have hrecord : ∀ {s t : Station}, s.Abreast t → Agree Abreast Eq
      (do
        let latency := request.age (← get).reading
        record (.completed request.kind outcome latency)
        return ⟨request.target, result⟩ : Clocked Station Delivery)
      (do
        let latency := request.age (← get).reading
        record (.completed request.kind outcome latency)
        return ⟨request.target, result⟩) s t := by
    intro s t h
    rw [agree_get_bind, h.reading]
    exact (agree_record h _).bind fun _ _ _ _ _ hafter => agree_pure rfl hafter
  unfold settle
  cases hticket : request.ticket with
  | none => exact hrecord h
  | some ticket =>
      exact (agree_release h (hfree ticket hticket)).bind fun _ _ _ _ _ hafter => hrecord hafter

theorem agree_violate (h : s.Abreast t) (serial : Serial) :
    Agree Abreast Eq (violate serial) (violate serial) s t :=
  (agree_record h _).bind fun _ _ _ _ _ hafter => agree_pure rfl hafter

/-- A unit of the request of an early acknowledgment is given back at both. -/
theorem agree_receiveAck (h : s.Abreast t) (serial : Serial) :
    Agree Abreast Eq (receiveAck serial) (receiveAck serial) s t := by
  obtain ⟨hledger, hticket⟩ := h.ackFree.markAcked serial
  have hmarked : Abreast { s with ledger := (s.ledger.markAcked serial).2 }
      { t with ledger := (s.ledger.markAcked serial).2 } :=
    { h with ledger := rfl, ackFree := hledger }
  unfold receiveAck
  rw [agree_get_bind, ← h.ledger]
  cases hmark : s.ledger.markAcked serial with
  | mk outcome ledger =>
      rw [hmark] at hmarked hticket
      rw [agree_set_bind]
      cases outcome with
      | acked ticket =>
          refine (agree_record hmarked _).bind fun _ _ after after' _ hafter => ?_
          cases ticket with
          | none => exact agree_pure rfl hafter
          | some ticket =>
              refine (agree_release hafter (hticket ticket rfl)).bind fun good good' _ _ hgood h =>
                  ?_
              exact agree_pure (congrArg (Reception.acked serial) hgood) h
      | duplicate => exact agree_pure rfl hmarked
      | unknown => exact agree_violate hmarked serial

/-- A reply settles its request at both. -/
theorem agree_receiveReply (h : s.Abreast t) (serial : Serial) (code : Int) (payload : Payload) :
    Agree Abreast Eq (receiveReply serial code payload) (receiveReply serial code payload) s t := by
  refine (agree_complete h serial).bind fun request request' after after' hrequest hafter => ?_
  obtain ⟨rfl, hfree⟩ := hrequest
  cases request with
  | none => exact agree_violate hafter serial
  | some request =>
      refine (agree_settle hafter (hfree request rfl) _ _).bind fun delivery _ _ _ hsame h => ?_
      exact agree_pure (congrArg (Reception.replied serial) hsame) h

/-- An indication does not show, nor how many subscribers it reached. -/
theorem receiveIndication_aside (h : s.Abreast t) (kind : IndicationKind) (payload : Payload) :
    ∃ reached after, receiveIndication kind payload s = .ok (.dispatched kind reached) after ∧
      after.Abreast t := by
  have hreceive : receiveIndication kind payload s =
      (do
        record (.indication kind (s.subscribers.dispatch ⟨kind, payload⟩).1)
        return .dispatched kind (s.subscribers.dispatch ⟨kind, payload⟩).1 :
          Clocked Station Reception)
      { s with subscribers := (s.subscribers.dispatch ⟨kind, payload⟩).2 } := rfl
  have hsubscribers : Abreast
      { s with subscribers := (s.subscribers.dispatch ⟨kind, payload⟩).2 } t := { h with }
  obtain ⟨after, hrecord, hafter⟩ := record_aside hsubscribers
    (m := .indication kind (s.subscribers.dispatch ⟨kind, payload⟩).1) rfl
  refine ⟨(s.subscribers.dispatch ⟨kind, payload⟩).1, after, ?_, hafter⟩
  rw [hreceive, bind_of_ok hrecord]
  rfl

/-- A frame leads to the same delivery at both. -/
theorem agree_receive (h : s.Abreast t) (frame : Frame) :
    Agree Abreast (fun reception reception' => reception.delivery? = reception'.delivery?)
      (receive frame) (receive frame) s t := by
  cases frame with
  | ack serial => exact (agree_receiveAck h serial).mono fun _ _ hsame => congrArg _ hsame
  | reply serial code payload ackRequired =>
      exact (agree_receiveReply h serial code payload).mono fun _ _ hsame => congrArg _ hsame
  | indication kind payload ackRequired =>
      obtain ⟨reached, after, hrun, hafter⟩ := receiveIndication_aside h kind payload
      obtain ⟨reached', after', hrun', hafter'⟩ :=
        receiveIndication_aside hafter.symm kind payload
      exact agree_of_ok hrun hrun' rfl hafter'.symm

theorem agree_arm (h : s.Abreast t) (serial : Serial) (kind : RequestKind) (epoch : Epoch) :
    Agree Abreast Eq (arm serial kind epoch) (arm serial kind epoch) s t := by
  have hdeadline : s.hasDeadline kind = t.hasDeadline kind := by
    unfold hasDeadline
    rw [h.settings]
  unfold arm
  rw [agree_get_bind, hdeadline, h.settings]
  split
  · exact (agree_schedule h _ (.inl rfl)).bind fun _ _ _ _ _ hafter => agree_pure rfl hafter
  · exact agree_pure rfl h

/-- A deadline passes at both. -/
theorem agree_overdue (h : s.Abreast t) (serial : Serial) (sentIn current : Epoch) :
    Agree Abreast Eq (overdue serial sentIn current) (overdue serial sentIn current) s t := by
  unfold overdue
  split
  · exact agree_pure rfl h
  · refine (agree_complete h serial).bind fun request request' after after' hrequest hafter => ?_
    obtain ⟨rfl, hfree⟩ := hrequest
    cases request with
    | none => exact agree_pure rfl hafter
    | some request =>
        refine (agree_settle hafter (hfree request rfl) _ _).bind fun delivery _ _ _ hsame h => ?_
        exact agree_pure (congrArg some hsame) h

/-- The timer of another guard runs out at both. -/
theorem agree_expire (h : s.Abreast t) {guard : Guard} (hguard : guard ≠ .ack) (sequence : Nat) :
    Agree Abreast Eq (expire guard sequence) (expire guard sequence) s t := by
  unfold expire
  rw [agree_get_bind, ← h.reading]
  have hexpire : Agree Abreast Eq
      (within Station.governor (fun governor s => { s with governor })
        (Governor.expire guard sequence s.reading))
      (within Station.governor (fun governor s => { s with governor })
        (Governor.expire guard sequence s.reading)) s t :=
    (h.governor.expire hguard sequence).within fun _ _ hparts => { h with governor := hparts }
  refine hexpire.bind fun cleared cleared' after after' hsame hafter => ?_
  obtain rfl := hsame
  split
  · exact agree_record hafter _
  · exact agree_pure rfl hafter

/-- The timer of the ack guard that runs out at one of the stations does not show. -/
theorem expire_ack_aside (h : s.Alike t) {sequence : Nat} {after : Station}
    (hrun : expire .ack sequence s = .ok () after) :
    after.Alike t ∧ after.timeline = s.timeline := by
  have hexpire : expire .ack sequence s =
      match Governor.expire .ack sequence s.reading s.governor with
      | .ok _ governor => .ok () { s with governor }
      | .error overflow governor => .error overflow { s with governor } := by
    unfold expire
    rw [get_bind]
    cases hgovernor : Governor.expire .ack sequence s.reading s.governor with
    | ok cleared governor =>
        have hwithin : within Station.governor (fun governor s => { s with governor })
            (Governor.expire .ack sequence s.reading) s = .ok cleared { s with governor } := by
          simp only [within, hgovernor]
        rw [bind_of_ok hwithin]
        cases cleared <;> rfl
    | error overflow governor =>
        have hwithin : within Station.governor (fun governor s => { s with governor })
            (Governor.expire .ack sequence s.reading) s = .error overflow { s with governor } := by
          simp only [within, hgovernor]
        rw [bind_of_error hwithin]
  rw [hexpire] at hrun
  split at hrun
  · rename_i cleared governor hgovernor
    cases hrun
    exact ⟨{ h with governor := h.governor.expire_ack hgovernor }, rfl⟩
  · cases hrun

/-- Both ledgers are drained in the same order. -/
theorem agree_drainAll (h : s.Abreast t) :
    Agree Abreast (fun drained drained' => drained = drained' ∧
      ∀ request ∈ drained, request.AckFree) drainAll drainAll s t := by
  have hdrain : ∀ s, drainAll s =
      (do
        record (.death (s.ledger.reseed s.entropy).2.1.drain.1.length)
        return (s.ledger.reseed s.entropy).2.1.drain.1 : Clocked Station (List PendingRequest))
      { s with
        ledger := (s.ledger.reseed s.entropy).2.1.drain.2
        entropy := (s.ledger.reseed s.entropy).2.2 } := fun _ => rfl
  obtain ⟨hledger, hdrained⟩ := (h.ackFree.reseed s.entropy).drain
  refine agree_of_eq (hdrain s) (hdrain t) ?_
  rw [← h.ledger, ← h.entropy]
  have hafter : Abreast
      { s with
        ledger := (s.ledger.reseed s.entropy).2.1.drain.2
        entropy := (s.ledger.reseed s.entropy).2.2 }
      { t with
        ledger := (s.ledger.reseed s.entropy).2.1.drain.2
        entropy := (s.ledger.reseed s.entropy).2.2 } :=
    { h with ledger := rfl, entropy := rfl, ackFree := hledger }
  exact (agree_record hafter _).bind fun _ _ _ _ _ h => agree_pure ⟨rfl, hdrained⟩ h

end Station

end ModemLink
