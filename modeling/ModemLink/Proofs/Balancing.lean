import ModemLink.Proofs.Custody
import ModemLink.Proofs.Totals
import ModemLink.Proofs.UnitTimers

/-!
# Keeping the counters in balance

Requests, frames and binds are counted in different places, some before an outgoing call and some
after it.  What they have in common is that each counter follows something that can be seen from
outside or read off the books: a submission, a result that is handed out, a stray frame, the answer
to a bind, a forced clearing.

`Station.Balances` says that the counters of a station show totals which agree with all that was
seen, while some requests are in the hands of a death that has counted them already and has still to
fail them.

* `Governor.expirations_release`, `Governor.expirations_expire` -- only a clearing is counted as
  one;
* `Station.Balances.wp_settle`, `wp_drainAll`, `wp_receive` and the others -- one rule for each
  action of a station.
-/

namespace ModemLink

/-! ## What is seen -/

/-- Everything that the counters are compared with: the number of submissions, the kind and the time
of each request whose result was handed out, the latest in front, the frames for serials that were
not pending, and the answered binds. -/
structure Seen where
  submitted : Nat
  times : List (RequestKind × Duration)
  strays : Nat
  binds : Nat

/-- What totals have to do with what was seen. -/
def Totals.seen (totals : Totals) : Seen :=
  ⟨totals.submitted, totals.times, totals.violations, totals.bound + totals.refused⟩

/-- The kind and the time of a request whose result is handed out now, as far as it is known when it
was submitted. -/
def timeTaken (known : TargetId → Option (RequestKind × Duration)) (now : Duration)
    (target : TargetId) : Option (RequestKind × Duration) :=
  (known target).map fun (kind, since) => (kind, now.elapsed since)

/-- Whether a frame is for a serial that is not pending. -/
def Ledger.misses (ledger : Ledger) : Frame → Bool
  | .ack serial => ledger.requests.all (·.serial ≠ serial)
  | .reply serial _ _ _ => ledger.requests.all (·.serial ≠ serial)
  | .indication _ _ _ => false

namespace Governor

variable {governor after : Governor} {guard : Guard} {ticket : Ticket} {now : Duration}

/-- Only a clearing is counted as one. -/
theorem expirations_acquire (governor : Governor) (guard : Guard) (source : WorkSource)
    (now : Duration) :
    (governor.acquire guard source now).2.request.expirations =
      governor.request.expirations := by
  cases guard <;> rfl

theorem expirations_release {good : Bool} (h : release ticket now governor = .ok good after) :
    after.request.expirations = governor.request.expirations := by
  unfold release at h
  dsimp only at h
  split at h
  · cases h
    rfl
  rename_i state hstate
  have hupdate (changed : GuardState) (calls : List PowerCall)
      (hsame : changed.expirations = state.expirations) :
      (governor.update ticket.guard changed calls).request.expirations =
        governor.request.expirations := by
    cases hguard : ticket.guard <;> rw [hguard] at hstate <;> cases hstate
    · exact hsame
    · rfl
  split at h
  · cases h
    rfl
  split at h
  · cases h
    rfl
  split at h
  · split at h
    · rename_i hclose
      cases h
      obtain ⟨heldTotal, rfl, -⟩ := GuardState.close_of_none hclose
      exact hupdate _ _ rfl
    · cases h
  · cases h
    exact hupdate _ _ rfl

theorem expirations_returned {ticket : Option Ticket} (h : governor.Returned now ticket after) :
    after.request.expirations = governor.request.expirations := by
  cases ticket with
  | none => rw [show after = governor from h]
  | some ticket =>
      obtain ⟨good, hrelease⟩ := h
      exact expirations_release hrelease

/-- A clearing of the request guard is counted, and nothing else is. -/
theorem expirations_expire {sequence : Nat} {cleared : Bool}
    (h : expire guard sequence now governor = .ok cleared after) :
    after.request.expirations =
      governor.request.expirations + (cleared && guard == .request).toNat := by
  unfold expire at h
  split at h
  · cases h
    rfl
  rename_i state hstate
  split at h
  · cases h
    rfl
  split at h
  · cases h
    rfl
  dsimp only at h
  split at h
  · rename_i hclose
    cases h
    obtain ⟨heldTotal, rfl, -⟩ := GuardState.close_of_none hclose
    cases guard <;> cases hstate <;> rfl
  · cases h

end Governor

namespace Station

open Clocked

/-- The books show the totals.  The clearings of the request guard are counted, each death counted
the requests that it has failed and those that it carries, and of the requests that are not
acknowledged yet none has been counted as acknowledged. -/
structure Adds (carried : List PendingRequest) (totals : Totals) (s : Station) : Prop where
  shown : s.recorder.books.Shows totals
  timeouts : totals.timeouts = s.governor.request.expirations
  drained : totals.drained ≤ totals.ended .unavailable + carried.length
  acks : totals.acks + s.ledger.requests.countP (·.state = .sent) ≤ totals.submitted

/-- The counters of a station are in balance with what was seen.  Of each request that is pending or
carried it is known what it is and when it was submitted. -/
structure Balances (known : TargetId → Option (RequestKind × Duration)) (now : Duration)
    (carried : List PendingRequest) (seen : Seen) (s : Station) : Prop where
  ledger : s.ledger.WellFormed
  clock : s.now = now
  plain : s.clock = id
  known : ∀ request ∈ s.ledger.requests ++ carried,
    known request.target = some (request.kind, request.submittedAt)
  totals : ∃ totals : Totals, totals.seen = seen ∧ s.Adds carried totals

/-- A measurement is entered. -/
theorem wp_record_shows {m : Measurement} {totals : Totals} {post : Unit → Station → Prop}
    {s : Station} (h : s.recorder.books.Shows totals)
    (hpost : ∀ recorder, recorder.books.Shows (totals.enter m) → post () { s with recorder }) :
    wp (record m) post (fun _ => True) s := by
  rw [record, wp_within, Recorder.record, Recorder.recordBoth, wp_bind, wp_within]
  refine (h.record m).mono (fun _ metrics hmetrics => ?_) fun _ _ => trivial
  rw [wp_within]
  exact wp_intro (fun _ outside _ => hpost ⟨metrics, outside⟩ hmetrics) fun _ _ _ => trivial

/-- A unit is taken, and its timer set; neither a clearing nor the clock has to do with that. -/
theorem wp_acquire_uncounted {guard : Guard} {source : WorkSource} {s : Station}
    {post : Option Ticket → Station → Prop}
    (hpost : ∀ ticket governor timeline,
      governor.request.expirations = s.governor.request.expirations → timeline.now = s.now →
      post ticket { s with governor, timeline }) :
    wp (acquire guard source) post (fun _ => True) s := by
  refine wp_intro (fun ticket t hrun => ?_) fun _ _ _ => trivial
  rcases acquire_eq_ok hrun with ⟨-, -, rfl⟩ | ⟨state, timeline, hstate, -, hschedule, rfl⟩
  · exact hpost ticket t.governor t.timeline rfl rfl
  · have hexpirations := Governor.expirations_acquire s.governor guard source s.reading
    rw [Governor.acquire_of_state hstate] at hexpirations
    obtain ⟨deadline, -, rfl⟩ := Timeline.schedule_eq_ok hschedule
    exact hpost ticket _ _ hexpirations rfl

namespace Balances

variable {known : TargetId → Option (RequestKind × Duration)} {now : Duration}
  {carried : List PendingRequest} {seen : Seen} {s : Station} {request : PendingRequest}

theorem start (settings : StationSettings) (spareCapacity : Nat) (seed : Option Int)
    (entropy : Entropy) (outside : OutsideStore) :
    (Station.start settings spareCapacity seed entropy outside).Balances known .zero []
      ⟨0, [], 0, 0⟩ := by
  refine ⟨Ledger.wellFormed_empty _ _, rfl, rfl, fun request hmem => ?_, {}, rfl, ?_⟩
  · cases hmem
  · exact ⟨Metrics.shows_fresh, rfl, Nat.le_refl 0, Nat.le_refl 0⟩

/-- The reading of the clock is the time on the timeline. -/
theorem reading_eq (h : s.Balances known now carried seen) : s.reading = now :=
  (reading_eq_now h.plain).trans h.clock

/-- Time goes on, and timers and subscribers come and go. -/
theorem surroundings (h : s.Balances known now carried seen) (timeline : Timeline Task)
    (subscribers : Subscribers) :
    Balances known timeline.now carried seen { s with timeline, subscribers } := by
  obtain ⟨totals, hseen, hadds⟩ := h.totals
  exact ⟨h.ledger, rfl, h.plain, h.known, totals, hseen, hadds.shown, hadds.timeouts,
    hadds.drained, hadds.acks⟩

/-- What is known of more requests is known of these. -/
theorem more {more : TargetId → Option (RequestKind × Duration)}
    (h : s.Balances known now carried seen)
    (hmore : ∀ target entry, known target = some entry → more target = some entry) :
    s.Balances more now carried seen :=
  ⟨h.ledger, h.clock, h.plain, fun request hmem => hmore _ _ (h.known request hmem), h.totals⟩

theorem wp_schedule {delay : Duration} {task : Task} {post : Unit → Station → Prop}
    (h : s.Balances known now carried seen)
    (hpost : ∀ t : Station, t.Balances known now carried seen → post () t) :
    wp (schedule delay task) post (fun _ => True) s := by
  refine Station.wp_schedule (fun timeline hschedule => hpost _ ?_) trivial
  have hsame := h.surroundings timeline s.subscribers
  obtain ⟨deadline, -, rfl⟩ := Timeline.schedule_eq_ok hschedule
  rw [← h.clock]
  exact hsame

/-- Nothing is counted when a unit is taken. -/
theorem wp_acquire {guard : Guard} {source : WorkSource} {post : Option Ticket → Station → Prop}
    (h : s.Balances known now carried seen)
    (hpost : ∀ ticket (t : Station), t.Balances known now carried seen → post ticket t) :
    wp (acquire guard source) post (fun _ => True) s := by
  refine wp_acquire_uncounted fun ticket governor timeline hexpirations hnow => hpost ticket _ ?_
  obtain ⟨totals, hseen, hadds⟩ := h.totals
  exact ⟨h.ledger, hnow.trans h.clock, h.plain, h.known, totals, hseen, hadds.shown,
    hadds.timeouts.trans hexpirations.symm, hadds.drained, hadds.acks⟩

/-- A measurement of nothing that the other books know of. -/
theorem wp_record {m : Measurement} {post : Unit → Station → Prop}
    (h : s.Balances known now carried seen) (strays bound refused : Nat)
    (hm : ∀ totals : Totals, totals.enter m =
      { totals with
        violations := totals.violations + strays
        bound := totals.bound + bound
        refused := totals.refused + refused })
    (hpost : ∀ t : Station,
      t.Balances known now carried
        { seen with strays := seen.strays + strays, binds := seen.binds + (bound + refused) } →
      post () t) :
    wp (record m) post (fun _ => True) s := by
  obtain ⟨totals, rfl, hadds⟩ := h.totals
  refine wp_record_shows hadds.shown fun recorder hrecorder => hpost _ ?_
  rw [hm] at hrecorder
  have hbinds := Nat.add_add_add_comm totals.bound bound totals.refused refused
  exact ⟨h.ledger, h.clock, h.plain, h.known, _, congrArg (Seen.mk _ _ _) hbinds, hrecorder,
      hadds.timeouts,
    hadds.drained, hadds.acks⟩

/-- A request that is taken out of the ledger is known. -/
theorem wp_complete {serial : Serial} {post : Option PendingRequest → Station → Prop}
    (h : s.Balances known now carried seen)
    (hnone : (∀ request ∈ s.ledger.requests, request.serial ≠ serial) → post none s)
    (hsome : ∀ request ∈ s.ledger.requests, request.serial = serial → ∀ t : Station,
      known request.target = some (request.kind, request.submittedAt) →
      t.Balances known now carried seen → post (some request) t) :
    wp (complete serial) post (fun _ => True) s := by
  refine Station.wp_complete h.ledger hnone fun request hmem hserial ledger hout => ?_
  have hold : ∀ other ∈ ledger.requests, other ∈ s.ledger.requests := fun other hother =>
    hout.requests.mem_iff.mpr (List.mem_cons_of_mem _ hother)
  refine hsome request hmem hserial _ (h.known request (List.mem_append_left _ hmem)) ?_
  obtain ⟨totals, hseen, hadds⟩ := h.totals
  refine ⟨hout.wellFormed, h.clock, h.plain, fun other hother => h.known other ?_, totals, hseen,
    hadds.shown, hadds.timeouts, hadds.drained, ?_⟩
  · rcases List.mem_append.mp hother with hother | hother
    · exact List.mem_append_left _ (hold other hother)
    · exact List.mem_append_right _ hother
  · have hacks := hadds.acks
    rw [hout.requests.countP_eq, List.countP_cons] at hacks
    change totals.acks + ledger.requests.countP _ ≤ totals.submitted
    omega

/-- A request that is settled has taken its time.  A death that carries it has it off its hands, if
it ends as unavailable. -/
theorem wp_settle {rest : List PendingRequest} {result : RequestResult} {outcome : Outcome}
    {post : Delivery → Station → Prop} (h : s.Balances known now carried seen)
    (hknown : known request.target = some (request.kind, request.submittedAt))
    (hrest : carried = rest ∨ carried = request :: rest ∧ outcome = .unavailable)
    (hpost : ∀ t : Station,
      t.Balances known now rest
        { seen with times := [request.target].filterMap (timeTaken known now) ++ seen.times } →
      post ⟨request.target, result⟩ t) :
    wp (settle request result outcome) post (fun _ => True) s := by
  obtain ⟨totals, rfl, hadds⟩ := h.totals
  have htime : [request.target].filterMap (timeTaken known now) =
      [(request.kind, request.age now)] := by
    rw [List.filterMap_cons, timeTaken, hknown]
    rfl
  have hsub : ∀ other ∈ rest, other ∈ carried := by
    intro other hother
    rcases hrest with rfl | ⟨rfl, -⟩
    · exact hother
    · exact List.mem_cons_of_mem _ hother
  have hended : totals.drained ≤
      (totals.enter (.completed request.kind outcome (request.age now))).ended .unavailable +
        rest.length := by
    have hdrained := hadds.drained
    simp only [Totals.ended, Totals.enter, List.countP_cons]
    rcases hrest with rfl | ⟨rfl, rfl⟩
    · rw [Totals.ended] at hdrained
      omega
    · rw [Totals.ended, List.length_cons] at hdrained
      simp only [decide_true, if_true]
      omega
  rw [htime] at hpost
  have hrecord : ∀ governor, s.governor.Returned s.reading request.ticket governor →
      wp (record (.completed request.kind outcome (request.age s.reading)))
        (fun _ t => post ⟨request.target, result⟩ t) (fun _ => True) { s with governor } := by
    intro governor hreturned
    refine wp_record_shows (s := { s with governor }) hadds.shown fun recorder hrecorder => ?_
    rw [h.reading_eq] at hrecorder
    refine hpost _ ⟨h.ledger, h.clock, h.plain, fun other hother => h.known other ?_, _, rfl,
        hrecorder, ?_,
      hended, hadds.acks⟩
    · rcases List.mem_append.mp hother with hother | hother
      · exact List.mem_append_left _ hother
      · exact List.mem_append_right _ (hsub other hother)
    · exact hadds.timeouts.trans (Governor.expirations_returned hreturned).symm
  unfold settle
  cases hticket : request.ticket with
  | none =>
      simp only [wp_bind, wp_get]
      exact hrecord s.governor (by rw [hticket]; rfl)
  | some ticket =>
      simp only [wp_bind]
      refine wp_release (fun good governor hrelease => ?_) fun _ => trivial
      simp only [wp_get]
      exact hrecord governor (by rw [hticket]; exact ⟨good, hrelease⟩)

/-- A death carries the requests that it has taken out and counted. -/
theorem wp_drainAll {post : List PendingRequest → Station → Prop}
    (h : s.Balances known now carried seen)
    (hpost : ∀ (drained : List PendingRequest) (t : Station),
      t.Balances known now (drained ++ carried) seen → post drained t) :
    wp drainAll post (fun _ => True) s := by
  obtain ⟨totals, rfl, hadds⟩ := h.totals
  simp only [drainAll, wp_bind, wp_get, wp_set]
  refine wp_record_shows hadds.shown fun recorder hrecorder => ?_
  have hperm : (s.ledger.reseed s.entropy).2.1.drain.1.Perm s.ledger.requests :=
    Ledger.perm_fst_drain _
  have hempty : (s.ledger.reseed s.entropy).2.1.drain.2.requests = [] :=
    Ledger.requests_snd_drain _
  refine hpost _ _ ⟨Ledger.wellFormed_snd_drain _, h.clock, h.plain, fun request hmem =>
      h.known request ?_,
    totals.enter (.death _), rfl, hrecorder, hadds.timeouts, ?_, ?_⟩
  · rw [hempty, List.nil_append] at hmem
    rcases List.mem_append.mp hmem with hmem | hmem
    · exact List.mem_append_left _ (hperm.mem_iff.mp hmem)
    · exact List.mem_append_right _ hmem
  · have hdrained := hadds.drained
    rw [List.length_append]
    change totals.drained + _ ≤ totals.ended .unavailable + _
    omega
  · rw [hempty]
    have hacks := hadds.acks
    change totals.acks + 0 ≤ totals.submitted
    omega

/-- A submitted request is counted and known. -/
theorem wp_submit (h : s.Balances known now carried seen) (kind : RequestKind) (target : TargetId)
    (source : WorkSource) (post : Serial → Station → Prop) (hroom : s.ledger.size < Serial.space)
    (hknown : known target = some (kind, now))
    (hpost : ∀ serial (t : Station),
      t.Balances known now carried { seen with submitted := seen.submitted + 1 } → post serial t) :
    wp (do
      record (.submitted kind)
      let ticket ← acquire .request source
      enroll kind target source ticket) post (fun _ => True) s := by
  obtain ⟨totals, rfl, hadds⟩ := h.totals
  rw [wp_bind]
  refine wp_record_shows hadds.shown fun recorder hrecorder => ?_
  rw [wp_bind]
  refine wp_acquire_uncounted fun ticket governor timeline hexpirations hnow => ?_
  rw [wp_enroll]
  have henrolled := h.ledger.perm_requests_enroll ⟨kind, target, source, ticket,
      s.clock timeline.now⟩
  refine hpost _ _ ⟨h.ledger.enroll hroom _, hnow.trans h.clock, h.plain, fun request hmem => ?_, _,
      rfl,
    hrecorder, hadds.timeouts.trans hexpirations.symm, hadds.drained, ?_⟩
  · rcases List.mem_append.mp hmem with hmem | hmem
    · rcases List.mem_cons.mp (henrolled.mem_iff.mp hmem) with rfl | hmem
      · have htime : s.clock timeline.now = now := by
          rw [h.plain]
          exact hnow.trans h.clock
        exact hknown.trans (congrArg (fun time => some (kind, time)) htime.symm)
      · exact h.known request (List.mem_append_left _ hmem)
    · exact h.known request (List.mem_append_right _ hmem)
  · have hcount := henrolled.countP_eq fun request => decide (request.state = .sent)
    rw [List.countP_cons_of_pos rfl] at hcount
    exact (congrArg (totals.acks + ·) hcount).le.trans (Nat.succ_le_succ hadds.acks)

/-- The timers of the guards. -/
theorem wp_expire {guard : Guard} {sequence : Nat} {post : Unit → Station → Prop}
    (h : s.Balances known now carried seen)
    (hpost : ∀ t : Station, t.Balances known now carried seen → post () t) :
    wp (expire guard sequence) post (fun _ => True) s := by
  obtain ⟨totals, hseen, hadds⟩ := h.totals
  simp only [expire, wp_bind, wp_get, wp_within]
  refine wp_intro (fun cleared governor hexpire => ?_) fun _ _ _ => trivial
  have hexpirations := Governor.expirations_expire hexpire
  split
  · rename_i hcleared
    refine wp_record_shows (s := { s with governor }) hadds.shown fun recorder hrecorder =>
      hpost _ ⟨h.ledger, h.clock, h.plain, h.known, totals.enter (.wakelockTimeout guard), hseen,
          hrecorder, ?_,
        hadds.drained, hadds.acks⟩
    rw [hcleared] at hexpirations
    exact (congrArg (· + 1) hadds.timeouts).trans hexpirations.symm
  · rename_i huncounted
    rw [Bool.not_eq_true] at huncounted
    rw [huncounted] at hexpirations
    exact hpost _ ⟨h.ledger, h.clock, h.plain, h.known, totals, hseen, hadds.shown,
      hadds.timeouts.trans hexpirations.symm, hadds.drained, hadds.acks⟩

/-- The deadline of a request is set. -/
theorem wp_arm {serial : Serial} {kind : RequestKind} {epoch : Epoch}
    {post : Bool → Station → Prop} (h : s.Balances known now carried seen)
    (hpost : ∀ armed (t : Station), t.Balances known now carried seen → post armed t) :
    wp (arm serial kind epoch) post (fun _ => True) s := by
  simp only [arm, wp_bind, wp_get]
  split
  · rw [wp_bind]
    exact h.wp_schedule fun t ht => hpost true t ht
  · exact hpost false s h

/-- A frame for a serial that is not pending is counted. -/
theorem wp_violate {serial : Serial} {post : Reception → Station → Prop}
    (h : s.Balances known now carried seen)
    (hpost : ∀ (reception : Reception) (t : Station), reception.delivered = [] →
      t.Balances known now carried { seen with strays := seen.strays + 1 } → post reception t) :
    wp (violate serial) post (fun _ => True) s := by
  rw [violate, wp_bind]
  exact h.wp_record 1 0 0 (fun _ => rfl) fun t ht => hpost _ t rfl ht

/-- The first acknowledgment of a request is counted, and only the first. -/
theorem wp_receiveAck {serial : Serial} {post : Reception → Station → Prop}
    (h : s.Balances known now carried seen)
    (hpost : ∀ (reception : Reception) (t : Station), reception.delivered = [] →
      t.Balances known now carried
        { seen with strays := seen.strays + (s.ledger.misses (.ack serial)).toNat } →
      post reception t) :
    wp (receiveAck serial) post (fun _ => True) s := by
  have hacked := h.ledger.acknowledged serial
  simp only [receiveAck, wp_bind, wp_get, wp_set]
  cases hmark : s.ledger.markAcked serial with
  | mk outcome ledger =>
      rw [hmark] at hacked
      cases hacked with
      | unknown hnone =>
          have hmisses : s.ledger.misses (.ack serial) = true := by
            simpa [Ledger.misses] using hnone
          rw [hmisses] at hpost
          exact wp_violate h hpost
      | @duplicate request hmem hsame hstate =>
          have hmisses : s.ledger.misses (.ack serial) = false := by
            simpa [Ledger.misses] using ⟨request, hmem, hsame⟩
          rw [hmisses] at hpost
          exact hpost _ s rfl h
      | @first request after hmem hsame hstate hwf hrequests =>
          have hmisses : s.ledger.misses (.ack serial) = false := by
            simpa [Ledger.misses] using ⟨request, hmem, hsame⟩
          rw [hmisses] at hpost
          obtain ⟨totals, rfl, hadds⟩ := h.totals
          have hknown : ∀ other ∈ ledger.requests ++ carried,
              known other.target = some (other.kind, other.submittedAt) := by
            intro other hother
            rcases List.mem_append.mp hother with hother | hother
            · have hmem' := hrequests.mem_iff.mp (List.mem_cons_of_mem _ hother)
              rcases List.mem_cons.mp hmem' with rfl | hold
              · exact h.known request (List.mem_append_left _ hmem)
              · exact h.known other (List.mem_append_left _ hold)
            · exact h.known other (List.mem_append_right _ hother)
          have hacks : totals.acks + 1 + ledger.requests.countP (·.state = .sent) ≤
              totals.submitted := by
            have hcount := hrequests.countP_eq (·.state = .sent)
            have hacks := hadds.acks
            simp only [List.countP_cons, Ledger.acknowledged, hstate, decide_true, if_true,
              reduceCtorEq, decide_false, if_false] at hcount
            omega
          have hreleased : ∀ recorder governor,
              recorder.books.Shows (totals.enter .ackReceived) →
              s.governor.Returned s.reading request.ticket governor →
              Balances known now carried totals.seen { s with ledger, recorder, governor } :=
            fun recorder governor hrecorder hreturned =>
              ⟨hwf, h.clock, h.plain, hknown, totals.enter .ackReceived, rfl, hrecorder,
                hadds.timeouts.trans (Governor.expirations_returned hreturned).symm,
                hadds.drained, hacks⟩
          simp only [wp_bind]
          refine wp_record_shows (s := { s with ledger }) hadds.shown fun recorder hrecorder => ?_
          cases hticket : request.ticket with
          | none =>
              refine hpost _ _ rfl (hreleased recorder s.governor hrecorder ?_)
              rw [hticket]
              rfl
          | some ticket =>
              simp only [wp_bind]
              refine wp_release (fun good governor hrelease =>
                hpost _ _ rfl (hreleased recorder governor hrecorder ?_)) fun _ => trivial
              rw [hticket]
              exact ⟨good, hrelease⟩

/-- A frame is counted if it is stray, and hands a result to at most one target. -/
theorem wp_receive {frame : Frame} {post : Reception → Station → Prop}
    (h : s.Balances known now carried seen)
    (hpost : ∀ (reception : Reception) (t : Station),
      t.Balances known now carried
        { seen with
          times := reception.delivered.filterMap (timeTaken known now) ++ seen.times
          strays := seen.strays + (s.ledger.misses frame).toNat } →
      post reception t) :
    wp (receive frame) post (fun _ => True) s := by
  cases frame with
  | ack serial =>
      exact h.wp_receiveAck fun reception t hnone ht => hpost reception t (by rw [hnone]; exact ht)
  | reply serial code payload ackRequired =>
      rw [receive, receiveReply, wp_bind]
      refine h.wp_complete (fun hnone => ?_) fun request hmem hserial t hknown ht => ?_
      · have hmisses : s.ledger.misses (.reply serial code payload ackRequired) = true := by
          simpa [Ledger.misses] using hnone
        rw [hmisses] at hpost
        exact h.wp_violate fun reception t hnone ht => hpost reception t (by rw [hnone]; exact ht)
      · have hmisses : s.ledger.misses (.reply serial code payload ackRequired) = false := by
          simpa [Ledger.misses] using ⟨request, hmem, hserial⟩
        rw [hmisses] at hpost
        rw [wp_bind]
        exact ht.wp_settle hknown (.inl rfl) fun t ht => hpost _ t ht
  | indication kind payload ackRequired =>
      simp only [receive, receiveIndication, wp_bind, wp_get, wp_set]
      have hsubscribers := h.surroundings s.timeline (s.subscribers.dispatch ⟨kind, payload⟩).2
      have hclock : s.timeline.now = now := h.clock
      rw [hclock] at hsubscribers
      exact hsubscribers.wp_record 0 0 0 (fun _ => rfl) fun t ht => hpost _ t ht

/-- A deadline that passes hands a result to at most one target. -/
theorem wp_overdue {serial : Serial} {sentIn current : Epoch}
    {post : Option Delivery → Station → Prop} (h : s.Balances known now carried seen)
    (hpost : ∀ (found : Option Delivery) (t : Station),
      t.Balances known now carried
        { seen with
          times := (found.toList.map (·.target)).filterMap (timeTaken known now) ++ seen.times } →
      post found t) :
    wp (overdue serial sentIn current) post (fun _ => True) s := by
  unfold overdue
  split
  · exact hpost none s h
  · rw [wp_bind]
    refine h.wp_complete (fun _ => hpost none s h) fun request hmem hserial t hknown ht => ?_
    rw [wp_bind]
    exact ht.wp_settle hknown (.inl rfl) fun t ht => hpost _ t ht

end Balances

end Station

end ModemLink
