import ModemLink.Proofs.Clocked
import ModemLink.Proofs.LedgerMap
import ModemLink.Station

/-!
# What the actions of a station do

One rule for each action: what has to be shown about it, given that it changes nothing but the parts
named here.  The rules say of the recorder only what its counters show, and of the governor only
which of its own operations changed it.

* `wp_record`, `wp_schedule`, `wp_acquire`, `wp_release` -- the recorder, the timeline, the
  governor;
* `wp_complete` -- a completion finds its request, or there is none of its serial;
* `wp_settle` -- a settled request has given its unit back and is counted once;
* `wp_drainAll` -- a drain takes every request out;
* `moves_receive`, `moves_overdue` and the others -- where an action leads, given where its parts
  lead;
* `Tends` -- a relation that every action keeps to, because every change of a part does.
-/

namespace ModemLink

namespace Counters

/-- The requests that were submitted and are not completed, as far as 64 bits can tell. -/
def outstanding (c : Counters) : UInt64 := c.submitted - c.completed

theorem outstanding_submitted (c : Counters) (kind : RequestKind) :
    (c.count (.submitted kind)).outstanding = c.outstanding + 1 := by
  simp only [count, outstanding, completed]
  grind

theorem outstanding_completed (c : Counters) (kind : RequestKind) (outcome : Outcome)
    (latency : Duration) :
    (c.count (.completed kind outcome latency)).outstanding = c.outstanding - 1 := by
  cases outcome <;> simp only [count, addOutcome, outstanding, completed] <;> grind

/-- Whether a measurement is of the beginning or the end of a request. -/
def concernsRequest : Measurement → Bool
  | .submitted _ => true
  | .completed _ _ _ => true
  | _ => false

theorem outstanding_of_other {m : Measurement} (h : concernsRequest m = false) (c : Counters) :
    (c.count m).outstanding = c.outstanding := by
  cases m with
  | submitted kind => cases h
  | completed kind outcome latency => cases h
  | bind success => cases success <;> rfl
  | _ => rfl

end Counters

/-- The governor after a ticket was given back, if there was one. -/
def Governor.Returned (governor : Governor) (now : Duration) (ticket : Option Ticket)
    (after : Governor) : Prop :=
  match ticket with
  | none => after = governor
  | some ticket => ∃ good, Governor.release ticket now governor = .ok good after

namespace Station

open Clocked

variable {s : Station} {cut : Station → Prop}

/-- The counters of the books in memory. -/
def counters (s : Station) : Counters := s.recorder.books.counters

/-- A measurement is counted. -/
theorem wp_record {m : Measurement} {post : Unit → Station → Prop}
    (h : ∀ recorder, recorder.books.counters = s.counters.count m →
      post () { s with recorder })
    (hcut : ∀ recorder, cut { s with recorder }) : wp (record m) post cut s := by
  rw [record, wp_within, Recorder.record, Recorder.recordBoth, wp_bind, wp_within]
  have hbooks : wp (Metrics.record m) (fun _ metrics => metrics.counters = s.counters.count m)
      (fun _ => True) s.recorder.books := by
    unfold Metrics.record wp
    cases m with
    | completed kind outcome latency =>
        simp only
        cases LatencyTable.record kind latency s.recorder.books.latency <;> simp [counters]
    | _ => rfl
  refine hbooks.mono (fun _ metrics hmetrics => ?_) (fun _ _ => hcut _)
  rw [wp_within]
  unfold wp
  split
  · exact h _ hmetrics
  · exact hcut _

/-- A task is put on the timeline. -/
theorem wp_schedule {delay : Duration} {task : Task} {post : Unit → Station → Prop}
    (h : ∀ timeline, s.timeline.schedule delay task = .ok timeline → post () { s with timeline })
    (hcut : cut s) : wp (schedule delay task) post cut s := by
  cases htimeline : s.timeline.schedule delay task with
  | ok timeline =>
      have hok : schedule delay task s = .ok () { s with timeline } := by
        simp only [schedule, htimeline]
      exact (wp_of_ok hok).mpr (h timeline htimeline)
  | error overflow =>
      have herror : schedule delay task s = .error overflow s := by
        simp only [schedule, htimeline]
      exact (wp_of_error herror).mpr hcut

/-- A unit is taken; its timer is put on the timeline. -/
theorem wp_acquire {guard : Guard} {source : WorkSource} {post : Option Ticket → Station → Prop}
    (h : ∀ timeline, post ((s.governor.acquire guard source s.reading).1.map (·.ticket))
      { s with governor := (s.governor.acquire guard source s.reading).2, timeline })
    (hcut : cut { s with governor := (s.governor.acquire guard source s.reading).2 }) :
    wp (acquire guard source) post cut s := by
  cases hacquire : s.governor.acquire guard source s.reading with
  | mk grant governor =>
      rw [hacquire] at h hcut
      cases grant with
      | none =>
          have hok : acquire guard source s = .ok none { s with governor } := by
            simp only [acquire, hacquire]
          exact (wp_of_ok hok).mpr (h s.timeline)
      | some grant =>
          have htimer (timeout : Duration) :
              wp (schedule timeout (.expiry guard grant.sequence))
                (fun _ t => post (some grant.ticket) t) cut { s with governor } :=
            wp_schedule (fun timeline _ => h timeline) hcut
          refine wp_intro (fun ticket t hrun => ?_) fun overflow t hrun => ?_
          · simp only [acquire, hacquire] at hrun
            split at hrun <;> rename_i hscheduled <;> cases hrun
            exact (wp_of_ok hscheduled).mp (htimer _)
          · simp only [acquire, hacquire] at hrun
            split at hrun <;> rename_i hscheduled <;> cases hrun
            exact (wp_of_error hscheduled).mp (htimer _)

/-- A ticket is given back. -/
theorem wp_release {ticket : Ticket} {post : Bool → Station → Prop}
    (h : ∀ good governor, Governor.release ticket s.reading s.governor = .ok good governor →
      post good { s with governor })
    (hcut : ∀ governor, cut { s with governor }) : wp (release ticket) post cut s := by
  have hrun : release ticket s =
      within governor (fun governor s => { s with governor })
        (Governor.release ticket s.reading) s := rfl
  rw [wp_of_eq hrun, wp_within]
  exact wp_intro h fun _ governor _ => hcut governor

/-- A new request is entered. -/
@[simp] theorem wp_enroll {kind : RequestKind} {target : TargetId} {source : WorkSource}
    {ticket : Option Ticket} {post : Serial → Station → Prop} :
    wp (enroll kind target source ticket) post cut s ↔
      post (s.ledger.enroll ⟨kind, target, source, ticket, s.reading⟩).1
        { s with ledger := (s.ledger.enroll ⟨kind, target, source, ticket, s.reading⟩).2 } :=
  Iff.rfl

/-- A completion finds the request of its serial, or no pending request has that serial. -/
theorem wp_complete {serial : Serial} {post : Option PendingRequest → Station → Prop}
    (hwf : s.ledger.WellFormed)
    (hnone : (∀ request ∈ s.ledger.requests, request.serial ≠ serial) → post none s)
    (hsome : ∀ request ∈ s.ledger.requests, request.serial = serial →
      ∀ ledger, Ledger.Completed s.ledger request ledger → post (some request) { s with ledger }) :
    wp (complete serial) post cut s := by
  change post (s.ledger.complete serial).1 { s with ledger := (s.ledger.complete serial).2 }
  by_cases hall : ∀ request ∈ s.ledger.requests, request.serial ≠ serial
  · rw [hwf.complete_of_none hall]
    exact hnone hall
  · push Not at hall
    obtain ⟨request, hmem, rfl⟩ := hall
    obtain ⟨after, heq, hcompleted⟩ := hwf.complete_of_mem hmem
    rw [heq]
    exact hsome request hmem rfl after hcompleted

/-- A settled request has given its unit back, and its outcome is counted. -/
theorem wp_settle_counted {request : PendingRequest} {result : RequestResult} {outcome : Outcome}
    {post : Delivery → Station → Prop}
    (h : ∀ governor recorder, s.governor.Returned s.reading request.ticket governor →
      recorder.books.counters =
        s.counters.count (.completed request.kind outcome (request.age s.reading)) →
      post ⟨request.target, result⟩ { s with governor, recorder })
    (hcut : ∀ governor recorder, cut { s with governor, recorder }) :
    wp (settle request result outcome) post cut s := by
  have hrecord : ∀ governor, s.governor.Returned s.reading request.ticket governor →
      wp (record (.completed request.kind outcome (request.age s.reading)))
        (fun _ t => post ⟨request.target, result⟩ t) cut { s with governor } :=
            fun governor hreturned =>
    wp_record (fun recorder hrecorder => h governor recorder hreturned hrecorder)
      (fun recorder => hcut governor recorder)
  unfold settle
  cases hticket : request.ticket with
  | none =>
      simp only [wp_bind, wp_get]
      exact hrecord s.governor (by rw [hticket]; rfl)
  | some ticket =>
      simp only [wp_bind]
      refine wp_release (fun good governor hrelease => ?_) (fun governor => hcut governor _)
      simp only [wp_get]
      exact hrecord governor (by rw [hticket]; exact ⟨good, hrelease⟩)

/-- A settled request has given its unit back, and is counted once. -/
theorem wp_settle {request : PendingRequest} {result : RequestResult} {outcome : Outcome}
    {post : Delivery → Station → Prop}
    (h : ∀ governor recorder, s.governor.Returned s.reading request.ticket governor →
      recorder.books.counters.outstanding = s.counters.outstanding - 1 →
      post ⟨request.target, result⟩ { s with governor, recorder })
    (hcut : ∀ governor recorder, cut { s with governor, recorder }) :
    wp (settle request result outcome) post cut s :=
  wp_settle_counted
    (fun governor recorder hreturned hrecorder => h governor recorder hreturned
      (by rw [hrecorder]; exact Counters.outstanding_completed _ _ _ _))
    hcut

/-- The timer of a unit runs out; nothing is submitted or completed by it. -/
theorem wp_expire {guard : Guard} {sequence : Nat} {post : Unit → Station → Prop}
    (h : ∀ cleared governor recorder,
      Governor.expire guard sequence s.reading s.governor = .ok cleared governor →
      recorder.books.counters.outstanding = s.counters.outstanding →
      post () { s with governor, recorder })
    (hcut : ∀ governor recorder, cut { s with governor, recorder }) :
    wp (expire guard sequence) post cut s := by
  simp only [expire, wp_bind, wp_get, wp_within]
  refine wp_intro (fun cleared governor hexpire => ?_) fun _ governor _ => hcut governor _
  split
  · refine wp_record (fun recorder hrecorder => h cleared governor recorder hexpire ?_)
      (fun recorder => hcut governor recorder)
    rw [hrecorder]
    exact Counters.outstanding_of_other rfl _
  · exact h cleared governor s.recorder hexpire rfl

/-- A drain draws the counter of serials once, takes every request out and counts the death. -/
theorem wp_drainAll_counted {post : List PendingRequest → Station → Prop}
    (h : ∀ recorder,
      recorder.books.counters = s.counters.count (.death s.ledger.drain.1.length) →
      post s.ledger.drain.1 { s with
        ledger := (s.ledger.reseed s.entropy).2.1.drain.2
        entropy := (s.ledger.reseed s.entropy).2.2
        recorder })
    (hcut : ∀ ledger entropy recorder, cut { s with ledger, entropy, recorder }) :
    wp drainAll post cut s := by
  simp only [drainAll, wp_bind, wp_get, wp_set]
  exact wp_record (fun recorder hrecorder => h recorder hrecorder)
    (fun recorder => hcut _ _ recorder)

/-- A drain takes every request out and counts the death. -/
theorem wp_drainAll {post : List PendingRequest → Station → Prop}
    (h : ∀ (drained : List PendingRequest) (ledger : Ledger) (entropy : Entropy) recorder,
      drained.Perm s.ledger.requests → ledger.requests = [] → ledger.WellFormed →
      recorder.books.counters.outstanding = s.counters.outstanding →
      post drained { s with ledger, entropy, recorder })
    (hcut : ∀ ledger entropy recorder, cut { s with ledger, entropy, recorder }) :
    wp drainAll post cut s := by
  refine wp_drainAll_counted (fun recorder hrecorder => ?_) hcut
  refine h _ _ _ recorder (Ledger.perm_fst_drain _) (Ledger.requests_snd_drain _)
    (Ledger.wellFormed_snd_drain _) ?_
  rw [hrecorder]
  exact Counters.outstanding_of_other rfl _

/-! ## Where actions lead -/

section

variable {r halted : Station → Station → Prop}

theorem moves_release (hgovernor : ∀ (s : Station) governor, r s { s with governor })
    (hhalted : ∀ (s : Station) governor, halted s { s with governor }) (ticket : Ticket) :
    Moves r halted (release ticket) :=
  fun s => wp_release (fun _ governor _ => hgovernor s governor) (hhalted s)

variable [IsPreorder Station r] [Absorbs r halted]

/-- A unit is taken from the governor, and its timer is started. -/
theorem moves_acquire (hgovernor : ∀ (s : Station) governor, r s { s with governor })
    (hschedule : ∀ delay guard sequence, Moves r halted (schedule delay (.expiry guard sequence)))
    (guard : Guard) (source : WorkSource) : Moves r halted (acquire guard source) := by
  intro s
  cases hacquire : s.governor.acquire guard source s.reading with
  | mk grant governor =>
      cases grant with
      | none =>
          have hok : acquire guard source s = .ok none { s with governor } := by
            simp only [acquire, hacquire]
          exact (wp_of_ok hok).mpr (hgovernor s governor)
      | some grant =>
          have hstarted (timeout : Duration) :
              wp (schedule timeout (.expiry guard grant.sequence)) (fun _ t => r s t) (halted s)
                { s with governor } :=
            (hschedule _ _ _).mono (hgovernor s governor) fun _ _ h => h
          refine wp_intro (fun ticket t hrun => ?_) fun overflow t hrun => ?_
          · simp only [acquire, hacquire] at hrun
            split at hrun <;> rename_i hscheduled <;> cases hrun
            exact (wp_of_ok hscheduled).mp (hstarted _)
          · simp only [acquire, hacquire] at hrun
            split at hrun <;> rename_i hscheduled <;> cases hrun
            exact (wp_of_error hscheduled).mp (hstarted _)

/-- The timer of a unit changes the governor and, at most, is entered. -/
theorem moves_expire (hgovernor : ∀ (s : Station) governor, r s { s with governor })
    (hhalted : ∀ (s : Station) governor, halted s { s with governor }) {guard : Guard}
    (hrecord : Moves r halted (record (.wakelockTimeout guard))) (sequence : Nat) :
    Moves r halted (expire guard sequence) := by
  intro s
  simp only [expire, wp_bind, wp_get, wp_within]
  refine wp_intro (fun cleared governor _ => ?_) fun _ governor _ => hhalted s governor
  split
  · exact hrecord.mono (hgovernor s governor) fun _ _ h => h
  · exact hgovernor s governor

/-- A request is settled by giving its unit back and entering its outcome. -/
theorem moves_settle (hrelease : ∀ ticket, Moves r halted (release ticket)) {outcome : Outcome}
    (hrecord : ∀ kind latency, Moves r halted (record (.completed kind outcome latency)))
    (request : PendingRequest) (result : RequestResult) :
    Moves r halted (settle request result outcome) := by
  intro s
  unfold settle
  cases request.ticket with
  | none =>
      simp only [wp_bind, wp_get]
      exact hrecord _ _ s
  | some ticket =>
      simp only [wp_bind]
      refine (hrelease ticket s).mono (fun _ t ht => ?_) fun _ h => h
      simp only [wp_get]
      exact (hrecord _ _).mono ht fun _ _ h => h

/-- A frame marks a request, or takes one out and settles it, or goes to the subscribers.  It enters
no deadline that passed. -/
theorem moves_receive (hrelease : ∀ ticket, Moves r halted (release ticket))
    (hsubscribers : ∀ (s : Station) subscribers, r s { s with subscribers })
    (hmark : ∀ (s : Station) serial, r s { s with ledger := (s.ledger.markAcked serial).2 })
    (hcomplete : ∀ serial, Moves r halted (complete serial))
    (hrecord : ∀ m, (∀ kind latency, m ≠ .completed kind .timedOut latency) →
      Moves r halted (record m))
    (frame : Frame) : Moves r halted (receive frame) := by
  have hviolate : ∀ serial, Moves r halted (violate serial) := fun _ =>
    (hrecord _ (by simp)).bind fun _ => moves_pure _
  cases frame with
  | ack serial =>
      intro s
      have hmarked := hmark s serial
      simp only [receive, receiveAck, wp_bind, wp_get, wp_set]
      cases hout : s.ledger.markAcked serial with
      | mk outcome ledger =>
          rw [hout] at hmarked
          cases outcome with
          | acked ticket =>
              refine ((hrecord _ (by simp)).bind fun _ => ?_).mono hmarked fun _ _ h => h
              cases ticket with
              | none => exact moves_pure _
              | some ticket => exact (hrelease ticket).bind fun _ => moves_pure _
          | duplicate => exact hmarked
          | unknown => exact (hviolate serial).mono hmarked fun _ _ h => h
  | reply serial code payload ackRequired =>
      refine (hcomplete serial).bind fun found => ?_
      cases found with
      | none => exact hviolate serial
      | some request =>
          refine (moves_settle hrelease (fun kind latency => hrecord _ ?_) request _).bind
            fun _ => moves_pure _
          cases RequestResult.ofReply code payload with
          | ok _ => simp [Outcome.ofResult]
          | error fault => cases fault <;> simp [Outcome.ofResult]
  | indication kind payload ackRequired =>
      intro s
      simp only [receive, receiveIndication, wp_bind, wp_get, wp_set]
      exact (hrecord _ (by simp)).mono (hsubscribers s _) fun _ _ h => h

/-- The deadline of a request is set, if its kind has one. -/
theorem moves_arm {serial : Serial} {kind : RequestKind} {epoch : Epoch}
    (hschedule : ∀ delay, Moves r halted (schedule delay (.deadline serial kind epoch))) :
    Moves r halted (arm serial kind epoch) := by
  refine moves_get.bind fun s => ?_
  split
  · exact (hschedule _).bind fun _ => moves_pure _
  · exact moves_pure _

/-- A deadline that passes takes its request out and settles it, or does nothing. -/
theorem moves_overdue (hcomplete : ∀ serial, Moves r halted (complete serial))
    (hsettle : ∀ request result outcome, Moves r halted (settle request result outcome))
    (serial : Serial) (sentIn current : Epoch) :
    Moves r halted (overdue serial sentIn current) := by
  unfold overdue
  split
  · exact moves_pure _
  · refine (hcomplete serial).bind fun found => ?_
    cases found with
    | none => exact moves_pure _
    | some request => exact (hsettle _ _ _).bind fun _ => moves_pure _

end

/-! ## Parts of a station -/

/-- A relation that holds whenever one part of a station is changed in a way in which an action
changes it.  An attempt to bind is nothing that an action of the station schedules. -/
structure Tends (r : Station → Station → Prop) : Prop where
  recorder : ∀ (s : Station) recorder, r s { s with recorder }
  governor : ∀ (s : Station) governor, r s { s with governor }
  subscribers : ∀ (s : Station) subscribers, r s { s with subscribers }
  timeline : ∀ (s : Station) {delay : Duration} {task : Task} {timeline : Timeline Task},
    task ≠ .reconnect → s.timeline.schedule delay task = .ok timeline → r s { s with timeline }
  completed : ∀ (s : Station) serial, r s { s with ledger := (s.ledger.complete serial).2 }
  marked : ∀ (s : Station) serial, r s { s with ledger := (s.ledger.markAcked serial).2 }
  drained : ∀ s : Station, r s { s with
    ledger := (s.ledger.reseed s.entropy).2.1.drain.2
    entropy := (s.ledger.reseed s.entropy).2.2 }

namespace Tends

variable {r : Station → Station → Prop}

theorem record (h : Tends r) (m : Measurement) : Moves r r (record m) :=
  fun s => wp_record (fun recorder _ => h.recorder s recorder) (h.recorder s)

theorem release (h : Tends r) (ticket : Ticket) : Moves r r (release ticket) :=
  moves_release h.governor h.governor ticket

theorem complete (h : Tends r) (serial : Serial) : Moves r r (complete serial) :=
  fun s => h.completed s serial

variable [IsPreorder Station r]

theorem schedule (h : Tends r) (delay : Duration) {task : Task} (hne : task ≠ .reconnect) :
    Moves r r (schedule delay task) :=
  fun s => wp_schedule (fun _ hscheduled => h.timeline s hne hscheduled) (Std.Refl.refl s)

theorem acquire (h : Tends r) (guard : Guard) (source : WorkSource) :
    Moves r r (acquire guard source) :=
  moves_acquire h.governor (fun _ _ _ => h.schedule _ (by simp)) guard source

theorem settle (h : Tends r) (request : PendingRequest) (result : RequestResult)
    (outcome : Outcome) : Moves r r (settle request result outcome) :=
  moves_settle h.release (fun _ _ => h.record _) request result

theorem expire (h : Tends r) (guard : Guard) (sequence : Nat) :
    Moves r r (expire guard sequence) :=
  moves_expire h.governor h.governor (h.record _) sequence

theorem receive (h : Tends r) (frame : Frame) : Moves r r (receive frame) :=
  moves_receive h.release h.subscribers h.marked h.complete (fun m _ => h.record m) frame

theorem arm (h : Tends r) (serial : Serial) (kind : RequestKind) (epoch : Epoch) :
    Moves r r (arm serial kind epoch) :=
  moves_arm fun _ => h.schedule _ (by simp)

theorem overdue (h : Tends r) (serial : Serial) (sentIn current : Epoch) :
    Moves r r (overdue serial sentIn current) :=
  moves_overdue h.complete h.settle serial sentIn current

theorem drainAll (h : Tends r) : Moves r r drainAll := by
  intro s
  simp only [Station.drainAll, wp_bind, wp_get, wp_set]
  exact (h.record _).mono (h.drained s) fun _ _ ht => ht

end Tends

end Station

end ModemLink
