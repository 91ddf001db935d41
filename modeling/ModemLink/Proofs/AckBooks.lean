import ModemLink.Proofs.Abreast
import ModemLink.Proofs.Deaths

/-!
# What concerns local acknowledgments

Local acknowledgments show in three places: in the calls that send them, in the books of the ack
guard, and in one counter.  Only two things that the engine does have to do with them: a frame that
asks for one has its link remembered until its result is delivered, and then a unit of the guard is
taken and the acknowledgment is sent.  Everything else leaves all three alone, the end of an ack
timer and the good answer of the radio apart.

* `Station.SparesAcks` -- an action leaves the books of the ack guard and the counter alone, given
  that no request holds a unit of that guard;
* `Station.wp_expire_ack` -- what the timer of an ack unit does to them;
* `Hub.Bystands`, `Hub.bystands_submit`, `Hub.bystands_runTask` and the others -- a transition has
  nothing to do with acknowledgments;
* `Hub.Acks`, `Hub.acks_receive`, `Hub.acks_answered` -- what a transition has to do with them.
-/

namespace ModemLink

theorem Counters.localAcks_count {m : Measurement} (h : m ≠ .localAck) (c : Counters) :
    (c.count m).localAcks = c.localAcks := by
  cases m with
  | completed kind outcome latency => cases outcome <;> rfl
  | bind success => cases success <;> rfl
  | localAck => exact absurd rfl h
  | _ => rfl

namespace Station

open Clocked

/-- What happened to a station left the books of the ack guard and the counter of acknowledgments
alone.  No request holds a unit of that guard. -/
structure SparesAcks (base s : Station) : Prop where
  ledger : s.ledger.AckFree
  books : s.governor.ack = base.governor.ack
  counted : s.counters.localAcks = base.counters.localAcks

namespace SparesAcks

variable {base s : Station}

theorem refl (h : s.ledger.AckFree) : SparesAcks s s := ⟨h, rfl, rfl⟩

/-- A measurement that is no acknowledgment. -/
theorem wp_record {m : Measurement} {post : Unit → Station → Prop} (h : SparesAcks base s)
    (hm : m ≠ .localAck) (hpost : ∀ t, SparesAcks base t → post () t) :
    wp (record m) post (fun _ => True) s := by
  refine Station.wp_record (fun recorder hcounted => hpost _ ⟨h.ledger, h.books, ?_⟩) fun _ =>
      trivial
  rw [counters, hcounted, Counters.localAcks_count hm, h.counted]

theorem wp_schedule {delay : Duration} {task : Task} {post : Unit → Station → Prop}
    (h : SparesAcks base s) (hpost : ∀ t, SparesAcks base t → post () t) :
    wp (schedule delay task) post (fun _ => True) s :=
  Station.wp_schedule (fun _ _ => hpost _ ⟨h.ledger, h.books, h.counted⟩) trivial

/-- A ticket of another guard is given back. -/
theorem wp_release {ticket : Ticket} {post : Bool → Station → Prop} (h : SparesAcks base s)
    (hguard : ticket.guard ≠ .ack) (hpost : ∀ good t, SparesAcks base t → post good t) :
    wp (release ticket) post (fun _ => True) s := by
  refine Station.wp_release (fun good governor hrelease => ?_) fun _ => trivial
  have hbooks := Option.some.inj (Governor.state?_release_of_ne hguard hrelease)
  exact hpost good _ ⟨h.ledger, hbooks.trans h.books, h.counted⟩

/-- A unit of the request guard is taken. -/
theorem wp_acquire_request {source : WorkSource} {post : Option Ticket → Station → Prop}
    (h : SparesAcks base s)
    (hpost : ∀ ticket t, (∀ issued, ticket = some issued → issued.guard ≠ .ack) →
      t.ledger = s.ledger → SparesAcks base t → post ticket t) :
    wp (acquire .request source) post (fun _ => True) s := by
  refine Station.wp_acquire (fun timeline => ?_) trivial
  refine hpost _ _ (fun issued hissued => ?_) rfl ⟨h.ledger, h.books, h.counted⟩
  cases hissued
  exact Guard.noConfusion

theorem wp_enroll {kind : RequestKind} {target : TargetId} {source : WorkSource}
    {ticket : Option Ticket} {post : Serial → Station → Prop} (h : SparesAcks base s)
    (room : s.ledger.size < Serial.space)
    (hguard : ∀ issued, ticket = some issued → issued.guard ≠ .ack)
    (hpost : ∀ serial t, SparesAcks base t → post serial t) :
    wp (enroll kind target source ticket) post (fun _ => True) s := by
  rw [Station.wp_enroll]
  exact hpost _ _ ⟨h.ledger.enroll room hguard, h.books, h.counted⟩

theorem wp_complete {serial : Serial} {post : Option PendingRequest → Station → Prop}
    (h : SparesAcks base s) (hnone : ∀ t, SparesAcks base t → post none t)
    (hsome : ∀ request t, request.AckFree → SparesAcks base t → post (some request) t) :
    wp (complete serial) post (fun _ => True) s := by
  obtain ⟨hledger, hfree⟩ := h.ledger.complete serial
  have hafter : SparesAcks base { s with ledger := (s.ledger.complete serial).2 } :=
    ⟨hledger, h.books, h.counted⟩
  change post (s.ledger.complete serial).1 { s with ledger := (s.ledger.complete serial).2 }
  cases hfound : (s.ledger.complete serial).1 with
  | none => exact hnone _ hafter
  | some request => exact hsome request _ (hfree request hfound) hafter

/-- A request without a unit of the ack guard is settled. -/
theorem wp_settle {request : PendingRequest} {result : RequestResult} {outcome : Outcome}
    {post : Delivery → Station → Prop} (h : SparesAcks base s) (hfree : request.AckFree)
    (hpost : ∀ delivery t, SparesAcks base t → post delivery t) :
    wp (settle request result outcome) post (fun _ => True) s := by
  refine Station.wp_settle_counted (fun governor recorder hreturned hcounted => ?_) fun _ _ =>
      trivial
  have hbooks : governor.ack = s.governor.ack := by
    cases hticket : request.ticket with
    | none =>
        rw [hticket] at hreturned
        rw [hreturned]
    | some ticket =>
        rw [hticket] at hreturned
        obtain ⟨good, hrelease⟩ := hreturned
        exact Option.some.inj (Governor.state?_release_of_ne (hfree ticket hticket) hrelease)
  refine hpost _ _ ⟨h.ledger, hbooks.trans h.books, ?_⟩
  rw [counters, hcounted]
  exact (Counters.localAcks_count (by simp) _).trans h.counted

theorem wp_violate {serial : Serial} {post : Reception → Station → Prop} (h : SparesAcks base s)
    (hpost : ∀ fault t, SparesAcks base t → post (.violation fault) t) :
    wp (violate serial) post (fun _ => True) s := by
  simp only [violate, wp_bind]
  exact h.wp_record (by simp) fun t ht => hpost _ t ht

/-- A frame is received; the acknowledgment that it may ask for is sent later. -/
theorem wp_receive {frame : Frame} {post : Reception → Station → Prop} (h : SparesAcks base s)
    (hpost : ∀ reception t, SparesAcks base t → post reception t) :
    wp (receive frame) post (fun _ => True) s := by
  cases frame with
  | ack serial =>
      obtain ⟨hledger, hguard⟩ := h.ledger.markAcked serial
      simp only [receive, receiveAck, wp_bind, wp_get, wp_set]
      cases hout : s.ledger.markAcked serial with
      | mk outcome ledger =>
          rw [hout] at hledger hguard
          have hmarked : SparesAcks base { s with ledger } := ⟨hledger, h.books, h.counted⟩
          cases outcome with
          | acked ticket =>
              simp only [wp_bind]
              refine hmarked.wp_record (by simp) fun t ht => ?_
              cases ticket with
              | none => exact hpost _ t ht
              | some ticket =>
                  simp only [wp_bind]
                  exact ht.wp_release (hguard ticket rfl) fun good t ht => hpost _ t ht
          | duplicate => exact hpost _ _ hmarked
          | unknown => exact hmarked.wp_violate fun _ t ht => hpost _ t ht
  | reply serial code payload ackRequired =>
      simp only [receive, receiveReply, wp_bind]
      refine h.wp_complete (fun t ht => ?_) fun request t hfree ht => ?_
      · exact ht.wp_violate fun _ t ht => hpost _ t ht
      · simp only [wp_bind]
        exact ht.wp_settle hfree fun delivery t ht => hpost _ t ht
  | indication kind payload ackRequired =>
      simp only [receive, receiveIndication, wp_bind, wp_get, wp_set]
      have hafter : SparesAcks base
          { s with subscribers := (s.subscribers.dispatch ⟨kind, payload⟩).2 } :=
        ⟨h.ledger, h.books, h.counted⟩
      exact hafter.wp_record (by simp) fun t ht => hpost _ t ht

theorem wp_arm {serial : Serial} {kind : RequestKind} {epoch : Epoch}
    {post : Bool → Station → Prop} (h : SparesAcks base s)
    (hpost : ∀ armed t, SparesAcks base t → post armed t) :
    wp (arm serial kind epoch) post (fun _ => True) s := by
  simp only [arm, wp_bind, wp_get]
  split
  · simp only [wp_bind]
    exact h.wp_schedule fun t ht => hpost _ t ht
  · exact hpost _ s h

theorem wp_overdue {serial : Serial} {sentIn current : Epoch}
    {post : Option Delivery → Station → Prop} (h : SparesAcks base s)
    (hpost : ∀ found t, SparesAcks base t → post found t) :
    wp (overdue serial sentIn current) post (fun _ => True) s := by
  unfold overdue
  split
  · exact hpost _ s h
  · simp only [wp_bind]
    refine h.wp_complete (fun t ht => hpost _ t ht) fun request t hfree ht => ?_
    simp only [wp_bind]
    exact ht.wp_settle hfree fun delivery t ht => hpost _ t ht

/-- The timer of a unit of another guard. -/
theorem wp_expire {guard : Guard} {sequence : Nat} {post : Unit → Station → Prop}
    (h : SparesAcks base s) (hguard : guard ≠ .ack)
    (hpost : ∀ t, SparesAcks base t → post () t) :
    wp (expire guard sequence) post (fun _ => True) s := by
  simp only [expire, wp_bind, wp_get, wp_within]
  refine wp_intro (fun cleared governor hexpire => ?_) fun _ _ _ => trivial
  have hbooks := Option.some.inj (Governor.state?_expire_of_ne hguard hexpire)
  have hafter : SparesAcks base { s with governor } :=
    ⟨h.ledger, hbooks.trans h.books, h.counted⟩
  split
  · exact hafter.wp_record (by simp) fun t ht => hpost t ht
  · exact hpost _ hafter

theorem wp_drainAll {post : List PendingRequest → Station → Prop} (h : SparesAcks base s)
    (hpost : ∀ drained t, (∀ request ∈ drained, request.AckFree) → SparesAcks base t →
      post drained t) :
    wp drainAll post (fun _ => True) s := by
  refine Station.wp_drainAll_counted (fun recorder hcounted => ?_) fun _ _ _ => trivial
  refine hpost _ _ h.ledger.drain.2 ⟨(h.ledger.reseed s.entropy).drain.1, h.books, ?_⟩
  rw [counters, hcounted]
  exact (Counters.localAcks_count (by simp) _).trans h.counted

end SparesAcks

/-- The timer of the latest ack unit clears the guard if it is held; every other one leaves it
alone. -/
theorem wp_expire_ack {s : Station} (h : s.ledger.AckFree) (sequence : Nat) :
    wp (expire .ack sequence)
      (fun _ t => SparesAcks s t ∨ (sequence = s.governor.ack.sequence ∧
        Governor.Clears s.governor.ack t.governor.ack ∧
        t.counters.localAcks = s.counters.localAcks))
      (fun _ => True) s := by
  simp only [expire, wp_bind, wp_get, wp_within]
  refine wp_intro (fun cleared governor hexpire => ?_) fun _ _ _ => trivial
  have hguard : (Guard.ack == Guard.request) = false := rfl
  rw [hguard, Bool.and_false, if_neg Bool.false_ne_true]
  have hstate : s.governor.state? .ack = some s.governor.ack := rfl
  rcases Governor.state?_expire hstate hexpire with
    ⟨hsame, -⟩ | ⟨hlatest, changed, hchanged, hclears⟩
  · exact .inl ⟨h, Option.some.inj hsame, rfl⟩
  · exact .inr ⟨hlatest, Option.some.inj hchanged ▸ hclears, rfl⟩

end Station

/-- The link that a call sends a local acknowledgment on. -/
def Outgoing.acked? : Outgoing → Option LiveLink
  | .sendAck live => some live
  | _ => none

/-- The link that a local acknowledgment is to be sent on when a call is answered. -/
def Outgoing.owed? : Outgoing → Option LiveLink
  | .deliver _ (.reply live) => live
  | _ => none

/-- The call that a transition ends with. -/
def Progress.call? : Progress → Option Outgoing
  | .waits call => some call
  | .ends _ => none

namespace Hub

open Clocked

variable {base hub : Hub}

/-- The link that the acknowledgment of a frame is sent on: the one that is live when the frame
comes, if the frame asks for an acknowledgment. -/
def ackLink (hub : Hub) (frame : Frame) : Option LiveLink :=
  if frame.requiresAck then hub.link.current else none

/-- The books of acknowledgments are as they were. -/
abbrev SparesAcks (base hub : Hub) : Prop := base.station.SparesAcks hub.station

/-- A transition has nothing to do with local acknowledgments. -/
structure Bystands (base : Hub) (progress : Progress) (after : Hub) : Prop where
  unsent : progress.call?.bind Outgoing.acked? = none
  unowed : progress.call?.bind Outgoing.owed? = none
  spares : base.SparesAcks after

theorem SparesAcks.wp_scheduleReconnect {post : Unit → Hub → Prop} (h : base.SparesAcks hub)
    (hpost : ∀ after : Hub, base.SparesAcks after → post () after) :
    wp scheduleReconnect post (fun _ => True) hub :=
  Hub.wp_scheduleReconnect (fun _ _ => hpost _ ⟨h.ledger, h.books, h.counted⟩) fun _ => trivial

theorem bystands_bound (h : base.SparesAcks hub) (use : BindUse)
    (answer : Except LinkFault LiveLink) :
    wp (bound use answer) (Bystands base) (fun _ => True) hub := by
  cases use with
  | connection => exact ⟨rfl, rfl, h⟩
  | retry => exact ⟨rfl, rfl, h⟩
  | submission serial kind payload =>
      cases answer with
      | ok live =>
          simp only [bound, wp_bind, Hub.wp_atStation]
          exact Station.SparesAcks.wp_arm h fun _ t ht => ⟨rfl, rfl, ht⟩
      | error fault =>
          simp only [bound, wp_bind, Hub.wp_atStation]
          refine Station.SparesAcks.wp_complete h (fun t ht => ⟨rfl, rfl, ht⟩)
            fun request t hfree ht => ?_
          simp only [wp_bind, Hub.wp_atStation]
          exact ht.wp_settle hfree fun _ t ht => ⟨rfl, rfl, ht⟩

theorem bystands_bind (h : base.SparesAcks hub) (use : BindUse) :
    wp (bind use) (Bystands base) (fun _ => True) hub := by
  simp only [bind, wp_bind, wp_get]
  split
  · exact bystands_bound h use _
  · exact ⟨rfl, rfl, h⟩

theorem bystands_bindAnswered (h : base.SparesAcks hub) (cookie : Epoch) (use : BindUse)
    (answer : Except LinkFault Handle) :
    wp (bindAnswered cookie use answer) (Bystands base) (fun _ => True) hub := by
  simp only [bindAnswered, wp_bind, wp_get, wp_set, record]
  split
  · simp only [wp_bind, Hub.wp_atStation]
    exact Station.SparesAcks.wp_record h (by simp) fun t ht => bystands_bound ht use _
  · simp only [wp_bind, Hub.wp_atStation]
    refine Station.SparesAcks.wp_record h (by simp) fun t ht => ?_
    exact SparesAcks.wp_scheduleReconnect ht fun after hafter => bystands_bound hafter use _

/-- The requests that a death took out hold no unit of the ack guard either. -/
theorem bystands_drainNext (h : base.SparesAcks hub) {requests : List PendingRequest}
    (hfree : ∀ request ∈ requests, request.AckFree) (use : DeathUse) :
    wp (drainNext requests use) (Bystands base) (fun _ => True) hub := by
  cases requests with
  | nil =>
      simp only [drainNext, wp_bind]
      exact h.wp_scheduleReconnect fun after hafter => ⟨rfl, rfl, hafter⟩
  | cons request rest =>
      simp only [drainNext, wp_bind, Hub.wp_atStation]
      exact Station.SparesAcks.wp_settle h (hfree request (List.mem_cons_self ..))
        fun _ t ht => ⟨rfl, rfl, ht⟩

theorem bystands_die (h : base.SparesAcks hub) (cookie : Epoch) (use : DeathUse) :
    wp (die cookie use) (Bystands base) (fun _ => True) hub := by
  simp only [die, wp_bind, wp_get]
  split
  · exact ⟨rfl, rfl, h⟩
  · rename_i link hconfirmed
    simp only [wp_bind, wp_set, Hub.wp_atStation]
    exact Station.SparesAcks.wp_drainAll h fun drained t hfree ht =>
      bystands_drainNext ht hfree use

theorem bystands_submit (h : base.SparesAcks hub) (room : hub.station.ledger.size < Serial.space)
    (kind : RequestKind) (payload : Payload) (target : TargetId) (source : Option WorkSource) :
    wp (submit kind payload target source) (Bystands base) (fun _ => True) hub := by
  simp only [submit, wp_bind, wp_get, record, Hub.wp_atStation]
  refine Station.wp_record (fun recorder hcounted => ?_) fun _ => trivial
  have hrecorded : base.station.SparesAcks { hub.station with recorder } :=
    ⟨h.ledger, h.books, ((congrArg Counters.localAcks hcounted).trans
      (Counters.localAcks_count (by simp) _)).trans h.counted⟩
  refine hrecorded.wp_acquire_request fun ticket t hguard hsame ht => ?_
  refine ht.wp_enroll (hsame ▸ room) hguard fun serial t ht => ?_
  exact bystands_bind ht _

/-- The tasks of the timeline, the timers of ack units apart. -/
theorem bystands_runTask (h : base.SparesAcks hub) {task : Task}
    (hother : task.isAckTimer = false) :
    wp (runTask task) (Bystands base) (fun _ => True) hub := by
  cases task with
  | expiry guard sequence =>
      have hguard : guard ≠ .ack := by
        rintro rfl
        cases hother
      simp only [runTask, wp_bind, Hub.wp_atStation]
      exact Station.SparesAcks.wp_expire h hguard fun t ht => ⟨rfl, rfl, ht⟩
  | deadline serial kind sentIn =>
      simp only [runTask, wp_bind, wp_get, Hub.wp_atStation]
      refine Station.SparesAcks.wp_overdue h fun found t ht => ?_
      cases found with
      | none => exact ⟨rfl, rfl, ht⟩
      | some delivery => exact ⟨rfl, rfl, ht⟩
  | reconnect =>
      simp only [runTask, wp_bind, wp_get, wp_set]
      have hdisarmed : base.SparesAcks { hub with link := hub.link.disarmRetry } := h
      split
      · exact ⟨rfl, rfl, hdisarmed⟩
      · exact bystands_bind hdisarmed .retry

/-- The timer of an ack unit. -/
theorem wp_runTask_ack (hub : Hub) (hfree : hub.station.ledger.AckFree) (sequence : Nat) :
    wp (runTask (.expiry .ack sequence))
      (fun progress after => progress.call? = none ∧ (hub.SparesAcks after ∨
        (sequence = hub.station.governor.ack.sequence ∧
          Governor.Clears hub.station.governor.ack after.station.governor.ack ∧
          after.station.counters.localAcks = hub.station.counters.localAcks)))
      (fun _ => True) hub := by
  simp only [runTask, wp_bind, Hub.wp_atStation]
  exact (Station.wp_expire_ack hfree sequence).mono (fun _ _ hout => ⟨rfl, hout⟩) fun _ h => h

end Hub

/-- The link that a move leads to an acknowledgment on: a frame that asks for one came while a link
was live, or the result of such a frame was delivered. -/
def Move.ackLink (hub : Hub) : Move → Option LiveLink
  | .call (.receive frame) => hub.ackLink frame
  | .answer outgoing _ => outgoing.owed?
  | _ => none

/-- Whether the radio took an acknowledgment. -/
def Move.takesAck : Move → Bool
  | .answer (.sendAck _) outcome =>
    match (outcome : Except LinkFault Unit) with
    | .ok () => true
    | .error _ => false
  | _ => false

namespace Hub

open Clocked

variable {base hub : Hub}

/-- What a transition has to do with local acknowledgments, by the move that runs it. -/
inductive Acks (before : Hub) : Move → Progress → Hub → Prop
  | bystands {move : Move} {progress : Progress} {after : Hub} (wanted : move.ackLink before = none)
      (untaken : move.takesAck = false) (bystands : before.Bystands progress after) :
      Acks before move progress after
  /-- The result of a frame is delivered first. -/
  | delivers {frame : Frame} {delivery : Delivery} {after : Hub}
      (spares : before.SparesAcks after) :
      Acks before (.call (.receive frame))
        (.waits (.deliver delivery (.reply (before.ackLink frame)))) after
  /-- A unit of the ack guard is taken, and the acknowledgment is sent. -/
  | sends {move : Move} {live : LiveLink} {after : Hub} (source : WorkSource) (now : Duration)
      (wanted : move.ackLink before = some live) (untaken : move.takesAck = false)
      (unit : after.station.governor.ack =
        (before.station.governor.ack.acquire .ack source now).1)
      (counted : after.station.counters.localAcks = before.station.counters.localAcks) :
      Acks before move (.waits (.sendAck live)) after
  /-- The radio took the acknowledgment. -/
  | taken {live : LiveLink} {after : Hub}
      (books : after.station.governor.ack = before.station.governor.ack)
      (counted : after.station.counters.localAcks = before.station.counters.localAcks + 1) :
      Acks before (.answer (.sendAck live) (Except.ok ())) (.ends .handled) after

/-- A transition that has nothing to do with acknowledgments. -/
theorem acks_of_bystands {move : Move} {transition : Clocked Hub Progress}
    (h : wp transition (Bystands base) (fun _ => True) hub) (wanted : move.ackLink base = none)
    (untaken : move.takesAck = false) : wp transition (Acks base move) (fun _ => True) hub :=
  h.mono (fun _ _ hafter => .bystands wanted untaken hafter) fun _ h => h

theorem acks_acknowledge {move : Move} {live : Option LiveLink} (h : base.SparesAcks hub)
    (wanted : move.ackLink base = live) (untaken : move.takesAck = false) :
    wp (acknowledge live) (Acks base move) (fun _ => True) hub := by
  cases live with
  | none => exact .bystands wanted untaken ⟨rfl, rfl, h⟩
  | some live =>
      simp only [acknowledge, wp_bind, wp_get, Hub.wp_atStation]
      refine Station.wp_acquire (fun timeline => ?_) trivial
      refine .sends hub.station.settings.ackSource hub.station.reading wanted untaken ?_ h.counted
      rw [← h.books]
      rfl

theorem acks_receive (h : hub.station.ledger.AckFree) (frame : Frame) :
    wp (receive frame) (Acks hub (.call (.receive frame))) (fun _ => True) hub := by
  simp only [receive, wp_bind, wp_get, Hub.wp_atStation]
  refine (Station.SparesAcks.refl h).wp_receive fun reception t ht => ?_
  cases reception with
  | replied serial delivery => exact .delivers ht
  | _ => exact acks_acknowledge ht rfl rfl

/-- Every answer to an outgoing call.  What the call has still to fail holds no unit of the ack
guard. -/
theorem acks_answered (h : hub.station.ledger.AckFree) {call : Outgoing} (answer : call.Answer)
    (hfree : ∀ request ∈ call.carried, request.AckFree) :
    wp (answered call answer) (Acks hub (.answer call answer)) (fun _ => True) hub := by
  have hspares : hub.SparesAcks hub := Station.SparesAcks.refl h
  cases call with
  | bind cookie use =>
      exact acks_of_bystands (bystands_bindAnswered hspares cookie use answer) rfl rfl
  | send live serial kind payload =>
      cases answer with
      | ok done => exact .bystands rfl rfl ⟨rfl, rfl, hspares⟩
      | error fault =>
          exact acks_of_bystands (bystands_die hspares live.epoch _) rfl rfl
  | deliver delivery use =>
      cases use with
      | reply live => exact acks_acknowledge hspares rfl rfl
      | refusal serial => exact .bystands rfl rfl ⟨rfl, rfl, hspares⟩
      | drain rest use =>
          exact acks_of_bystands (bystands_drainNext hspares hfree use) rfl rfl
      | deadline => exact .bystands rfl rfl ⟨rfl, rfl, hspares⟩
  | sendAck live =>
      cases answer with
      | ok done =>
          simp only [answered, wp_bind, record, Hub.wp_atStation]
          refine Station.wp_record (fun recorder hcounted => ?_) fun _ => trivial
          exact .taken rfl (congrArg Counters.localAcks hcounted)
      | error fault =>
          exact acks_of_bystands (bystands_die hspares live.epoch _) rfl rfl

end Hub

end ModemLink
