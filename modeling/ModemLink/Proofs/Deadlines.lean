import ModemLink.Proofs.Placing
import ModemLink.Proofs.Rearming

/-!
# Requests and their deadlines

A deadline is set in one place only: right before the command of its request is put on a link.  And
it lets a request time out in one place only: where its task is run, in the epoch it was set in.
Whatever else happens takes requests out of the ledger, or acknowledges them, and leaves the timers
of the deadlines where they are.

* `Timeline.Gains` -- timers were added to a queue, none was taken off;
* `Station.Idles`, `Station.Wanes` -- nothing happens to requests and deadlines, or requests only
  leave;
* `Hub.Deals` -- what a transition does to requests, deadlines and the epoch: six ways, and
  `Hub.deals_submit`, `Hub.deals_answered` and the others show that there are no more;
* `Hub.Lapses` -- what the task of a deadline does.
-/

namespace ModemLink

/-- Whether a task is the deadline of a request. -/
def Task.IsDeadline : Task → Prop
  | .deadline _ _ _ => True
  | _ => False

namespace Timeline

variable {α : Type} {condition : Timer α → Prop} {timeline after : Timeline α} {delay : Duration}
  {task : α}

/-- The number of every timer in the queue has been given out. -/
def Numbered (timeline : Timeline α) : Prop :=
  ∀ timer ∈ timeline.queue, timer.order < timeline.nextOrder

/-- Timers that satisfy a condition were added to a queue.  None was taken off, and the clock
stands. -/
structure Gains (condition : Timer α → Prop) (before after : Timeline α) : Prop where
  now : after.now = before.now
  next : before.nextOrder ≤ after.nextOrder
  ordered : before.Ordered → after.Ordered
  numbered : before.Numbered → after.Numbered
  kept : ∀ timer ∈ before.queue, timer ∈ after.queue
  added : ∀ timer ∈ after.queue, timer ∈ before.queue ∨ condition timer

instance : IsPreorder (Timeline α) (Gains condition) where
  refl _ := ⟨rfl, Nat.le_refl _, id, id, fun _ h => h, fun _ h => .inl h⟩
  trans _ _ _ hab hbc :=
    ⟨hbc.now.trans hab.now, Nat.le_trans hab.next hbc.next, hbc.ordered ∘ hab.ordered,
      hbc.numbered ∘ hab.numbered,
      fun timer hmem => hbc.kept timer (hab.kept timer hmem),
      fun timer hmem => (hbc.added timer hmem).elim (hab.added timer) .inr⟩

theorem Gains.imp {condition' : Timer α → Prop} {before after : Timeline α}
    (h : Gains condition before after) (himp : ∀ timer, condition timer → condition' timer) :
    Gains condition' before after :=
  { h with added := fun timer hmem => (h.added timer hmem).imp_right (himp timer) }

/-- What is scheduled is one timer more, with the next number. -/
theorem mem_queue_schedule (h : timeline.schedule delay task = .ok after) :
    ∃ timer : Timer α, timer.task = task ∧
      timer.deadline.nanos = timeline.now.nanos + delay.nanos ∧
      timer.order = timeline.nextOrder ∧
      ∀ other, other ∈ after.queue ↔ other = timer ∨ other ∈ timeline.queue := by
  obtain ⟨deadline, hdeadline, rfl⟩ := schedule_eq_ok h
  refine ⟨⟨deadline, timeline.nextOrder, task⟩, rfl, hdeadline, rfl, fun other => ?_⟩
  exact (perm_enqueue _ _).mem_iff.trans List.mem_cons

theorem Gains.schedule (h : timeline.schedule delay task = .ok after)
    (hcondition : ∀ timer : Timer α, timer.task = task →
      timer.deadline.nanos = timeline.now.nanos + delay.nanos →
      timer.order = timeline.nextOrder → condition timer) :
    Gains condition timeline after := by
  obtain ⟨timer, htask, hdue, horder, hmem⟩ := mem_queue_schedule h
  obtain ⟨deadline, -, heq⟩ := schedule_eq_ok h
  have hnow : after.now = timeline.now := by rw [heq]
  have hnext : after.nextOrder = timeline.nextOrder + 1 := by rw [heq]
  refine ⟨hnow, by omega, fun hordered => hordered.schedule h, fun hnumbered other hother => ?_,
    fun other hother => (hmem other).mpr (.inr hother), fun other hother => ?_⟩
  · rw [hnext]
    rcases (hmem other).mp hother with rfl | hold
    · omega
    · have := hnumbered other hold
      omega
  · rcases (hmem other).mp hother with rfl | hold
    · exact .inr (hcondition _ htask hdue horder)
    · exact .inl hold

end Timeline

/-! ## The ledger -/

namespace Ledger

/-- Requests leave the ledger or are acknowledged.  None enters it, and the counter of serials
stands. -/
structure Wanes (before after : Ledger) : Prop where
  counter : after.counter = before.counter
  wellFormed : before.WellFormed → after.WellFormed
  pending : before.WellFormed → ∀ request ∈ after.requests,
    ∃ old ∈ before.requests, old.identity = request.identity ∧
      old.submittedAt = request.submittedAt

instance : IsPreorder Ledger Wanes where
  refl _ := ⟨rfl, id, fun _ request hmem => ⟨request, hmem, rfl, rfl⟩⟩
  trans _ _ _ hab hbc := by
    refine ⟨hbc.counter.trans hab.counter, hbc.wellFormed ∘ hab.wellFormed,
      fun hwf request hmem => ?_⟩
    obtain ⟨old, hold, hsame, htime⟩ := hbc.pending (hab.wellFormed hwf) request hmem
    obtain ⟨older, holder, hsame', htime'⟩ := hab.pending hwf old hold
    exact ⟨older, holder, hsame'.trans hsame, htime'.trans htime⟩

theorem wanes_complete (ledger : Ledger) (serial : Serial) :
    Wanes ledger (ledger.complete serial).2 := by
  have hcounter := counter_complete ledger serial
  by_cases hwf : ledger.WellFormed
  · by_cases hnone : ∀ request ∈ ledger.requests, request.serial ≠ serial
    · rw [hwf.complete_of_none hnone]
      exact Std.Refl.refl ledger
    · push Not at hnone
      obtain ⟨request, hmem, rfl⟩ := hnone
      obtain ⟨after, heq, hout⟩ := hwf.complete_of_mem hmem
      rw [heq] at hcounter ⊢
      refine ⟨hcounter, fun _ => hout.wellFormed, fun _ other hother => ?_⟩
      exact ⟨other, hout.requests.mem_iff.mpr (List.mem_cons_of_mem _ hother), rfl, rfl⟩
  · exact ⟨hcounter, fun h => absurd h hwf, fun h => absurd h hwf⟩

theorem wanes_markAcked (ledger : Ledger) (serial : Serial) :
    Wanes ledger (ledger.markAcked serial).2 := by
  have hcounter := counter_markAcked ledger serial
  by_cases hwf : ledger.WellFormed
  · have hacked := hwf.acknowledged serial
    generalize ledger.markAcked serial = out at hacked hcounter ⊢
    obtain ⟨outcome, after⟩ := out
    cases hacked with
    | unknown _ => exact Std.Refl.refl _
    | duplicate _ _ _ => exact Std.Refl.refl _
    | @first request after hmem _ _ hwf' hrequests =>
        refine ⟨hcounter, fun _ => hwf', fun _ other hother => ?_⟩
        have hcase := List.mem_cons.mp (hrequests.mem_iff.mp (List.mem_cons_of_mem _ hother))
        rcases hcase with rfl | hold
        · exact ⟨request, hmem, rfl, rfl⟩
        · exact ⟨other, hold, rfl, rfl⟩
  · exact ⟨hcounter, fun h => absurd h hwf, fun h => absurd h hwf⟩

end Ledger

/-! ## The station -/

theorem Counters.timedOut_count {m : Measurement}
    (h : ∀ kind latency, m ≠ .completed kind .timedOut latency) (c : Counters) :
    (c.count m).timedOut = c.timedOut := by
  cases m with
  | completed kind outcome latency =>
      cases outcome with
      | timedOut => exact absurd rfl (h kind latency)
      | _ => rfl
  | bind success => cases success <;> rfl
  | _ => rfl

namespace Station

open Clocked

/-- Nothing happens to the requests of a station and to their deadlines. -/
structure Idles (before after : Station) : Prop where
  settings : after.settings = before.settings
  clock : after.clock = before.clock
  ledger : after.ledger = before.ledger
  timedOut : after.counters.timedOut = before.counters.timedOut
  timeline : Timeline.Gains (fun timer => ¬ timer.task.IsDeadline) before.timeline after.timeline

/-- Requests of a station may leave its ledger, but none of them times out, and no deadline is
set. -/
structure Wanes (before after : Station) : Prop where
  settings : after.settings = before.settings
  clock : after.clock = before.clock
  ledger : before.ledger.Wanes after.ledger
  timedOut : after.counters.timedOut = before.counters.timedOut
  timeline : Timeline.Gains (fun timer => ¬ timer.task.IsDeadline) before.timeline after.timeline

instance : IsPreorder Station Idles where
  refl s := ⟨rfl, rfl, rfl, rfl, Std.Refl.refl s.timeline⟩
  trans _ _ _ hab hbc :=
    ⟨hbc.settings.trans hab.settings, hbc.clock.trans hab.clock, hbc.ledger.trans hab.ledger,
      hbc.timedOut.trans hab.timedOut, IsTrans.trans _ _ _ hab.timeline hbc.timeline⟩

instance : IsPreorder Station Wanes where
  refl s := ⟨rfl, rfl, Std.Refl.refl s.ledger, rfl, Std.Refl.refl s.timeline⟩
  trans _ _ _ hab hbc :=
    ⟨hbc.settings.trans hab.settings, hbc.clock.trans hab.clock,
        IsTrans.trans _ _ _ hab.ledger hbc.ledger,
      hbc.timedOut.trans hab.timedOut, IsTrans.trans _ _ _ hab.timeline hbc.timeline⟩

theorem Idles.wanes {s t : Station} (h : Idles s t) : Wanes s t := by
  refine ⟨h.settings, h.clock, ?_, h.timedOut, h.timeline⟩
  rw [h.ledger]
  exact Std.Refl.refl s.ledger

theorem idles_record {m : Measurement} (h : ∀ kind latency, m ≠ .completed kind .timedOut latency) :
    Leads Idles (record m) := by
  refine fun s => wp_record (fun recorder hrecorder => ?_) fun _ => trivial
  refine ⟨rfl, rfl, rfl, ?_, Std.Refl.refl s.timeline⟩
  change recorder.books.counters.timedOut = s.counters.timedOut
  rw [hrecorder]
  exact Counters.timedOut_count h _

theorem idles_schedule (delay : Duration) {task : Task} (h : ¬ task.IsDeadline) :
    Leads Idles (schedule delay task) := by
  refine fun s => wp_schedule (fun timeline hscheduled => ?_) trivial
  refine ⟨rfl, rfl, rfl, rfl, .schedule hscheduled fun timer htask _ _ => ?_⟩
  rwa [htask]

theorem idles_governor (s : Station) (governor : Governor) : Idles s { s with governor } :=
  ⟨rfl, rfl, rfl, rfl, Std.Refl.refl s.timeline⟩

theorem idles_acquire (guard : Guard) (source : WorkSource) : Leads Idles (acquire guard source) :=
  moves_acquire idles_governor (fun _ _ _ => idles_schedule _ id) guard source

theorem idles_expire (guard : Guard) (sequence : Nat) : Leads Idles (expire guard sequence) :=
  moves_expire idles_governor (fun _ _ => trivial) (idles_record (by simp)) sequence

theorem idles_settle {outcome : Outcome} (h : outcome ≠ .timedOut) (request : PendingRequest)
    (result : RequestResult) : Leads Idles (settle request result outcome) :=
  moves_settle (moves_release idles_governor fun _ _ => trivial)
    (fun _ _ => idles_record (by simp [h])) request result

theorem wanes_of_idles {α : Type} {act : Clocked Station α} (h : Leads Idles act) :
    Leads Wanes act :=
  h.imp fun _ _ => Idles.wanes

theorem wanes_ledger {s : Station} {ledger : Ledger} (h : s.ledger.Wanes ledger) :
    Wanes s { s with ledger } :=
  ⟨rfl, rfl, h, rfl, Std.Refl.refl s.timeline⟩

theorem wanes_complete (serial : Serial) : Leads Wanes (complete serial) := by
  intro s
  change Wanes s { s with ledger := (s.ledger.complete serial).2 }
  exact wanes_ledger (Ledger.wanes_complete _ _)

theorem wanes_receive (frame : Frame) : Leads Wanes (receive frame) :=
  moves_receive (moves_release (fun s governor => (idles_governor s governor).wanes)
      fun _ _ => trivial)
    (fun s _ => ⟨rfl, rfl, Std.Refl.refl s.ledger, rfl, Std.Refl.refl s.timeline⟩)
    (fun _ _ => wanes_ledger (Ledger.wanes_markAcked _ _)) wanes_complete
    (fun _ h => wanes_of_idles (idles_record h)) frame

/-- A request enters the ledger under a serial that no other one has, and the counter is moved on
behind that serial. -/
structure Enrolls (kind : RequestKind) (target : TargetId) (serial : Serial)
    (before after : Station) : Prop where
  settings : after.settings = before.settings
  clock : after.clock = before.clock
  timedOut : after.counters.timedOut = before.counters.timedOut
  timeline : after.timeline = before.timeline
  wellFormed : after.ledger.WellFormed
  fresh : ∀ request ∈ before.ledger.requests, request.serial ≠ serial
  pending : ∀ request ∈ after.ledger.requests, request ∈ before.ledger.requests ∨
    (request.serial = serial ∧ request.kind = kind ∧ request.target = target ∧
      request.submittedAt = before.reading)
  counter : ∃ steps < Serial.space, (before.ledger.counter.after steps).peek = serial ∧
    after.ledger.counter = before.ledger.counter.after (steps + 1)

theorem wp_enrolls {s : Station} {kind : RequestKind} {target : TargetId} {source : WorkSource}
    {ticket : Option Ticket} {post : Serial → Station → Prop} {cut : Station → Prop}
    (hwf : s.ledger.WellFormed) (hroom : s.ledger.size < Serial.space)
    (h : ∀ serial t, Enrolls kind target serial s t → post serial t) :
    wp (enroll kind target source ticket) post cut s := by
  rw [wp_enroll]
  refine h _ _ ⟨rfl, rfl, rfl, rfl, hwf.enroll hroom _, hwf.serial_enroll_ne hroom _,
    fun request hmem => ?_, ?_⟩
  · rcases List.mem_cons.mp ((hwf.perm_requests_enroll _).mem_iff.mp hmem) with rfl | hold
    · exact .inr ⟨rfl, rfl, rfl, rfl⟩
    · exact .inl hold
  · obtain ⟨steps, hsteps, heq, -⟩ :=
      Ledger.freeSerial_spec s.ledger.index s.ledger.index.size s.ledger.counter
    have hlt := Nat.lt_of_le_of_lt hwf.size_index_le hroom
    refine ⟨steps, Nat.lt_of_le_of_lt hsteps hlt, ?_, ?_⟩
    · rw [Ledger.enroll_fst, heq, SerialCounter.issue_fst]
    · rw [Ledger.enroll_snd]
      change (Ledger.freeSerial _ _ _).2 = _
      rw [heq, SerialCounter.issue_snd]
      exact SerialCounter.next_after _ _

/-- The deadline of a request is set, if its kind has one. -/
structure Arms (serial : Serial) (kind : RequestKind) (epoch : Epoch) (before after : Station) :
    Prop where
  settings : after.settings = before.settings
  clock : after.clock = before.clock
  ledger : after.ledger = before.ledger
  timedOut : after.counters.timedOut = before.counters.timedOut
  timeline : Timeline.Gains
    (fun timer => before.hasDeadline kind = true ∧ timer.task = .deadline serial kind epoch ∧
      timer.deadline.nanos = before.now.nanos + before.settings.deadline.nanos ∧
      timer.order = before.timeline.nextOrder) before.timeline after.timeline
  set : before.hasDeadline kind = true → ∃ timer ∈ after.timeline.queue,
    timer.task = .deadline serial kind epoch ∧
      timer.deadline.nanos = before.now.nanos + before.settings.deadline.nanos

theorem wp_arm {s : Station} {serial : Serial} {kind : RequestKind} {epoch : Epoch}
    {post : Bool → Station → Prop} {cut : Station → Prop}
    (h : ∀ armed t, Arms serial kind epoch s t → post armed t) (hcut : cut s) :
    wp (arm serial kind epoch) post cut s := by
  simp only [arm, wp_bind, wp_get]
  split
  · rename_i hdeadline
    rw [wp_bind]
    refine wp_schedule (fun timeline hscheduled => ?_) hcut
    refine h true _ ⟨rfl, rfl, rfl, rfl, ?_, fun _ => ?_⟩
    · exact .schedule hscheduled fun _ htask hdue horder => ⟨hdeadline, htask, hdue, horder⟩
    · obtain ⟨timer, htask, hdue, -, hmem⟩ := Timeline.mem_queue_schedule hscheduled
      exact ⟨timer, (hmem timer).mpr (.inl rfl), htask, hdue⟩
  · rename_i hnone
    exact h false s ⟨rfl, rfl, rfl, rfl, Std.Refl.refl s.timeline, fun hdeadline =>
      absurd hdeadline hnone⟩

/-- Every request leaves the ledger, and no deadline is set. -/
structure Drains (before after : Station) : Prop where
  settings : after.settings = before.settings
  clock : after.clock = before.clock
  timedOut : after.counters.timedOut = before.counters.timedOut
  timeline : Timeline.Gains (fun timer => ¬ timer.task.IsDeadline) before.timeline after.timeline
  wellFormed : after.ledger.WellFormed
  empty : after.ledger.requests = []

theorem wp_drains {s : Station} {post : List PendingRequest → Station → Prop}
    (h : ∀ drained t, Drains s t → post drained t) : wp drainAll post (fun _ => True) s := by
  simp only [drainAll, wp_bind, wp_get, wp_set]
  refine (idles_record (by simp)).mono (Std.Refl.refl _) fun _ t ht => h _ t ?_
  refine ⟨ht.settings, ht.clock, ht.timedOut, ht.timeline, ?_, ?_⟩
  · rw [ht.ledger]
    exact Ledger.wellFormed_snd_drain _
  · rw [ht.ledger]
    exact Ledger.requests_snd_drain _

/-- No request comes back afterwards. -/
theorem Drains.wanes {s t u : Station} (h : Drains s t) (hwanes : Wanes t u) : Drains s u := by
  refine ⟨hwanes.settings.trans h.settings, hwanes.clock.trans h.clock,
      hwanes.timedOut.trans h.timedOut,
    IsTrans.trans _ _ _ h.timeline hwanes.timeline, hwanes.ledger.wellFormed h.wellFormed, ?_⟩
  refine List.eq_nil_iff_forall_not_mem.mpr fun request hmem => ?_
  obtain ⟨old, hold, -⟩ := hwanes.ledger.pending h.wellFormed request hmem
  rw [h.empty] at hold
  cases hold

/-- A completion, seen both as a completion and as a step towards fewer requests. -/
theorem wp_complete_wanes {s : Station} {serial : Serial}
    {post : Option PendingRequest → Station → Prop} {cut : Station → Prop}
    (hwf : s.ledger.WellFormed)
    (hnone : (∀ request ∈ s.ledger.requests, request.serial ≠ serial) → post none s)
    (hsome : ∀ request ∈ s.ledger.requests, request.serial = serial → ∀ ledger,
      Ledger.Completed s.ledger request ledger → s.ledger.Wanes ledger →
      post (some request) { s with ledger }) : wp (complete serial) post cut s := by
  have hwanes := Ledger.wanes_complete s.ledger serial
  change post (s.ledger.complete serial).1 { s with ledger := (s.ledger.complete serial).2 }
  by_cases hall : ∀ request ∈ s.ledger.requests, request.serial ≠ serial
  · rw [hwf.complete_of_none hall]
    exact hnone hall
  · push Not at hall
    obtain ⟨request, hmem, rfl⟩ := hall
    obtain ⟨after, heq, hcompleted⟩ := hwf.complete_of_mem hmem
    rw [heq] at hwanes ⊢
    exact hsome request hmem rfl after hcompleted hwanes

end Station

/-! ## The transitions -/

/-- Whether a call that waits is a bind that is wanted for a request. -/
def Outgoing.Seeks (identity : Identity) : Outgoing → Prop
  | .bind _ use => use.Wants identity
  | _ => False

/-- Whether a move answers a bind that was wanted for a request. -/
def Move.Sought (identity : Identity) : Move → Prop
  | .answer outgoing _ => outgoing.Seeks identity
  | _ => False

/-- A bind that ends well is the present one. -/
theorem Link.endBind_ok {link : Link} {cookie : Epoch} {answer : Except LinkFault Handle}
    {live : LiveLink} (h : (link.endBind cookie answer).1 = .ok live) : link.epoch = cookie := by
  cases answer with
  | error fault => cases h
  | ok handle =>
      by_contra hne
      simp [Link.endBind, hne] at h

namespace Hub

open Clocked

/-- The timers of a hub. -/
abbrev timers (hub : Hub) : List (Timer Task) := hub.station.timeline.queue

/-- Requests may leave, but none times out and no deadline is set; the epoch stays, and a live link
stays live. -/
structure Eases (before after : Hub) : Prop where
  station : before.station.Wanes after.station
  epoch : after.link.epoch = before.link.epoch
  live : before.link.current.isSome → after.link.current.isSome

namespace Eases

variable {base hub : Hub}

theorem refl (hub : Hub) : Eases hub hub :=
  ⟨Std.Refl.refl hub.station, rfl, id⟩

theorem atStation {station : Station} (h : Eases base hub) (hwanes : hub.station.Wanes station) :
    Eases base { hub with station } :=
  ⟨IsTrans.trans _ _ _ h.station hwanes, h.epoch, h.live⟩

theorem wp_atStation {α : Type} {act : Clocked Station α} {post : α → Hub → Prop}
    (h : Eases base hub) (hact : Leads Station.Wanes act)
    (hpost : ∀ a station, Eases base { hub with station } → post a { hub with station }) :
    wp (Hub.atStation act) post (fun _ => True) hub := by
  rw [Hub.wp_atStation]
  exact (hact hub.station).mono (fun a station hwanes => hpost a station (h.atStation hwanes))
    fun _ _ => trivial

theorem wp_scheduleReconnect {post : Unit → Hub → Prop} (h : Eases base hub)
    (hpost : ∀ after, Eases base after → post () after) :
    wp scheduleReconnect post (fun _ => True) hub := by
  simp only [scheduleReconnect, wp_bind, wp_get, Link.armRetry]
  split
  · exact hpost hub h
  · rename_i link hlink
    obtain rfl : { hub.link with retryArmed := true } = link := by
      split at hlink
      · cases hlink
      · exact Option.some.inj hlink
    simp only [wp_bind, wp_set]
    have hnoted : Eases base { hub with link := { hub.link with retryArmed := true } } :=
      ⟨h.station, h.epoch, h.live⟩
    exact hnoted.wp_atStation (Station.wanes_of_idles (Station.idles_schedule _ id))
      fun _ station hstation => hpost _ hstation

theorem wp_acknowledge (h : Eases base hub) (live : Option LiveLink) :
    wp (acknowledge live) (fun progress after => Eases base after ∧ progress.binds = false)
      (fun _ => True) hub := by
  cases live with
  | none => exact ⟨h, rfl⟩
  | some live =>
      simp only [acknowledge, wp_bind, wp_get]
      exact h.wp_atStation (Station.wanes_of_idles (Station.idles_acquire _ _))
        fun _ _ hstation => ⟨hstation, rfl⟩

theorem wp_receive (h : Eases base hub) (frame : Frame) :
    wp (receive frame) (fun progress after => Eases base after ∧ progress.binds = false)
      (fun _ => True) hub := by
  simp only [receive, wp_bind, wp_get]
  refine h.wp_atStation (Station.wanes_receive frame) fun reception station hstation => ?_
  cases reception with
  | replied serial delivery => exact ⟨hstation, rfl⟩
  | _ => exact hstation.wp_acknowledge _

theorem wp_drainNext (h : Eases base hub) (requests : List PendingRequest) (use : DeathUse) :
    wp (drainNext requests use) (fun progress after => Eases base after ∧ progress.binds = false)
      (fun _ => True) hub := by
  cases requests with
  | nil =>
      simp only [drainNext, wp_bind]
      exact h.wp_scheduleReconnect fun after hafter => ⟨hafter, rfl⟩
  | cons request rest =>
      simp only [drainNext, wp_bind]
      exact h.wp_atStation (Station.wanes_of_idles (Station.idles_settle (by simp) _ _))
        fun _ _ hstation => ⟨hstation, rfl⟩

end Eases

/-- What a transition other than a deadline does to requests, deadlines and the epoch. -/
inductive Deals (before : Hub) : Move → Progress → Hub → Prop
  /-- No request is entered or sent; one whose bind has failed leaves. -/
  | eases {move : Move} {progress : Progress} {after : Hub} (eases : before.Eases after)
      (binds : progress.binds = false) (submitted : move.submitted = [])
      (left : ∀ request ∈ after.ledger.requests, ¬ move.Sought request.identity) :
      Deals before move progress after
  /-- A bind begins that is wanted for no request. -/
  | renews {move : Move} {use : BindUse} {after : Hub} (plain : ∀ identity, ¬ use.Wants identity)
      (calm : ∀ identity, ¬ move.Sought identity) (free : before.link.current = none)
      (station : before.station.Wanes after.station)
      (epoch : after.link.epoch = before.link.epoch.next) :
      Deals before move (.waits (.bind before.link.epoch.next use)) after
  /-- The link dies, and all requests leave. -/
  | dies {move : Move} {progress : Progress} {after : Hub}
      (drains : before.station.Drains after.station) (binds : progress.binds = false)
      (epoch : after.link.epoch = before.link.epoch.next) : Deals before move progress after
  /-- A request is entered, its deadline is set, and it is sent on the live link. -/
  | sends {kind : RequestKind} {payload : Payload} {target : TargetId} {source : Option WorkSource}
      {live : LiveLink} {serial : Serial} {idle entered : Station} {after : Hub}
      (idles : before.station.Idles idle) (enrolls : idle.Enrolls kind target serial entered)
      (arms : entered.Arms serial kind live.epoch after.station)
      (current : before.link.current = some live) (link : after.link = before.link) :
      Deals before (.call (.submit kind payload target source))
        (.waits (.send live serial kind payload)) after
  /-- A request is entered, and a bind begins that is wanted for it. -/
  | seeks {kind : RequestKind} {payload : Payload} {target : TargetId} {source : Option WorkSource}
      {serial : Serial} {idle : Station} {after : Hub}
      (idles : before.station.Idles idle)
      (enrolls : idle.Enrolls kind target serial after.station)
      (free : before.link.current = none) (epoch : after.link.epoch = before.link.epoch.next) :
      Deals before (.call (.submit kind payload target source))
        (.waits (.bind before.link.epoch.next (.submission serial kind payload))) after
  /-- A bind ends well that was wanted for a request; its deadline is set, and it is sent. -/
  | grants {cookie : Epoch} {serial : Serial} {kind : RequestKind} {payload : Payload}
      {answer : Except LinkFault Handle} {live : LiveLink} {idle : Station} {after : Hub}
      (present : before.link.epoch = cookie) (wanes : before.station.Wanes idle)
      (arms : idle.Arms serial kind live.epoch after.station)
      (current : after.link.current = some live) (epoch : after.link.epoch = before.link.epoch) :
      Deals before (.answer (.bind cookie (.submission serial kind payload)) answer)
        (.waits (.send live serial kind payload)) after

variable {base hub : Hub} {move : Move}

/-- A transition that concerns no request. -/
theorem Deals.of_quiet {transition : Clocked Hub Progress}
    (h : wp transition (fun progress after => Eases base after ∧ progress.binds = false)
      (fun _ => True) hub)
    (hsubmitted : move.submitted = []) (hcalm : ∀ identity, ¬ move.Sought identity) :
    wp transition (Deals base move) (fun _ => True) hub :=
  h.mono (fun _ _ ⟨heases, hbinds⟩ => .eases heases hbinds hsubmitted fun _ _ => hcalm _)
    fun _ h => h

/-- What waits for a handle fails without one; what asks for one without a request has nothing to
do. -/
theorem deals_bound {use : BindUse} {answer : Except LinkFault LiveLink} (h : Eases base hub)
    (hwf : hub.ledger.WellFormed) (hsubmitted : move.submitted = [])
    (hplain : ∀ live, answer = .ok live → ∀ identity, ¬ use.Wants identity)
    (hsought : ∀ identity, move.Sought identity → use.Wants identity) :
    wp (bound use answer) (Deals base move) (fun _ => True) hub := by
  cases use with
  | connection => exact .eases h rfl hsubmitted fun request _ hsame => hsought _ hsame
  | retry => exact .eases h rfl hsubmitted fun request _ hsame => hsought _ hsame
  | submission serial kind payload =>
      cases answer with
      | ok live => exact absurd ⟨rfl, rfl⟩ (hplain live rfl (serial, kind, ⟨0⟩))
      | error fault =>
          simp only [bound, wp_bind, Hub.wp_atStation]
          refine Station.wp_complete_wanes hwf (fun hnone => ?_)
            fun request hmem hserial ledger hout hwanes => ?_
          · refine .eases h rfl hsubmitted fun other hother hsame => ?_
            exact hnone other hother (hsought _ hsame).1
          · have heased : Eases base { hub with station := { hub.station with ledger } } :=
              h.atStation (Station.wanes_ledger hwanes)
            simp only [wp_bind, Hub.wp_atStation]
            have hsettled : Leads Station.Idles
                (Station.settle request (.error .unavailable) .unavailable) :=
              Station.idles_settle (by simp) _ _
            refine (hsettled _).mono (fun _ station hidle => ?_) fun _ _ => trivial
            refine .eases (heased.atStation hidle.wanes) rfl hsubmitted
              fun other hother hsame => ?_
            rw [Hub.ledger, hidle.ledger] at hother
            exact hout.serial_ne hwf other hother ((hsought _ hsame).1.trans hserial.symm)

/-- A handle that is wanted for no request is there, or a bind begins. -/
theorem deals_bind {use : BindUse} (h : Eases base hub) (hlink : hub.link = base.link)
    (hwf : hub.ledger.WellFormed) (hplain : ∀ identity, ¬ use.Wants identity)
    (hsubmitted : move.submitted = []) (hcalm : ∀ identity, ¬ move.Sought identity) :
    wp (bind use) (Deals base move) (fun _ => True) hub := by
  simp only [bind, wp_bind, wp_get]
  split
  · exact deals_bound h hwf hsubmitted (fun _ _ => hplain)
      fun _ hsame => absurd hsame (hcalm _)
  · rename_i hnone
    rw [hlink] at hnone
    simp only [wp_bind, wp_set, wp_pure, hlink]
    exact .renews hplain hcalm hnone h.station rfl

theorem deals_submit {kind : RequestKind} {payload : Payload} {target : TargetId}
    {source : Option WorkSource} (hwf : hub.ledger.WellFormed)
    (hroom : hub.ledger.size < Serial.space) :
    wp (submit kind payload target source) (Deals hub (.call (.submit kind payload target source)))
      (fun _ => True) hub := by
  simp only [submit, wp_bind, wp_get, record, Hub.wp_atStation]
  refine (Station.idles_record (by simp)).mono (Std.Refl.refl hub.station) fun _ station h => ?_
  refine (Station.idles_acquire _ _).mono h fun ticket station h => ?_
  have hwf' : station.ledger.WellFormed := by rwa [h.ledger]
  have hroom' : station.ledger.size < Serial.space := by rwa [h.ledger]
  refine Station.wp_enrolls hwf' hroom' fun serial entered hentered => ?_
  simp only [bind, wp_bind, wp_get]
  split
  · rename_i live hlive
    simp only [bound, wp_bind, Hub.wp_atStation]
    exact Station.wp_arm (fun _ t hset => .sends h hentered hset hlive rfl) trivial
  · rename_i hnone
    simp only [wp_bind, wp_set, wp_pure]
    exact .seeks h hentered hnone rfl

theorem deals_die {cookie : Epoch} {use : DeathUse} (hsubmitted : move.submitted = [])
    (hcalm : ∀ identity, ¬ move.Sought identity) :
    wp (die cookie use) (Deals hub move) (fun _ => True) hub := by
  simp only [die, wp_bind, wp_get]
  split
  · exact .eases (.refl hub) rfl hsubmitted fun _ _ => hcalm _
  · rename_i link hdeath
    simp only [wp_bind, wp_set, Hub.wp_atStation]
    refine Station.wp_drains fun drained station hdrains => ?_
    refine ((Eases.refl { hub with link, station }).wp_drainNext drained use).mono
      (fun progress after h => ?_) fun _ h => h
    obtain ⟨heases, hbinds⟩ := h
    refine .dies (hdrains.wanes heases.station) hbinds ?_
    rw [heases.epoch]
    exact Link.epoch_confirmDeath hdeath

/-- The end of a bind.  The present one has no live link to lose. -/
theorem deals_bindAnswered {cookie : Epoch} {use : BindUse} {answer : Except LinkFault Handle}
    (hwf : hub.ledger.WellFormed) (hfree : hub.link.epoch = cookie → hub.link.current = none) :
    wp (bindAnswered cookie use answer) (Deals hub (.answer (.bind cookie use) answer))
      (fun _ => True) hub := by
  have hended : Eases hub { hub with link := (hub.link.endBind cookie answer).2 } := by
    refine ⟨Std.Refl.refl hub.station, Link.epoch_endBind _ _ _, fun hlive => ?_⟩
    by_cases hepoch : hub.link.epoch = cookie
    · rw [hfree hepoch] at hlive
      cases hlive
    · rw [Link.endBind_of_stale hepoch]
      exact hlive
  simp only [bindAnswered, wp_bind, wp_get, wp_set, record]
  split
  · rename_i live hlive
    simp only [wp_bind]
    rw [hlive]
    refine hended.wp_atStation (Station.wanes_of_idles (Station.idles_record (by simp)))
      fun _ station heased => ?_
    cases use with
    | connection =>
        exact deals_bound heased (heased.station.ledger.wellFormed hwf) rfl (fun _ _ _ => id)
          fun _ => id
    | retry =>
        exact deals_bound heased (heased.station.ledger.wellFormed hwf) rfl (fun _ _ _ => id)
          fun _ => id
    | submission serial kind payload =>
        simp only [bound, wp_bind, Hub.wp_atStation]
        refine Station.wp_arm (fun _ t hset => ?_) trivial
        exact .grants (Link.endBind_ok hlive) heased.station hset (Link.current_endBind hlive)
          (Link.epoch_endBind _ _ _)
  · rename_i fault hfault
    simp only [wp_bind]
    refine hended.wp_atStation (Station.wanes_of_idles (Station.idles_record (by simp)))
      fun _ station heased => ?_
    refine heased.wp_scheduleReconnect fun after heased => ?_
    rw [hfault]
    exact deals_bound heased (heased.station.ledger.wellFormed hwf) rfl (by simp) fun _ => id

/-- Every answer to an outgoing call. -/
theorem deals_answered {call : Outgoing} {answer : call.Answer} (hwf : hub.ledger.WellFormed)
    (hfree : hub.link.epoch ∈ call.cookie? → hub.link.current = none) :
    wp (answered call answer) (Deals hub (.answer call answer)) (fun _ => True) hub := by
  cases call with
  | bind cookie use => exact deals_bindAnswered hwf fun heq => hfree (by rw [heq]; rfl)
  | send live serial kind payload =>
      cases answer with
      | ok done => exact .eases (.refl hub) rfl rfl fun _ _ => id
      | error fault => exact deals_die rfl fun _ => id
  | deliver delivery use =>
      cases use with
      | reply live => exact Deals.of_quiet ((Eases.refl hub).wp_acknowledge live) rfl fun _ => id
      | refusal serial => exact .eases (.refl hub) rfl rfl fun _ _ => id
      | drain rest use =>
          exact Deals.of_quiet ((Eases.refl hub).wp_drainNext rest use) rfl fun _ => id
      | deadline => exact .eases (.refl hub) rfl rfl fun _ _ => id
  | sendAck live =>
      cases answer with
      | ok done =>
          simp only [answered, wp_bind, record]
          exact (Eases.refl hub).wp_atStation
            (Station.wanes_of_idles (Station.idles_record (by simp)))
            fun _ _ h => .eases h rfl rfl fun _ _ => id
      | error fault => exact deals_die rfl fun _ => id

/-- Every task but a deadline. -/
theorem deals_runTask {task : Task} (hother : ¬ task.IsDeadline) :
    wp (runTask task) (Deals hub .fire) (fun _ => True) hub := by
  cases task with
  | expiry guard sequence =>
      simp only [runTask, wp_bind]
      exact (Eases.refl hub).wp_atStation
        (Station.wanes_of_idles (Station.idles_expire _ _))
        fun _ _ h => .eases h rfl rfl fun _ _ => id
  | deadline serial kind sentIn => exact absurd trivial hother
  | reconnect =>
      have hdisarmed : Eases hub { hub with link := hub.link.disarmRetry } :=
        ⟨Std.Refl.refl hub.station, rfl, id⟩
      refine (wp_reconnect hub).mono (fun progress after hafter => ?_) fun _ h => h
      rcases hafter with ⟨-, rfl, hbinds⟩ | ⟨hunbound, rfl, rfl⟩
      · exact .eases hdisarmed hbinds rfl fun _ _ => id
      · exact .renews (fun _ => id) (fun _ => id) (Link.current_of_phase_ne hunbound)
          (Std.Refl.refl hub.station) rfl

/-- What the task of a deadline does: nothing, if its epoch is over or its request has left; or it
takes the request out and hands the neutral result of its kind to its target. -/
inductive Lapses (before : Hub) (serial : Serial) (sentIn : Epoch) : Progress → Hub → Prop
  | misses (missed : sentIn ≠ before.link.epoch ∨
      ∀ request ∈ before.ledger.requests, request.serial ≠ serial) :
      Lapses before serial sentIn (.ends .handled) before
  | completes {request : PendingRequest} {ledger : Ledger} {governor : Governor}
      {recorder : Recorder} (present : sentIn = before.link.epoch)
      (mem : request ∈ before.ledger.requests) (same : request.serial = serial)
      (completed : Ledger.Completed before.ledger request ledger)
      (wanes : before.ledger.Wanes ledger) :
      Lapses before serial sentIn
        (.waits (.deliver ⟨request.target, .ok (request.kind.neutralResult?.getD .empty)⟩
          .deadline))
        { before with station := { before.station with ledger, governor, recorder } }

theorem lapses_runTask {serial : Serial} {kind : RequestKind} {sentIn : Epoch}
    (hwf : hub.ledger.WellFormed) :
    wp (runTask (.deadline serial kind sentIn)) (Lapses hub serial sentIn) (fun _ => True)
      hub := by
  simp only [runTask, wp_bind, wp_get, Hub.wp_atStation, Station.overdue]
  split
  · rename_i hover
    exact .misses (.inl (Ne.symm hover))
  · rename_i hpresent
    rw [wp_bind]
    refine Station.wp_complete_wanes hwf (fun hnone => .misses (.inr hnone))
      fun request hmem hserial ledger hout hwanes => ?_
    rw [wp_bind]
    refine Station.wp_settle (fun governor recorder _ _ => ?_) fun _ _ => trivial
    exact .completes (not_not.mp hpresent).symm hmem hserial hout hwanes

end Hub

end ModemLink
