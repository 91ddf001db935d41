import ModemLink.Proofs.LiveLinks
import ModemLink.Proofs.Runs
import ModemLink.Proofs.TimerQueue

/-!
# The scheduled attempt to bind

A link notes whether an attempt to bind is scheduled, and the timeline holds the timer of it.  Both
change together and in one place only: where an attempt is scheduled, which happens after a failed
bind and after a death.  Whatever else a transition does, it leaves the clock, the note and the
timer alone, and it changes the link in one way at most: it begins a bind, ends one, or lets the
link die.

* `Hub.Rearms` -- what remains of a transition when its change of the link is set aside: an attempt
  may have been scheduled, nothing else concerns the link or its timer;
* `Hub.turn_bind`, `Hub.turn_bindAnswered`, `Hub.turn_die` and the others -- the change of the link
  that each transition makes.
-/

namespace ModemLink

open scoped List

namespace Link

/-- The end of a bind says nothing about the scheduled attempt. -/
theorem retryArmed_endBind (link : Link) (cookie : Epoch) (answer : Except LinkFault Handle) :
    (link.endBind cookie answer).2.retryArmed = link.retryArmed := by
  cases answer <;> simp only [endBind] <;> split <;> rfl

/-- Nor does a death. -/
theorem retryArmed_confirmDeath {link after : Link} {cookie : Epoch}
    (h : link.confirmDeath cookie = some after) : after.retryArmed = link.retryArmed := by
  unfold confirmDeath at h
  split at h
  · cases h
    rfl
  · cases h

end Link

namespace Station

open Clocked

/-- What happens to a station spares the scheduled attempt to bind. -/
abbrev SparesAttempt (before after : Station) : Prop :=
  Timeline.Spares Task.reconnect before.timeline after.timeline

instance : IsPreorder Station SparesAttempt where
  refl s := Std.Refl.refl s.timeline
  trans a b c := IsTrans.trans a.timeline b.timeline c.timeline

theorem SparesAttempt.of_timeline_eq {s t : Station} (h : t.timeline = s.timeline) :
    SparesAttempt s t := by
  unfold SparesAttempt
  rw [h]
  exact Std.Refl.refl s.timeline

/-- No timer that an action of the station sets is that of an attempt to bind. -/
theorem spares : Tends SparesAttempt where
  recorder _ _ := .of_timeline_eq rfl
  governor _ _ := .of_timeline_eq rfl
  subscribers _ _ := .of_timeline_eq rfl
  timeline _ _ _ _ hne hscheduled := Timeline.Spares.schedule hne hscheduled
  completed _ _ := .of_timeline_eq rfl
  marked _ _ := .of_timeline_eq rfl
  drained _ := .of_timeline_eq rfl

theorem spares_enroll (kind : RequestKind) (target : TargetId) (source : WorkSource)
    (ticket : Option Ticket) :
    Moves SparesAttempt SparesAttempt (enroll kind target source ticket) :=
  fun _ => wp_enroll.mpr (.of_timeline_eq rfl)

end Station

/-- Whether a transition ends with a bind that waits. -/
def Progress.binds : Progress → Bool
  | .waits (.bind _ _) => true
  | _ => false

/-- Whether a transition ends with the failing of a request because of a death. -/
def Progress.drains : Progress → Bool
  | .waits (.deliver _ (.drain _ _)) => true
  | _ => false

/-- The epoch whose link is dead according to a move: a report, or a command that could not be
sent. -/
def Move.death? : Move → Option Epoch
  | .call (.die cookie) => some cookie
  | .answer (.send live _ _ _) outcome =>
    match (outcome : Except LinkFault Unit) with
    | .ok () => none
    | .error _ => some live.epoch
  | .answer (.sendAck live) outcome =>
    match (outcome : Except LinkFault Unit) with
    | .ok () => none
    | .error _ => some live.epoch
  | _ => none

/-- Whether a move asks for a handle. -/
def Move.wantsHandle : Move → Bool
  | .call (.submit _ _ _ _) => true
  | .call .connect => true
  | _ => false

/-- Whether a move ends a bind, goes on failing requests after a death, or says that the link of an
epoch is dead. -/
def Move.disturbs (epoch : Epoch) (move : Move) : Bool :=
  match move with
  | .answer (.bind _ _) _ => true
  | .answer (.deliver _ (.drain _ _)) _ => true
  | _ => move.death? == some epoch

namespace Hub

open Clocked

/-- The timers of the next attempt to bind. -/
def attempts (hub : Hub) : List (Timer Task) := hub.station.timeline.timersOf .reconnect

/-- What remains of a transition when its change of the link is set aside.  The clock stands, and of
the link only the note of a scheduled attempt may change: with it comes a timer that is due after
the delay. -/
structure Rearms (before after : Hub) : Prop where
  delay : after.reconnectDelay = before.reconnectDelay
  now : after.station.now = before.station.now
  ordered : before.station.timeline.Ordered → after.station.timeline.Ordered
  link : after.link = { before.link with retryArmed := after.link.retryArmed }
  timer : (after.link.retryArmed = before.link.retryArmed ∧ after.attempts = before.attempts) ∨
    (before.link.retryArmed = false ∧ after.link.retryArmed = true ∧
      ∃ timer : Timer Task,
        timer.deadline.nanos = before.station.now.nanos + before.reconnectDelay.nanos ∧
        after.attempts ~ timer :: before.attempts)

namespace Rearms

variable {base hub after : Hub} {α : Type}

theorem refl (hub : Hub) : Rearms hub hub :=
  ⟨rfl, rfl, id, rfl, .inl ⟨rfl, rfl⟩⟩

theorem trans (h : Rearms base hub) (h' : Rearms hub after) : Rearms base after := by
  refine ⟨h'.delay.trans h.delay, h'.now.trans h.now, h'.ordered ∘ h.ordered, ?_, ?_⟩
  · rw [h'.link, h.link]
  · rcases h.timer with ⟨hnote, hkept⟩ | ⟨hfree, hnoted, timer, hdue, hmore⟩
    · rcases h'.timer with ⟨hnote', hkept'⟩ | ⟨hfree', hnoted', timer, hdue, hmore⟩
      · exact .inl ⟨hnote'.trans hnote, hkept'.trans hkept⟩
      · rw [hkept] at hmore
        rw [h.now, h.delay] at hdue
        exact .inr ⟨hnote ▸ hfree', hnoted', timer, hdue, hmore⟩
    · rcases h'.timer with ⟨hnote', hkept'⟩ | ⟨hfree', -⟩
      · exact .inr ⟨hfree, hnote'.trans hnoted, timer, hdue, hkept' ▸ hmore⟩
      · rw [hnoted] at hfree'
        cases hfree'

/-- Another link may be put in the place of the one that is there, on both sides. -/
theorem relink (h : Rearms base hub) (hlink : hub.link = base.link) (link : Link) :
    Rearms { base with link } { hub with link } := by
  refine ⟨h.delay, h.now, h.ordered, rfl, .inl ⟨rfl, ?_⟩⟩
  rcases h.timer with ⟨-, hkept⟩ | ⟨hfree, hnoted, -⟩
  · exact hkept
  · rw [hlink, hfree] at hnoted
    cases hnoted

/-- What the station does leaves the link alone. -/
theorem atStation {station : Station} (h : Rearms base hub)
    (hspares : Station.SparesAttempt hub.station station) :
    Rearms base { hub with station } :=
  h.trans ⟨rfl, hspares.now, hspares.ordered, rfl, .inl ⟨rfl, hspares.timers⟩⟩

theorem wp_atStation {act : Clocked Station α} {post : α → Hub → Prop} (h : Rearms base hub)
    {halted : Station → Station → Prop} (hact : Moves Station.SparesAttempt halted act)
    (hpost : ∀ a station, Rearms base { hub with station } → post a { hub with station }) :
    wp (Hub.atStation act) post (fun _ => True) hub := by
  rw [Hub.wp_atStation]
  exact (hact hub.station).mono (fun a station hspares => hpost a station (h.atStation hspares))
    fun _ _ => trivial

/-- Afterwards an attempt is scheduled. -/
theorem wp_scheduleReconnect {post : Unit → Hub → Prop} (h : Rearms base hub)
    (hpost : ∀ after : Hub, Rearms base after →
      after.link = { hub.link with retryArmed := true } → post () after) :
    wp scheduleReconnect post (fun _ => True) hub := by
  simp only [scheduleReconnect, wp_bind, wp_get, Link.armRetry]
  cases hnote : hub.link.retryArmed with
  | true =>
      simp only [if_true, wp_pure]
      exact hpost hub h (by rw [← hnote])
  | false =>
      simp only [Bool.false_eq_true, if_false, wp_bind, wp_set, Hub.wp_atStation]
      refine Station.wp_schedule (fun timeline hscheduled => ?_) trivial
      obtain ⟨timer, hdue, hmore⟩ := Timeline.perm_timersOf_schedule hscheduled
      refine hpost _ (h.trans ⟨rfl, ?_, fun hordered => hordered.schedule hscheduled, rfl,
        .inr ⟨hnote, rfl, timer, hdue, hmore⟩⟩) rfl
      obtain ⟨deadline, -, rfl⟩ := Timeline.schedule_eq_ok hscheduled
      rfl

end Rearms

variable {base hub : Hub}

/-! ## The change of the link -/

/-- What waits for a handle is sent on it or fails; the link is not changed. -/
theorem Rearms.wp_bound (h : Rearms base hub) (use : BindUse)
    (answer : Except LinkFault LiveLink) :
    wp (bound use answer)
      (fun progress after => Rearms base after ∧ after.link = hub.link ∧ progress.binds = false)
      (fun _ => True) hub := by
  cases use with
  | connection => exact ⟨h, rfl, rfl⟩
  | retry => exact ⟨h, rfl, rfl⟩
  | submission serial kind payload =>
      cases answer with
      | ok live =>
          simp only [bound, wp_bind]
          exact h.wp_atStation (Station.spares.arm _ _ _) fun _ station hstation =>
            ⟨hstation, rfl, rfl⟩
      | error fault =>
          simp only [bound, wp_bind]
          refine h.wp_atStation (Station.spares.complete serial) fun found station hstation => ?_
          cases found with
          | none => exact ⟨hstation, rfl, rfl⟩
          | some request =>
              simp only [wp_bind]
              exact hstation.wp_atStation (Station.spares.settle _ _ _) fun _ _ hsettled =>
                ⟨hsettled, rfl, rfl⟩

/-- A handle that is wanted is there, or a bind begins. -/
theorem Rearms.wp_bind (h : Rearms base hub) (use : BindUse) :
    wp (bind use)
      (fun progress after =>
        (Rearms base after ∧ after.link = hub.link ∧ progress.binds = false ∧
          hub.link.current.isSome) ∨
        (hub.link.current = none ∧ after = { hub with link := hub.link.beginBind } ∧
          progress = .waits (.bind hub.link.epoch.next use)))
      (fun _ => True) hub := by
  simp only [bind, Clocked.wp_bind, wp_get]
  split
  · rename_i live hlive
    refine (h.wp_bound use (.ok live)).mono (fun progress after hafter => .inl ?_) fun _ h => h
    obtain ⟨hrearms, hlink, hbinds⟩ := hafter
    exact ⟨hrearms, hlink, hbinds, by rw [hlive]; rfl⟩
  · rename_i hnone
    exact .inr ⟨hnone, rfl, rfl⟩

/-- What a transition makes of the link, by the move that runs it: it leaves the link alone, or it
begins a bind, ends one, lets the link die, or fails the next request after a death.  A failed bind
and a death leave an attempt scheduled, or further requests to fail. -/
inductive Turn (before : Hub) : Move → Progress → Hub → Prop
  | stays {move : Move} {progress : Progress} {after : Hub}
      (calm : move.disturbs before.link.epoch = false) (rearms : Rearms before after)
      (link : after.link = before.link) (binds : progress.binds = false) :
      Turn before move progress after
  | begins {move : Move} {after : Hub} (use : BindUse) (wanted : move.wantsHandle = true)
      (free : before.link.current = none)
      (rearms : Rearms { before with link := before.link.beginBind } after)
      (link : after.link = before.link.beginBind) :
      Turn before move (.waits (.bind before.link.epoch.next use)) after
  | ends {cookie : Epoch} {use : BindUse} {answer : Except LinkFault Handle}
      {progress : Progress} {after : Hub}
      (rearms : Rearms { before with link := (before.link.endBind cookie answer).2 } after)
      (recovers : after.link.phase = .bound ∨ after.link.retryArmed = true)
      (binds : progress.binds = false) :
      Turn before (.answer (.bind cookie use) answer) progress after
  | dies {move : Move} {cookie : Epoch} {link : Link} {progress : Progress} {after : Hub}
      (death : move.death? = some cookie) (confirmed : before.link.confirmDeath cookie = some link)
      (rearms : Rearms { before with link } after)
      (recovers : progress.drains = true ∨ after.link.retryArmed = true)
      (binds : progress.binds = false) : Turn before move progress after
  | drains {delivery : Delivery} {rest : List PendingRequest} {use : DeathUse}
      {progress : Progress} {after : Hub} (rearms : Rearms before after)
      (recovers : progress.drains = true ∨ after.link.retryArmed = true)
      (binds : progress.binds = false) :
      Turn before (.answer (.deliver delivery (.drain rest use)) ()) progress after

/-- A move that asks for a handle, and what it did before it asks. -/
theorem turn_bind {move : Move} (use : BindUse)
    (h : Rearms base hub) (hlink : hub.link = base.link)
    (calm : move.disturbs base.link.epoch = false) (wanted : move.wantsHandle = true) :
    wp (bind use) (Turn base move) (fun _ => True) hub := by
  refine (h.wp_bind use).mono (fun progress after hafter => ?_) fun _ h => h
  rcases hafter with ⟨hrearms, hsame, hbinds, -⟩ | ⟨hfree, rfl, rfl⟩
  · exact .stays calm hrearms (hsame.trans hlink) hbinds
  · rw [hlink] at hfree ⊢
    exact .begins use wanted hfree (h.relink hlink _) rfl

theorem turn_connect (hub : Hub) :
    wp (bind .connection) (Turn hub (.call .connect)) (fun _ => True) hub :=
  turn_bind .connection (.refl hub) rfl rfl rfl

theorem turn_submit (hub : Hub) (kind : RequestKind) (payload : Payload) (target : TargetId)
    (source : Option WorkSource) :
    wp (submit kind payload target source) (Turn hub (.call (.submit kind payload target source)))
      (fun _ => True) hub := by
  simp only [submit, Clocked.wp_bind, wp_get, record]
  refine (Rearms.refl hub).wp_atStation (Station.spares.record _) fun _ station h => ?_
  refine h.wp_atStation (Station.spares.acquire _ _) fun ticket station h => ?_
  refine h.wp_atStation (Station.spares_enroll _ _ _ _) fun serial station h => ?_
  exact turn_bind _ h rfl rfl rfl

theorem turn_acknowledge {move : Move} (live : Option LiveLink) (h : Rearms base hub)
    (hlink : hub.link = base.link) (calm : move.disturbs base.link.epoch = false) :
    wp (acknowledge live) (Turn base move) (fun _ => True) hub := by
  cases live with
  | none => exact .stays calm h hlink rfl
  | some live =>
      simp only [acknowledge, Clocked.wp_bind, wp_get]
      exact h.wp_atStation (Station.spares.acquire _ _) fun _ _ h => .stays calm h hlink rfl

theorem turn_receive (hub : Hub) (frame : Frame) :
    wp (receive frame) (Turn hub (.call (.receive frame))) (fun _ => True) hub := by
  simp only [receive, Clocked.wp_bind, wp_get]
  refine (Rearms.refl hub).wp_atStation (Station.spares.receive frame) fun reception _ h => ?_
  cases reception with
  | replied serial delivery => exact .stays rfl h rfl rfl
  | _ => exact turn_acknowledge _ h rfl rfl

/-- The failing of requests goes on, or an attempt is scheduled. -/
theorem Rearms.wp_drainNext (h : Rearms base hub) (requests : List PendingRequest)
    (use : DeathUse) :
    wp (drainNext requests use)
      (fun progress after => Rearms base after ∧
        (progress.drains = true ∨ after.link.retryArmed = true) ∧ progress.binds = false)
      (fun _ => True) hub := by
  cases requests with
  | nil =>
      simp only [drainNext, Clocked.wp_bind]
      exact h.wp_scheduleReconnect fun after hafter hlink =>
        ⟨hafter, .inr (by rw [hlink]), rfl⟩
  | cons request rest =>
      simp only [drainNext, Clocked.wp_bind]
      exact h.wp_atStation (Station.spares.settle _ _ _) fun _ _ hsettled =>
        ⟨hsettled, .inl rfl, rfl⟩

theorem turn_die {move : Move} {cookie : Epoch} (hub : Hub) (use : DeathUse)
    (death : move.death? = some cookie)
    (calm : cookie ≠ hub.link.epoch → move.disturbs hub.link.epoch = false) :
    wp (die cookie use) (Turn hub move) (fun _ => True) hub := by
  simp only [die, Clocked.wp_bind, wp_get]
  split
  · rename_i hstale
    refine .stays (calm fun heq => ?_) (.refl hub) rfl rfl
    simp [Link.confirmDeath, heq] at hstale
  · rename_i link hconfirmed
    simp only [Clocked.wp_bind, wp_set]
    refine (Rearms.refl _).wp_atStation Station.spares.drainAll fun drained _ h => ?_
    refine (h.wp_drainNext drained use).mono (fun progress after hafter => ?_) fun _ h => h
    obtain ⟨hrearms, hrecovers, hbinds⟩ := hafter
    exact .dies death hconfirmed hrearms hrecovers hbinds

theorem turn_bindAnswered (hub : Hub) (cookie : Epoch) (use : BindUse)
    (answer : Except LinkFault Handle) :
    wp (bindAnswered cookie use answer) (Turn hub (.answer (.bind cookie use) answer))
      (fun _ => True) hub := by
  have hcurrent : ∀ live, (hub.link.endBind cookie answer).1 = .ok live →
      (hub.link.endBind cookie answer).2.phase = .bound := fun live hlive =>
    (Link.current_eq_some (Link.current_endBind hlive)).1
  simp only [bindAnswered, Clocked.wp_bind, wp_get, wp_set, record]
  split
  · rename_i live hlive
    simp only [Clocked.wp_bind]
    refine (Rearms.refl _).wp_atStation (Station.spares.record _) fun _ station h => ?_
    refine (h.wp_bound use _).mono (fun progress after hafter => ?_) fun _ h => h
    obtain ⟨hrearms, hlink, hbinds⟩ := hafter
    exact .ends hrearms (.inl (by rw [hlink]; exact hcurrent live hlive)) hbinds
  · simp only [Clocked.wp_bind]
    refine (Rearms.refl _).wp_atStation (Station.spares.record _) fun _ station h => ?_
    refine h.wp_scheduleReconnect fun noted hnoted hlink => ?_
    refine (hnoted.wp_bound use _).mono (fun progress after hafter => ?_) fun _ h => h
    obtain ⟨hrearms, hsame, hbinds⟩ := hafter
    exact .ends hrearms (.inr (by rw [hsame, hlink])) hbinds

/-- Every answer to an outgoing call. -/
theorem turn_answered (hub : Hub) (call : Outgoing) (answer : call.Answer) :
    wp (answered call answer) (Turn hub (.answer call answer)) (fun _ => True) hub := by
  cases call with
  | bind cookie use => exact turn_bindAnswered hub cookie use answer
  | send live serial kind payload =>
      cases answer with
      | ok done => exact .stays rfl (.refl hub) rfl rfl
      | error fault => exact turn_die hub _ rfl fun hne => by simpa [Move.disturbs, Move.death?]
  | deliver delivery use =>
      cases use with
      | reply live => exact turn_acknowledge live (.refl hub) rfl rfl
      | refusal serial => exact .stays rfl (.refl hub) rfl rfl
      | drain rest use =>
          exact ((Rearms.refl hub).wp_drainNext rest use).mono
            (fun progress after ⟨hrearms, hrecovers, hbinds⟩ =>
              .drains hrearms hrecovers hbinds) fun _ h => h
      | deadline => exact .stays rfl (.refl hub) rfl rfl
  | sendAck live =>
      cases answer with
      | ok done =>
          simp only [answered, Clocked.wp_bind, record]
          exact (Rearms.refl hub).wp_atStation (Station.spares.record _) fun _ _ h =>
            .stays rfl h rfl rfl
      | error fault => exact turn_die hub _ rfl fun hne => by simpa [Move.disturbs, Move.death?]

/-- The tasks of the station leave the link alone. -/
theorem rearms_runTask (hub : Hub) {task : Task} (hne : task ≠ .reconnect) :
    wp (runTask task)
      (fun progress after =>
        Rearms hub after ∧ after.link = hub.link ∧ progress.binds = false)
      (fun _ => True) hub := by
  cases task with
  | expiry guard sequence =>
      simp only [runTask, Clocked.wp_bind]
      exact (Rearms.refl hub).wp_atStation (Station.spares.expire _ _)
        fun _ _ h => ⟨h, rfl, rfl⟩
  | deadline serial kind sentIn =>
      simp only [runTask, Clocked.wp_bind, wp_get]
      refine (Rearms.refl hub).wp_atStation (Station.spares.overdue _ _ _) fun found _ h => ?_
      cases found with
      | none => exact ⟨h, rfl, rfl⟩
      | some delivery => exact ⟨h, rfl, rfl⟩
  | reconnect => exact absurd rfl hne

/-- The scheduled attempt begins a bind, unless the link is bound. -/
theorem wp_reconnect (hub : Hub) :
    wp (runTask .reconnect)
      (fun progress after =>
        (hub.link.phase = .bound ∧ after = { hub with link := hub.link.disarmRetry } ∧
          progress.binds = false) ∨
        (hub.link.phase ≠ .bound ∧
          after = { hub with link := hub.link.disarmRetry.beginBind } ∧
          progress = .waits (.bind hub.link.epoch.next .retry)))
      (fun _ => True) hub := by
  simp only [runTask, Clocked.wp_bind, wp_get, wp_set]
  split
  · rename_i hbound
    exact .inl ⟨hbound, rfl, rfl⟩
  · rename_i hunbound
    have hnone : hub.link.disarmRetry.current = none := Link.current_of_phase_ne hunbound
    simp only [bind, Clocked.wp_bind, wp_get, hnone]
    exact .inr ⟨hunbound, rfl, rfl⟩

end Hub

end ModemLink
