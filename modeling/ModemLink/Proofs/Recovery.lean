import ModemLink.Proofs.Turns

/-!
# Recovery is always pending

If time moves only while no other call waits, the timer of the next attempt to bind is due no later
than the reconnection delay from now, and it is there exactly if the link notes it.  Once a bind was
begun or a death confirmed, the link is bound, or an attempt is scheduled, or a call that waits will
see to one of the two when it is answered: a bind, or the failing of requests after a death.

* `Hub.Timed` -- the note, the timer and the clock agree;
* `Engine.Recovering` -- what one move keeps;
* `Run.recovery_scheduled` -- what holds of a run while no call waits.
-/

namespace ModemLink

/-- No time in a valid configuration is zero. -/
theorem Config.ofMillis_pos {c : Config} (h : c.validate = .ok c) {name : String} {ms : UInt64}
    (hmem : (name, ms) ∈ c.times) : 0 < (Duration.ofMillis ms).nanos := by
  obtain ⟨-, htimes, -⟩ := (Config.validate_eq_ok_iff c c).mp h
  have hpos : 0 < ms.toNat :=
    Nat.pos_of_ne_zero fun hzero => htimes _ hmem (UInt64.toNat_inj.mp hzero)
  rw [Duration.nanos_ofMillis]
  omega

theorem Config.reconnectDelay_pos {c : Config} (h : c.validate = .ok c) :
    0 < c.reconnectDelay.nanos :=
  c.ofMillis_pos h (show ("reconnect_delay_ms", c.reconnectDelayMs) ∈ c.times by simp [times])

theorem Config.blockingResponseTimeout_pos {c : Config} (h : c.validate = .ok c) :
    0 < c.blockingResponseTimeout.nanos :=
  c.ofMillis_pos h
    (show ("blocking_response_timeout_ms", c.blockingResponseTimeoutMs) ∈ c.times by simp [times])

/-- Whether the answer to a call leaves the link bound, an attempt scheduled, or another such call:
a bind, or a result that is handed out because of a death. -/
def Outgoing.Recovers : Outgoing → Prop
  | .bind _ _ => True
  | .deliver _ (.drain _ _) => True
  | _ => False

theorem Progress.recovers {progress : Progress}
    (h : progress.binds = true ∨ progress.drains = true) :
    ∃ call, progress = .waits call ∧ call.Recovers := by
  unfold Progress.binds Progress.drains at h
  split at h
  · exact ⟨_, rfl, trivial⟩
  · split at h
    · exact ⟨_, rfl, trivial⟩
    · simp at h

/-- A bind began at a moment. -/
def Moment.Binds (m : Moment) : Prop := ∃ cookie use, m.made = some (.bind cookie use)

/-- A death was confirmed at a moment. -/
def Moment.Dies (m : Moment) : Prop := m.move.death? = some m.before.hub.link.epoch

/-- A bind was begun or a death confirmed. -/
def History.Touched (history : History) : Prop := ∃ m ∈ history, m.Binds ∨ m.Dies

theorem History.touched_cons {m : Moment} {history : History} :
    History.Touched (m :: history) ↔ (m.Binds ∨ m.Dies) ∨ history.Touched := by
  simp [History.Touched]

namespace Hub

open scoped List

/-- The note of a scheduled attempt, its timer and the clock agree.  There is one timer if an
attempt is noted and none if not; it is due after the delay at the latest, and later than now unless
an advance is under way. -/
structure Timed (limit : Option Duration) (hub : Hub) : Prop where
  ordered : hub.station.timeline.Ordered
  noted : (hub.link.retryArmed = true ∧ ∃ timer, hub.attempts = [timer]) ∨
    (hub.link.retryArmed = false ∧ hub.attempts = [])
  soon : ∀ timer ∈ hub.attempts,
    timer.deadline.nanos ≤ hub.station.now.nanos + hub.reconnectDelay.nanos
  reached : ∀ target ∈ limit, hub.station.now.nanos ≤ target.nanos
  later : limit = none → ∀ timer ∈ hub.attempts, hub.station.now.nanos < timer.deadline.nanos

variable {limit : Option Duration} {before hub after : Hub} {move : Move} {progress : Progress}

namespace Timed

/-- Another link is as good if it has the same note. -/
theorem relink (h : Timed limit hub) {link : Link} (hnote : link.retryArmed = hub.link.retryArmed) :
    Timed limit { hub with link } :=
  ⟨h.ordered, by rw [show Hub.link _ = link from rfl, hnote]; exact h.noted, h.soon, h.reached,
    h.later⟩

/-- The timer that may be scheduled is the only one, and it is due later than now. -/
theorem rearms (h : Timed limit hub) (positive : 0 < hub.reconnectDelay.nanos)
    (hrearms : Rearms hub after) : Timed limit after := by
  rcases hrearms.timer with ⟨hnote, hkept⟩ | ⟨hfree, hnoted, timer, hdue, hmore⟩
  · refine ⟨hrearms.ordered h.ordered, ?_, ?_, ?_, ?_⟩
    · rw [hnote, hkept]
      exact h.noted
    · rw [hkept, hrearms.now, hrearms.delay]
      exact h.soon
    · rw [hrearms.now]
      exact h.reached
    · rw [hkept, hrearms.now]
      exact h.later
  · have hnone : hub.attempts = [] := by
      rcases h.noted with ⟨hnoted, -⟩ | ⟨-, hnone⟩
      · rw [hfree] at hnoted
        cases hnoted
      · exact hnone
    rw [hnone] at hmore
    have hone : after.attempts = [timer] := List.perm_singleton.mp hmore
    refine ⟨hrearms.ordered h.ordered, .inl ⟨hnoted, timer, hone⟩, ?_, ?_, ?_⟩
    · rw [hone, hrearms.now, hrearms.delay]
      simp [hdue]
    · rw [hrearms.now]
      exact h.reached
    · rw [hone, hrearms.now]
      simp [hdue, positive]

/-- What is taken off for another task leaves the timer where it is. -/
theorem popDue_of_ne {target : Duration} {task : Task} {timeline : Timeline Task}
    (h : Timed (some target) hub) (hne : task ≠ .reconnect)
    (hdue : hub.station.timeline.popDue? target = some (task, timeline)) :
    Timed (some target) { hub with station := { hub.station with timeline } } := by
  obtain ⟨hordered, hnow, htarget⟩ := h.ordered.popDue hdue
  have hkept : attempts { hub with station := { hub.station with timeline } } = hub.attempts :=
    Timeline.timersOf_popDue_of_ne hne hdue
  refine ⟨hordered, ?_, fun timer hmem => ?_, ?_, fun hlimit => by cases hlimit⟩
  · rw [hkept]
    exact h.noted
  · rw [hkept] at hmem
    exact Nat.le_trans (h.soon timer hmem) (Nat.add_le_add_right hnow _)
  · rintro _ ⟨⟩
    exact htarget

/-- When the timer itself is taken off the link notes it. -/
theorem popDue_reconnect {target : Duration} {timeline : Timeline Task}
    (h : Timed (some target) hub)
    (hdue : hub.station.timeline.popDue? target = some (.reconnect, timeline)) :
    Timed (some target)
      { hub with station := { hub.station with timeline }, link := hub.link.disarmRetry } := by
  obtain ⟨hordered, -, htarget⟩ := h.ordered.popDue hdue
  obtain ⟨timer, -, hfirst⟩ := Timeline.timersOf_popDue hdue
  have hnone : timeline.timersOf .reconnect = [] := by
    rcases h.noted with ⟨-, only, honly⟩ | ⟨-, hnone⟩
    · have hcons : timer :: timeline.timersOf .reconnect = [only] := hfirst.symm.trans honly
      exact (List.cons.inj hcons).2
    · have hcons : timer :: timeline.timersOf .reconnect = [] := hfirst.symm.trans hnone
      cases hcons
  have hnone' : attempts { hub with
      station := { hub.station with timeline }, link := hub.link.disarmRetry } = [] := hnone
  refine ⟨hordered, .inr ⟨rfl, hnone⟩, ?_, ?_, ?_⟩
  · simp [hnone']
  · rintro _ ⟨⟩
    exact htarget
  · simp [hnone']

/-- At the end of an advance every timer is due later. -/
theorem arrives {target : Duration} (h : Timed (some target) hub)
    (hdue : hub.station.timeline.popDue? target = none) :
    Timed none
      { hub with
        station := { hub.station with timeline := hub.station.timeline.setNow target } } := by
  have hlater := h.ordered.lt_deadline hdue
  refine ⟨h.ordered.setNow hdue, h.noted, fun timer hmem => ?_, by simp, fun _ timer hmem => ?_⟩
  · exact Nat.le_trans (h.soon timer hmem) (Nat.add_le_add_right (h.reached target rfl) _)
  · exact hlater timer (Timeline.mem_timersOf.mp hmem).1

end Timed

/-- A turn of the hub changes the link, but not its note, and then an attempt may be scheduled. -/
theorem Turn.rearms (h : Turn before move progress after) :
    ∃ link : Link, link.retryArmed = before.link.retryArmed ∧
      Rearms { before with link } after := by
  cases h with
  | stays calm rearms link binds => exact ⟨before.link, rfl, rearms⟩
  | begins use wanted free rearms link => exact ⟨before.link.beginBind, rfl, rearms⟩
  | ends rearms recovers binds => exact ⟨_, Link.retryArmed_endBind _ _ _, rearms⟩
  | @dies move cookie link progress after death confirmed rearms recovers binds =>
      exact ⟨link, Link.retryArmed_confirmDeath confirmed, rearms⟩
  | drains rearms recovers binds => exact ⟨before.link, rfl, rearms⟩

/-- A turn that changes the link, or comes of a bind or a death, leaves recovery pending. -/
theorem Turn.recovers (h : Turn before move progress after) :
    (after.link.phase = .bound ∨ after.link.retryArmed = true ∨
      ∃ call, progress = .waits call ∧ call.Recovers) ∨
    (after.link = before.link ∧ move.disturbs before.link.epoch = false ∧
      progress.binds = false) := by
  cases h with
  | stays calm rearms link binds => exact .inr ⟨link, calm, binds⟩
  | begins use wanted free rearms link => exact .inl (.inr (.inr ⟨_, rfl, trivial⟩))
  | ends rearms recovers binds =>
      rcases recovers with hbound | harmed
      · exact .inl (.inl hbound)
      · exact .inl (.inr (.inl harmed))
  | dies death confirmed rearms recovers binds =>
      rcases recovers with hdrains | harmed
      · exact .inl (.inr (.inr (Progress.recovers (.inr hdrains))))
      · exact .inl (.inr (.inl harmed))
  | drains rearms recovers binds =>
      rcases recovers with hdrains | harmed
      · exact .inl (.inr (.inr (Progress.recovers (.inr hdrains))))
      · exact .inl (.inr (.inl harmed))

end Hub

/-- A move that does not disturb the link is no news of its death. -/
theorem Move.death?_ne {move : Move} {epoch : Epoch} (h : move.disturbs epoch = false) :
    move.death? ≠ some epoch := by
  unfold Move.disturbs at h
  split at h
  · cases h
  · cases h
  · simpa using h

/-- A move that does not disturb the link and begins no bind leaves all as untouched as before. -/
theorem Moment.not_touches {m : Moment}
    (hcalm : m.move.disturbs m.before.hub.link.epoch = false)
    (hmade : ∀ cookie use, m.made ≠ some (.bind cookie use)) : ¬ (m.Binds ∨ m.Dies) := by
  rintro (⟨cookie, use, hbinds⟩ | hdies)
  · exact hmade cookie use hbinds
  · exact Move.death?_ne hcalm hdies

/-- The answer to a call that recovers disturbs the link. -/
theorem Move.not_recovers {call : Outgoing} {answer : call.Answer} {epoch : Epoch}
    (h : (Move.answer call answer).disturbs epoch = false) : ¬ call.Recovers := by
  intro hrecovers
  unfold Outgoing.Recovers at hrecovers
  split at hrecovers
  · cases h
  · cases h
  · exact hrecovers

namespace Engine

variable {e after : Engine} {move : Move} {advance : Option Advance} {progress : Progress}
  {hub : Hub} {history : History} {delay : Duration}

/-- The link is bound, or an attempt is scheduled, or a call that waits will see to it. -/
def Mends (e : Engine) : Prop :=
  e.hub.link.phase = .bound ∨ e.hub.link.retryArmed = true ∨
    ∃ suspension ∈ e.stack, suspension.call.Recovers

/-- The timer of the next attempt agrees with the link and the clock, and once a bind was begun or a
death confirmed recovery is pending. -/
structure Recovering (delay : Duration) (history : History) (e : Engine) : Prop where
  delay : e.hub.reconnectDelay = delay
  timed : ∃ limit, Advancing limit e ∧ e.hub.Timed limit
  mends : history.Touched → e.Mends

/-- A call that recovers has been left waiting. -/
theorem mends_waits {call : Outgoing} (h : call.Recovers) :
    (e.reach advance (.waits call) hub).Mends :=
  .inr (.inr ⟨⟨advance, call⟩, List.mem_cons_self .., h⟩)

theorem mends_reach (h : hub.link.phase = .bound ∨ hub.link.retryArmed = true ∨
      ∃ call, progress = .waits call ∧ call.Recovers) :
    (e.reach advance progress hub).Mends := by
  rcases h with hbound | harmed | ⟨call, rfl, hcall⟩
  · exact .inl (by rwa [hub_reach])
  · exact .inr (.inl (by rwa [hub_reach]))
  · exact mends_waits hcall

/-- A transition that leaves the link alone takes nothing from recovery. -/
theorem mends_of_link_eq (h : e.Mends) (hlink : hub.link = e.hub.link) :
    (e.reach advance progress hub).Mends := by
  rcases h with hbound | harmed | ⟨suspension, hmem, hcall⟩
  · exact .inl (by rwa [hub_reach, hlink])
  · exact .inr (.inl (by rwa [hub_reach, hlink]))
  · exact .inr (.inr ⟨suspension, mem_stack_reach hmem, hcall⟩)

/-- A transition that leaves no bind waiting began none. -/
theorem calling_ne_bind (hbinds : progress.binds = false) (cookie : Epoch) (use : BindUse) :
    (e.reach advance progress hub).calling ≠ some (.bind cookie use) := by
  rw [calling_reach]
  cases progress with
  | waits call =>
      rintro heq
      cases heq
      cases hbinds
  | ends returned => simp

/-- What was pending beyond a call that is no bind and no failing of requests still is. -/
theorem Mends.pop {call : Outgoing} {rest : List Suspension} (h : e.Mends)
    (hstack : e.stack = ⟨advance, call⟩ :: rest) (hcall : ¬ call.Recovers) :
    Mends { e with stack := rest } := by
  rcases h with hbound | harmed | ⟨suspension, hmem, hrecovers⟩
  · exact .inl hbound
  · exact .inr (.inl harmed)
  · rw [hstack] at hmem
    rcases List.mem_cons.mp hmem with rfl | hrest
    · exact absurd hrecovers hcall
    · exact .inr (.inr ⟨suspension, hrest, hrecovers⟩)

/-- Every move leaves recovery pending, once a bind was begun or a death confirmed. -/
theorem Turning.mends (h : Turning e move after) (hbefore : history.Touched → e.Mends)
    (htouched : History.Touched (⟨e, move, after⟩ :: history)) : after.Mends := by
  rw [History.touched_cons] at htouched
  cases h with
  | called control turn =>
      rcases turn.recovers with hrecovers | ⟨hlink, hcalm, hbinds⟩
      · exact mends_reach hrecovers
      · have hpending := hbefore
          (htouched.resolve_left (Moment.not_touches hcalm (calling_ne_bind hbinds)))
        exact mends_of_link_eq hpending hlink
  | answered control stack turn =>
      rcases turn.recovers with hrecovers | ⟨hlink, hcalm, hbinds⟩
      · exact mends_reach hrecovers
      · have hpending := hbefore
          (htouched.resolve_left (Moment.not_touches hcalm (calling_ne_bind hbinds)))
        exact mends_of_link_eq (hpending.pop stack (Move.not_recovers hcalm)) hlink
  | @ran advance task timeline progress hub control due other rearms link binds =>
      have hpending := hbefore
        (htouched.resolve_left (Moment.not_touches rfl (calling_ne_bind binds)))
      exact mends_of_link_eq (e := e.withTimeline timeline) hpending link
  | spared control due bound binds => exact .inl (by rw [hub_reach]; exact bound)
  | attempted control due unbound => exact mends_waits trivial
  | departs control target =>
      exact hbefore (htouched.resolve_left (Moment.not_touches rfl fun _ _ => nofun))
  | arrives control due =>
      exact hbefore (htouched.resolve_left (Moment.not_touches rfl fun _ _ => nofun))
  | owned control =>
      exact hbefore (htouched.resolve_left (Moment.not_touches rfl fun _ _ => nofun))
  | subscribed control =>
      exact hbefore (htouched.resolve_left (Moment.not_touches rfl fun _ _ => nofun))

/-- A turn of the hub keeps the timer in agreement. -/
theorem timed_turn {limit : Option Duration} (h : e.hub.Timed limit)
    (positive : 0 < e.hub.reconnectDelay.nanos) (hturn : e.hub.Turn move progress hub) :
    hub.Timed limit := by
  obtain ⟨link, hnote, hrearms⟩ := hturn.rearms
  exact (h.relink hnote).rearms positive hrearms

/-- Every move keeps the timer in agreement, if an advance begins only while no call waits. -/
theorem Turning.timed (h : Turning e move after)
    (outermost : move.advances = true → e.stack = [])
    (positive : 0 < e.hub.reconnectDelay.nanos)
    (htimed : ∃ limit, Advancing limit e ∧ e.hub.Timed limit) :
    ∃ limit, Advancing limit after ∧ after.hub.Timed limit := by
  obtain ⟨limit, hadvancing, htimed⟩ := htimed
  cases h with
  | called control turn =>
      have hbottom := (advancing_outside control).mp hadvancing
      refine ⟨limit, advancing_reach hbottom.cons_none, ?_⟩
      rw [hub_reach]
      exact timed_turn htimed positive turn
  | answered control stack turn =>
      have hbottom := (advancing_outside control).mp hadvancing
      rw [stack] at hbottom
      refine ⟨limit, advancing_reach hbottom.replace, ?_⟩
      rw [hub_reach]
      exact timed_turn htimed positive turn
  | ran control due other rearms link binds =>
      obtain ⟨hempty, rfl⟩ := (advancing_firing control).mp hadvancing
      refine ⟨_, advancing_reach (bottoms_task hempty), ?_⟩
      rw [hub_reach]
      exact (htimed.popDue_of_ne other due).rearms positive rearms
  | spared control due bound binds =>
      obtain ⟨hempty, rfl⟩ := (advancing_firing control).mp hadvancing
      refine ⟨_, advancing_reach (bottoms_task hempty), ?_⟩
      rw [hub_reach]
      exact htimed.popDue_reconnect due
  | attempted control due unbound =>
      obtain ⟨hempty, rfl⟩ := (advancing_firing control).mp hadvancing
      refine ⟨_, advancing_reach (bottoms_task hempty), ?_⟩
      rw [hub_reach]
      exact (htimed.popDue_reconnect due).relink rfl
  | @departs length last advance control target =>
      refine ⟨some advance.target, ⟨outermost rfl, rfl⟩, ?_⟩
      refine ⟨htimed.ordered, htimed.noted, htimed.soon, ?_, by simp⟩
      rintro _ ⟨⟩
      exact target ▸ Nat.le_add_right _ _
  | arrives control due =>
      obtain ⟨hempty, rfl⟩ := (advancing_firing control).mp hadvancing
      refine ⟨none, ?_, htimed.arrives due⟩
      change Bottoms none e.stack
      rw [hempty]
      rfl
  | owned control =>
      have hbottom := (advancing_outside control).mp hadvancing
      exact ⟨limit, (advancing_outside control).mpr hbottom, htimed⟩
  | subscribed control =>
      have hbottom := (advancing_outside control).mp hadvancing
      refine ⟨limit, (advancing_outside control).mpr hbottom, htimed.rearms positive ?_⟩
      exact (Hub.Rearms.refl e.hub).atStation (.of_timeline_eq rfl)

/-- No move changes the delay. -/
theorem Turning.reconnectDelay_eq (h : Turning e move after) :
    after.hub.reconnectDelay = e.hub.reconnectDelay := by
  cases h with
  | called control turn =>
      obtain ⟨link, -, hrearms⟩ := turn.rearms
      rw [hub_reach]
      exact hrearms.delay
  | answered control stack turn =>
      obtain ⟨link, -, hrearms⟩ := turn.rearms
      rw [hub_reach]
      exact hrearms.delay
  | ran control due other rearms link binds =>
      rw [hub_reach]
      exact rearms.delay
  | spared control due bound binds => rw [hub_reach]; rfl
  | attempted control due unbound => rw [hub_reach]; rfl
  | departs control target => rfl
  | arrives control due => rfl
  | owned control => rfl
  | subscribed control => rfl

end Engine

section

variable {c : Config} {seed : Option Int} {entropy : Entropy} {outside : OutsideStore}
  {history : History} {e : Engine}

/-- At every moment of a run without overflow, in service, in which time moves only while no other
call waits, the timer of the next attempt agrees with the link and the clock. -/
theorem Run.recovering (run : Run (Engine.start c seed entropy outside) history e)
    (valid : c.validate = .ok c) (uncut : history.Uncut) (outermost : history.AdvancesOutermost)
    (served : history.InService) : e.Recovering c.reconnectDelay history := by
  have hpositive : 0 < c.reconnectDelay.nanos := c.reconnectDelay_pos valid
  induction run with
  | start =>
      refine ⟨rfl, ⟨none, rfl, Timeline.ordered_start, .inr ⟨rfl, rfl⟩, ?_, ?_, ?_⟩, ?_⟩
      · exact fun _ hmem => absurd hmem List.not_mem_nil
      · simp
      · exact fun _ _ hmem => absurd hmem List.not_mem_nil
      · rintro ⟨m, hm, -⟩
        cases hm
  | @step history e after move run hstep fresh ih =>
      rw [History.uncut_cons] at uncut
      obtain ⟨houtermost, outermost⟩ := List.forall_mem_cons.mp outermost
      obtain ⟨hserved, served⟩ := List.forall_mem_cons.mp served
      obtain ⟨hdelay, htimed, hmends⟩ := ih uncut.2 outermost served
      have hturning := hstep.turning uncut.1 hserved
      exact ⟨hturning.reconnectDelay_eq.trans hdelay,
        hturning.timed houtermost (hdelay.symm ▸ hpositive) htimed, hturning.mends hmends⟩

/-- **Recovery is always pending.**  While no call waits there is at most one timer for the next
attempt to bind, and there is one exactly if the link notes it.  It is not overdue, and once no
advance is under way it is due later than now; in any case it is due after the delay at the latest.
Once a bind was begun or a death confirmed, the link is bound or an attempt is scheduled. -/
theorem Run.recovery_scheduled (run : Run (Engine.start c seed entropy outside) history e)
    (valid : c.validate = .ok c) (uncut : history.Uncut) (outermost : history.AdvancesOutermost)
    (served : history.InService) (idle : e.stack = []) :
    e.hub.attempts.length ≤ 1 ∧
      (e.hub.link.retryArmed = true ↔ e.hub.attempts.length = 1) ∧
      (∀ timer ∈ e.hub.attempts,
        e.now.nanos ≤ timer.deadline.nanos ∧
        timer.deadline.nanos ≤ e.now.nanos + c.reconnectDelay.nanos ∧
        ∀ last, e.control = .outside last → e.now.nanos < timer.deadline.nanos) ∧
      (history.Touched → e.hub.link.phase = .bound ∨ e.hub.link.retryArmed = true) := by
  obtain ⟨hdelay, ⟨limit, hadvancing, htimed⟩, hmends⟩ :=
      run.recovering valid uncut outermost served
  refine ⟨?_, ?_, fun timer hmem => ⟨?_, ?_, fun last control => ?_⟩, fun htouched => ?_⟩
  · rcases htimed.noted with ⟨-, timer, hone⟩ | ⟨-, hnone⟩
    · simp [hone]
    · simp [hnone]
  · rcases htimed.noted with ⟨hnoted, timer, hone⟩ | ⟨hfree, hnone⟩
    · simp [hnoted, hone]
    · simp [hfree, hnone]
  · exact htimed.ordered.ahead timer (Timeline.mem_timersOf.mp hmem).1
  · exact hdelay ▸ htimed.soon timer hmem
  · have hbottom := (Engine.advancing_outside control).mp hadvancing
    rw [idle] at hbottom
    exact htimed.later hbottom timer hmem
  · rcases hmends htouched with hbound | harmed | ⟨suspension, hmem, -⟩
    · exact .inl hbound
    · exact .inr harmed
    · rw [idle] at hmem
      cases hmem

end

/-- There is a run whose first bind fails. -/
theorem Engine.exists_run_failed :
    ∃ history e, Run plain history e ∧ history.Uncut ∧ history.AdvancesOutermost ∧
      history.InService ∧ e.stack = [] ∧ history.Touched ∧ e.hub.link.phase = .unbound := by
  have started : Run plain [] plain := .start
  have waiting := started.call .connect none rfl trivial (by simp [Move.submitted])
  have failed := waiting.answer none (.bind ⟨1⟩ .connection)
    (Except.error LinkFault.disconnected) none rfl rfl
  refine ⟨_, _, failed, by decide +kernel, by decide +kernel, by decide +kernel, rfl, ?_, rfl⟩
  exact ⟨_, List.mem_cons_of_mem _ (List.mem_cons_self ..), .inl ⟨⟨1⟩, .connection, rfl⟩⟩

/-- So the next attempt is scheduled after a failed bind. -/
theorem recovery_scheduled_of_failed_bind :
    ∃ history e, Run .plain history e ∧ history.Uncut ∧ history.AdvancesOutermost ∧
      history.InService ∧ e.stack = [] ∧ history.Touched ∧ e.hub.link.phase = .unbound ∧
      e.hub.link.retryArmed = true ∧ e.hub.attempts.length = 1 := by
  obtain ⟨history, e, run, uncut, outermost, served, idle, touched, hphase⟩ :=
    Engine.exists_run_failed
  obtain ⟨-, hone, -, hmends⟩ := Run.recovery_scheduled run rfl uncut outermost served idle
  have harmed : e.hub.link.retryArmed = true :=
    (hmends touched).resolve_left (by rw [hphase]; simp)
  exact ⟨history, e, run, uncut, outermost, served, idle, touched, hphase, harmed, hone.mp harmed⟩

end ModemLink
