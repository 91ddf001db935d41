import Mathlib.Algebra.Order.Ring.Nat
import ModemLink.Proofs.Recovery
import ModemLink.Proofs.Sending

/-!
# When the next attempt comes after a death

After a death the link stays dead until a bind begins, and unless somebody asks for a handle that
bind is the scheduled attempt.  It comes when its timer is due.  A timer that was there before the
death is kept, and no other is put beside it, so the attempt comes after the reconnection delay only
if there was none, or one that happens to be due then.

* `Hub.retryAt` -- when the scheduled attempt is due;
* `Engine.Turning.awaits` -- a dead link stays dead, and the attempt due at the same time, until a
  bind begins;
* `Run.next_attempt` -- after a death the next bind begins when the attempt is due;
* `Run.reconnects_on_time_iff` -- when that is after the reconnection delay;
* `reconnects_early_after_failed_bind` -- a run in which it comes earlier.
-/

namespace ModemLink

namespace Hub

open scoped List

/-- When the scheduled attempt is due; if none is scheduled, when one would be that is scheduled
now. -/
def retryAt (hub : Hub) : Nat :=
  match hub.attempts with
  | [] => hub.station.now.nanos + hub.reconnectDelay.nanos
  | timer :: _ => timer.deadline.nanos

variable {before hub after : Hub} {limit : Option Duration} {move : Move} {progress : Progress}

/-- It depends on the clock only if no attempt is scheduled. -/
theorem retryAt_eq (hattempts : after.attempts = before.attempts)
    (hnow : before.attempts = [] →
      after.station.now.nanos + after.reconnectDelay.nanos =
        before.station.now.nanos + before.reconnectDelay.nanos) :
    after.retryAt = before.retryAt := by
  unfold retryAt
  rw [hattempts]
  split
  · rename_i hnone
    exact hnow hnone
  · rfl

/-- What is scheduled now is due when it would be due. -/
theorem Timed.retryAt_rearms (h : Timed limit hub) (hrearms : Rearms hub after) :
    after.retryAt = hub.retryAt := by
  rcases hrearms.timer with ⟨-, hkept⟩ | ⟨hfree, -, timer, hdue, hmore⟩
  · exact retryAt_eq hkept fun _ => by rw [hrearms.now, hrearms.delay]
  · have hnone : hub.attempts = [] := by
      rcases h.noted with ⟨hnoted, -⟩ | ⟨-, hnone⟩
      · rw [hfree] at hnoted
        cases hnoted
      · exact hnone
    rw [hnone] at hmore
    have hone : after.attempts = [timer] := List.perm_singleton.mp hmore
    unfold retryAt
    rw [hnone, hone]
    exact hdue

/-- It is no earlier than now, and no later than after the delay. -/
theorem Timed.retryAt_bounds (h : Timed limit hub) :
    hub.station.now.nanos ≤ hub.retryAt ∧
      hub.retryAt ≤ hub.station.now.nanos + hub.reconnectDelay.nanos := by
  unfold retryAt
  split
  · exact ⟨Nat.le_add_right _ _, Nat.le_refl _⟩
  · rename_i timer rest hattempts
    have hmem : timer ∈ hub.attempts := by
      rw [hattempts]
      exact List.mem_cons_self ..
    exact ⟨h.ordered.ahead timer (Timeline.mem_timersOf.mp hmem).1, h.soon timer hmem⟩

/-- It comes after the delay exactly if every timer for it is due then. -/
theorem Timed.retryAt_eq_iff (h : Timed limit hub) {time : Nat}
    (htime : hub.station.now.nanos + hub.reconnectDelay.nanos = time) :
    hub.retryAt = time ↔ ∀ timer ∈ hub.attempts, timer.deadline.nanos = time := by
  unfold retryAt
  rcases h.noted with ⟨-, timer, hone⟩ | ⟨-, hnone⟩
  · simp [hone]
  · simp [hnone, htime]

/-- A dead link stays dead, and a link that dies is dead; then the attempt is due at the same time
as before, unless a bind begins because a handle is wanted. -/
theorem Turn.awaits (h : Turn before move progress after) (htimed : before.Timed limit)
    (hdead : before.link.phase = .dead ∨ move.death? = some before.link.epoch)
    (hpresent : ∀ use answer, move ≠ .answer (.bind before.link.epoch use) answer) :
    (after.link.phase = .dead ∧ after.retryAt = before.retryAt ∧ progress.binds = false) ∨
    (move.wantsHandle = true ∧ after.station.now = before.station.now ∧
      progress.binds = true) := by
  cases h with
  | stays calm rearms link binds =>
      have hphase := hdead.resolve_right (Move.death?_ne calm)
      exact .inl ⟨by rw [link, hphase], htimed.retryAt_rearms rearms, binds⟩
  | begins use wanted free rearms link => exact .inr ⟨wanted, rearms.now, rfl⟩
  | @ends cookie use answer progress after rearms recovers binds =>
      have hphase := hdead.resolve_right (show none ≠ some before.link.epoch by simp)
      have hstale : before.link.epoch ≠ cookie := by
        rintro rfl
        exact hpresent use answer rfl
      rw [Link.endBind_of_stale hstale] at rearms
      exact .inl ⟨by rw [rearms.link]; exact hphase, htimed.retryAt_rearms rearms, binds⟩
  | @dies move cookie link progress after death confirmed rearms recovers binds =>
      unfold Link.confirmDeath at confirmed
      split at confirmed
      · cases confirmed
        have hrelinked : Timed limit { before with link := { before.link with
            phase := .dead, handle := none, epoch := before.link.epoch.next } } :=
          htimed.relink rfl
        exact .inl ⟨by rw [rearms.link], hrelinked.retryAt_rearms rearms, binds⟩
      · cases confirmed
  | @drains delivery rest use progress after rearms recovers binds =>
      have hphase := hdead.resolve_right (show none ≠ some before.link.epoch by simp)
      exact .inl ⟨by rw [rearms.link]; exact hphase, htimed.retryAt_rearms rearms, binds⟩

end Hub

/-- To want a handle is no news of a death. -/
theorem Move.death?_of_wantsHandle {move : Move} (h : move.wantsHandle = true) :
    move.death? = none := by
  unfold Move.wantsHandle at h
  split at h
  · rfl
  · rfl
  · cases h

namespace Engine

variable {e after : Engine} {move : Move} {delay : Duration} {history : History}

/-- A transition that ends with a bind leaves it waiting. -/
theorem exists_calling_bind {advance : Option Advance} {progress : Progress} {hub : Hub}
    (hbinds : progress.binds = true) :
    ∃ cookie use, (e.reach advance progress hub).calling = some (.bind cookie use) := by
  unfold Progress.binds at hbinds
  split at hbinds
  · exact ⟨_, _, calling_reach⟩
  · cases hbinds

/-- The clock does not go back. -/
theorem Turning.now_le (h : Turning e move after) (hrecovering : e.Recovering delay history) :
    e.now.nanos ≤ after.now.nanos := by
  obtain ⟨-, ⟨limit, hadvancing, htimed⟩, -⟩ := hrecovering
  unfold now
  cases h with
  | called control turn =>
      obtain ⟨link, -, hrearms⟩ := turn.rearms
      rw [hub_reach, hrearms.now]
  | answered control stack turn =>
      obtain ⟨link, -, hrearms⟩ := turn.rearms
      rw [hub_reach, hrearms.now]
  | ran control due other rearms link binds =>
      rw [hub_reach, rearms.now]
      exact (htimed.ordered.popDue due).2.1
  | spared control due bound binds =>
      rw [hub_reach]
      exact (htimed.ordered.popDue due).2.1
  | attempted control due unbound =>
      rw [hub_reach]
      exact (htimed.ordered.popDue due).2.1
  | departs control target => exact Nat.le_refl _
  | arrives control due =>
      obtain ⟨-, rfl⟩ := (advancing_firing control).mp hadvancing
      exact htimed.reached _ rfl
  | owned control => exact Nat.le_refl _
  | subscribed control => exact Nat.le_refl _

/-- The scheduled attempt is due no earlier than now and no later than after the delay. -/
theorem Recovering.retryAt_bounds (h : e.Recovering delay history) :
    e.now.nanos ≤ e.hub.retryAt ∧ e.hub.retryAt ≤ e.now.nanos + delay.nanos := by
  obtain ⟨hdelay, ⟨limit, -, htimed⟩, -⟩ := h
  rw [← hdelay]
  exact htimed.retryAt_bounds

/-- While no call waits a dead link means a timer. -/
theorem Recovering.attempts_ne_nil (h : e.Recovering delay history) (htouched : history.Touched)
    (hdead : e.hub.link.phase = .dead) (hempty : e.stack = []) : e.hub.attempts ≠ [] := by
  obtain ⟨-, ⟨limit, -, htimed⟩, hmends⟩ := h
  have harmed : e.hub.link.retryArmed = true := by
    rcases hmends htouched with hbound | harmed | ⟨suspension, hmem, -⟩
    · rw [hdead] at hbound
      cases hbound
    · exact harmed
    · rw [hempty] at hmem
      cases hmem
  rcases htimed.noted with ⟨-, timer, hone⟩ | ⟨hfree, -⟩
  · simp [hone]
  · rw [harmed] at hfree
    cases hfree

/-- What a move makes of a link that is dead or dies: it waits for the attempt, which is due at the
same time as before, or a bind begins, because the attempt is due or because a handle is wanted. -/
def Awaits (e : Engine) (move : Move) (after : Engine) : Prop :=
  (after.hub.link.phase = .dead ∧ after.hub.retryAt = e.hub.retryAt ∧
    ¬ (Moment.mk e move after).Binds) ∨
  ((Moment.mk e move after).Binds ∧ move.death? = none ∧
    (after.now.nanos = e.hub.retryAt ∨ (move.wantsHandle = true ∧ after.now = e.now)))

theorem awaits_of_no_bind (hphase : after.hub.link.phase = .dead)
    (hretry : after.hub.retryAt = e.hub.retryAt)
    (hmade : ∀ cookie use, (Moment.mk e move after).made ≠ some (.bind cookie use)) :
    e.Awaits move after := by
  refine .inl ⟨hphase, hretry, ?_⟩
  rintro ⟨cookie, use, hbind⟩
  exact hmade cookie use hbind

/-- A dead link stays dead, and the attempt due at the same time, until a bind begins: because a
handle is wanted, or when the attempt is due.  A link that dies begins to wait so. -/
theorem Turning.awaits (h : Turning e move after) (hrecovering : e.Recovering delay history)
    (hdead : (e.hub.link.phase = .dead ∧ history.Touched) ∨
      move.death? = some e.hub.link.epoch)
    (hpresent : ∀ suspension ∈ e.stack, e.hub.link.epoch ∈ suspension.call.cookie? →
      e.hub.link.phase = .binding) : e.Awaits move after := by
  have hwas : move.death? = none → e.hub.link.phase = .dead ∧ history.Touched := by
    intro hno
    exact hdead.resolve_right (by rw [hno]; simp)
  -- The clock moves on only while no call waits, and then there is a timer.
  have hwaiting : e.stack = [] → move.death? = none →
      e.hub.link.phase = .dead ∧ e.hub.attempts ≠ [] := by
    intro hempty hno
    obtain ⟨hphase, htouched⟩ := hwas hno
    exact ⟨hphase, hrecovering.attempts_ne_nil htouched hphase hempty⟩
  obtain ⟨-, ⟨limit, hadvancing, htimed⟩, -⟩ := id hrecovering
  cases h with
  | @called call last progress hub control turn =>
      rcases turn.awaits htimed (hdead.imp_left And.left) (by simp) with
        ⟨hphase, hretry, hbinds⟩ | ⟨hwanted, hnow, hbinds⟩
      · exact awaits_of_no_bind (by rwa [hub_reach]) (by rwa [hub_reach]) (calling_ne_bind hbinds)
      · refine .inr ⟨exists_calling_bind hbinds, Move.death?_of_wantsHandle hwanted,
          .inr ⟨hwanted, ?_⟩⟩
        rw [now, hub_reach]
        exact hnow
  | @answered advance call answer rest last progress hub control stack turn =>
      have hpast : ∀ use other,
          Move.answer call answer ≠ .answer (.bind e.hub.link.epoch use) other := by
        rintro use other hmove
        cases hmove
        have hbinding := hpresent _ (by rw [stack]; exact List.mem_cons_self ..) rfl
        rw [(hwas rfl).1] at hbinding
        cases hbinding
      rcases turn.awaits htimed (hdead.imp_left And.left) hpast with
        ⟨hphase, hretry, hbinds⟩ | ⟨hwanted, -⟩
      · exact awaits_of_no_bind (by rwa [hub_reach]) (by rwa [hub_reach]) (calling_ne_bind hbinds)
      · cases hwanted
  | @ran advance task timeline progress hub control due other rearms link binds =>
      obtain ⟨hempty, rfl⟩ := (advancing_firing control).mp hadvancing
      obtain ⟨hphase, hsome⟩ := hwaiting hempty rfl
      have hkept : (e.withTimeline timeline).hub.retryAt = e.hub.retryAt :=
        Hub.retryAt_eq (Timeline.timersOf_popDue_of_ne other due) fun hnone => absurd hnone hsome
      have hretry := (htimed.popDue_of_ne other due).retryAt_rearms rearms
      refine awaits_of_no_bind (by rw [hub_reach, link, hphase]) ?_ (calling_ne_bind binds)
      rw [hub_reach]
      exact hretry.trans hkept
  | spared control due bound binds =>
      obtain ⟨hempty, rfl⟩ := (advancing_firing control).mp hadvancing
      obtain ⟨hphase, -⟩ := hwaiting hempty rfl
      rw [bound] at hphase
      cases hphase
  | @attempted advance timeline control due unbound =>
      obtain ⟨timer, hdeadline, hfirst⟩ := Timeline.timersOf_popDue due
      have hretry : e.hub.retryAt = timer.deadline.nanos := by
        unfold Hub.retryAt
        rw [show e.hub.attempts = _ from hfirst]
      refine .inr ⟨⟨_, _, rfl⟩, rfl, .inl ?_⟩
      rw [now, hub_reach, hretry, hdeadline]
      rfl
  | departs control target =>
      exact awaits_of_no_bind (hwas rfl).1 rfl (by simp [Moment.made, calling])
  | @arrives advance control due =>
      obtain ⟨hempty, rfl⟩ := (advancing_firing control).mp hadvancing
      obtain ⟨hphase, hsome⟩ := hwaiting hempty rfl
      refine awaits_of_no_bind hphase ?_ (by simp [Moment.made, calling])
      exact Hub.retryAt_eq rfl fun hnone => absurd hnone hsome
  | owned control => exact awaits_of_no_bind (hwas rfl).1 rfl (by simp [Moment.made])
  | subscribed control => exact awaits_of_no_bind (hwas rfl).1 rfl (by simp [Moment.made])

end Engine

section

variable {c : Config} {seed : Option Int} {entropy : Entropy} {outside : OutsideStore}
  {later earlier : History} {m : Moment} {e : Engine}

/-- So it was at each moment of the run. -/
theorem Run.recovering_before
    (run : Run (Engine.start c seed entropy outside) (later ++ m :: earlier) e)
    (valid : c.validate = .ok c) (uncut : History.Uncut (later ++ m :: earlier))
    (outermost : History.AdvancesOutermost (later ++ m :: earlier))
    (served : History.InService (later ++ m :: earlier)) :
    m.before.Recovering c.reconnectDelay earlier := by
  have hmem : ∀ n ∈ earlier, n ∈ later ++ m :: earlier := fun n hn =>
    List.mem_append_right _ (List.mem_cons_of_mem _ hn)
  exact run.split.1.recovering valid (fun n hn => uncut n (hmem n hn))
    (fun n hn => outermost n (hmem n hn)) fun n hn => served n (hmem n hn)

/-- What is known of the last move of a run. -/
theorem Run.last_turning {history : History}
    (run : Run (Engine.start c seed entropy outside) (m :: history) e)
    (valid : c.validate = .ok c) (uncut : History.Uncut (m :: history))
    (outermost : History.AdvancesOutermost (m :: history))
    (served : History.InService (m :: history))
    (epochs : History.epochs (m :: history) < UInt64.size) :
    Run (Engine.start c seed entropy outside) history m.before ∧
      m.before.Recovering c.reconnectDelay history ∧
      (∀ suspension ∈ m.before.stack, m.before.hub.link.epoch ∈ suspension.call.cookie? →
        m.before.hub.link.phase = .binding) ∧
      m.before.Turning m.move m.after ∧ e = m.after := by
  rw [History.uncut_cons] at uncut
  have houtermost := (List.forall_mem_cons.mp outermost).2
  obtain ⟨hserved, hserves⟩ := List.forall_mem_cons.mp served
  have hepochs := Nat.lt_of_le_of_lt (History.epochs_le_cons m history) epochs
  cases run with
  | step run hstep fresh =>
      have hplaced := run.placed uncut.2 hepochs
      refine ⟨run, run.recovering valid uncut.2 houtermost hserves, ?_,
        hstep.turning uncut.1 hserved, rfl⟩
      exact fun suspension hmem hcookie =>
        hplaced.hub.link.binding _ (List.mem_map_of_mem hmem) hcookie

/-- After a death either no bind has begun, and the attempt is due at the same time as before, or
the first bind began at that time and no other earlier. -/
theorem Run.awaits_or_attempted
    (run : Run (Engine.start c seed entropy outside) (later ++ m :: earlier) e)
    (valid : c.validate = .ok c) (uncut : History.Uncut (later ++ m :: earlier))
    (outermost : History.AdvancesOutermost (later ++ m :: earlier))
    (served : History.InService (later ++ m :: earlier))
    (epochs : History.epochs (later ++ m :: earlier) < UInt64.size) (dies : m.Dies)
    (unasked : ∀ n ∈ later, n.move.wantsHandle = true →
      m.before.now.nanos + c.reconnectDelay.nanos ≤ n.before.now.nanos)
    (bound : m.before.hub.retryAt ≤ m.before.now.nanos + c.reconnectDelay.nanos) :
    (e.hub.link.phase = .dead ∧ e.hub.retryAt = m.before.hub.retryAt ∧ ∀ n ∈ later, ¬ n.Binds) ∨
    (m.before.hub.retryAt ≤ e.now.nanos ∧
      (∃ n ∈ later, n.Binds ∧ n.after.now.nanos = m.before.hub.retryAt) ∧
      ∀ n ∈ later, n.Binds → m.before.hub.retryAt ≤ n.after.now.nanos) := by
  induction later generalizing e with
  | nil =>
      obtain ⟨-, hrecovering, hpresent, hturning, rfl⟩ :=
        run.last_turning valid uncut outermost served epochs
      rcases hturning.awaits hrecovering (.inr dies) hpresent with
        ⟨hphase, hretry, -⟩ | ⟨-, hno, -⟩
      · exact .inl ⟨hphase, hretry, by simp⟩
      · rw [show m.move.death? = _ from dies] at hno
        cases hno
  | cons n later ih =>
      obtain ⟨hrun, hrecovering, hpresent, hturning, rfl⟩ :=
        run.last_turning valid uncut outermost served epochs
      obtain ⟨hunasked, unasked⟩ := List.forall_mem_cons.mp unasked
      have hepochs := Nat.lt_of_le_of_lt (History.epochs_le_cons n (later ++ m :: earlier)) epochs
      have hbefore := ih hrun (List.forall_mem_cons.mp uncut).2
        (List.forall_mem_cons.mp outermost).2 (List.forall_mem_cons.mp served).2 hepochs unasked
      rcases hbefore with ⟨hphase, hretry, hnone⟩ | ⟨hpassed, ⟨first, hfirst, hattempt⟩, hall⟩
      · have htouched : History.Touched (later ++ m :: earlier) :=
          ⟨m, List.mem_append_right _ (List.mem_cons_self ..), .inr dies⟩
        rcases hturning.awaits hrecovering (.inl ⟨hphase, htouched⟩) hpresent with
          ⟨hphase', hretry', hquiet⟩ | ⟨hbinds, -, htime⟩
        · exact .inl ⟨hphase', hretry'.trans hretry, List.forall_mem_cons.mpr ⟨hquiet, hnone⟩⟩
        · -- Whoever asks for a handle from after the delay on asks when the attempt is due, or it
          -- would have been made.
          have hdue : n.after.now.nanos = m.before.hub.retryAt := by
            rcases htime with htime | ⟨hwanted, hsame⟩
            · rw [htime, hretry]
            · have hlate := hunasked hwanted
              have hearly := hrecovering.retryAt_bounds.1
              rw [hretry] at hearly
              rw [hsame]
              exact Nat.le_antisymm hearly (Nat.le_trans bound hlate)
          refine .inr ⟨Nat.le_of_eq hdue.symm, ⟨n, List.mem_cons_self .., hbinds, hdue⟩, ?_⟩
          refine List.forall_mem_cons.mpr ⟨fun _ => Nat.le_of_eq hdue.symm, ?_⟩
          exact fun other hother hother_binds => absurd hother_binds (hnone other hother)
      · have hpassed' := Nat.le_trans hpassed (hturning.now_le hrecovering)
        refine .inr ⟨hpassed', ⟨first, List.mem_cons_of_mem _ hfirst, hattempt⟩, ?_⟩
        exact List.forall_mem_cons.mpr ⟨fun _ => hpassed', hall⟩

/-- All that was due by a time has been done: the clock shows a later one, or it shows that one and
neither a call nor an advance is under way. -/
def Engine.Past (time : Nat) (e : Engine) : Prop :=
  time < e.now.nanos ∨ (time ≤ e.now.nanos ∧ e.stack = [] ∧ ∃ last, e.control = .outside last)

/-- **The next attempt after a death.**  Unless a handle is wanted within the reconnection delay,
the next bind begins when the attempt is due. -/
theorem Run.next_attempt
    (run : Run (Engine.start c seed entropy outside) (later ++ m :: earlier) e)
    (valid : c.validate = .ok c) (uncut : History.Uncut (later ++ m :: earlier))
    (outermost : History.AdvancesOutermost (later ++ m :: earlier))
    (served : History.InService (later ++ m :: earlier))
    (epochs : History.epochs (later ++ m :: earlier) < UInt64.size) (dies : m.Dies)
    (unasked : ∀ n ∈ later, n.move.wantsHandle = true →
      m.before.now.nanos + c.reconnectDelay.nanos ≤ n.before.now.nanos)
    (past : e.Past (m.before.now.nanos + c.reconnectDelay.nanos)) :
    (∃ n ∈ later, n.Binds ∧ n.after.now.nanos = m.before.hub.retryAt) ∧
      ∀ n ∈ later, n.Binds → m.before.hub.retryAt ≤ n.after.now.nanos := by
  have hpositive := c.reconnectDelay_pos valid
  have hbound := (run.recovering_before valid uncut outermost served).retryAt_bounds.2
  rcases run.awaits_or_attempted valid uncut outermost served epochs dies unasked hbound with
    ⟨hphase, hretry, -⟩ | ⟨-, hattempt, hall⟩
  · exfalso
    have hrecovering := run.recovering valid uncut outermost served
    have hearly := hrecovering.retryAt_bounds.1
    rw [hretry] at hearly
    rcases past with hpast | ⟨hpast, hempty, last, control⟩
    · omega
    · have htouched : History.Touched (later ++ m :: earlier) :=
        ⟨m, List.mem_append_right _ (List.mem_cons_self ..), .inr dies⟩
      have hsome := hrecovering.attempts_ne_nil htouched hphase hempty
      obtain ⟨-, ⟨limit, hadvancing, htimed⟩, -⟩ := hrecovering
      have hbottom := (Engine.advancing_outside control).mp hadvancing
      rw [hempty] at hbottom
      cases hattempts : e.hub.attempts with
      | nil => exact hsome hattempts
      | cons timer rest =>
          have hlater := htimed.later hbottom timer (by rw [hattempts]; exact List.mem_cons_self ..)
          have hdue : e.hub.retryAt = timer.deadline.nanos := by
            rw [Hub.retryAt, hattempts]
          change e.now.nanos < timer.deadline.nanos at hlater
          omega
  · exact ⟨hattempt, hall⟩

/-- **Reconnection on time.**  After a death no bind begins before the reconnection delay is over
and one begins right then, if no handle is wanted within the delay, exactly if no attempt was
scheduled when the link died, or one that was due right then. -/
theorem Run.reconnects_on_time_iff
    (run : Run (Engine.start c seed entropy outside) (later ++ m :: earlier) e)
    (valid : c.validate = .ok c) (uncut : History.Uncut (later ++ m :: earlier))
    (outermost : History.AdvancesOutermost (later ++ m :: earlier))
    (served : History.InService (later ++ m :: earlier))
    (epochs : History.epochs (later ++ m :: earlier) < UInt64.size) (dies : m.Dies)
    (unasked : ∀ n ∈ later, n.move.wantsHandle = true →
      m.before.now.nanos + c.reconnectDelay.nanos ≤ n.before.now.nanos)
    (past : e.Past (m.before.now.nanos + c.reconnectDelay.nanos)) :
    ((∀ n ∈ later, n.Binds →
        m.before.now.nanos + c.reconnectDelay.nanos ≤ n.after.now.nanos) ∧
      ∃ n ∈ later, n.Binds ∧
        n.after.now.nanos = m.before.now.nanos + c.reconnectDelay.nanos) ↔
    ∀ timer ∈ m.before.hub.attempts,
      timer.deadline.nanos = m.before.now.nanos + c.reconnectDelay.nanos := by
  have hrecovering := run.recovering_before valid uncut outermost served
  have hbound := hrecovering.retryAt_bounds.2
  obtain ⟨hdelay, ⟨limit, -, htimed⟩, -⟩ := hrecovering
  have hdue : m.before.hub.retryAt = m.before.now.nanos + c.reconnectDelay.nanos ↔
      ∀ timer ∈ m.before.hub.attempts,
        timer.deadline.nanos = m.before.now.nanos + c.reconnectDelay.nanos :=
    htimed.retryAt_eq_iff (by rw [hdelay]; rfl)
  obtain ⟨⟨first, hfirst, hbinds, htime⟩, hall⟩ :=
    run.next_attempt valid uncut outermost served epochs dies unasked past
  rw [← hdue]
  constructor
  · rintro ⟨hnone, -⟩
    exact Nat.le_antisymm hbound (htime ▸ hnone first hfirst hbinds)
  · intro heq
    rw [heq] at htime hall
    exact ⟨hall, first, hfirst, hbinds, htime⟩

end

/-- There is a run whose link dies and is bound again by the scheduled attempt. -/
theorem Engine.exists_run_revived :
    ∃ later m earlier e, Run plain (later ++ m :: earlier) e ∧
      History.Uncut (later ++ m :: earlier) ∧
      History.AdvancesOutermost (later ++ m :: earlier) ∧
      History.InService (later ++ m :: earlier) ∧
      History.epochs (later ++ m :: earlier) < UInt64.size ∧ m.Dies ∧
      (∀ n ∈ later, n.move.wantsHandle = false) ∧ m.before.now = .zero ∧
      e.Past 4000000000 ∧ m.before.hub.attempts = [] := by
  have started : Run plain [] plain := .start
  have waiting := started.call .connect none rfl trivial (by simp [Move.submitted])
  have bound := waiting.answer none (.bind ⟨1⟩ .connection) (Except.ok (⟨0⟩ : Handle)) none rfl rfl
  have dead := bound.call (.die ⟨1⟩) (some (.connected (.ok ⟨1⟩))) rfl trivial
    (by simp [Move.submitted])
  have advancing := dead.call (.advance (.ofMillis 4000)) (some .handled) (by cbv) trivial
    (by simp [Move.submitted])
  have attempting := advancing.fire ⟨.ofMillis 4000, 0⟩ (by cbv)
  have rebound := attempting.answer (some ⟨.ofMillis 4000, 0⟩) (.bind ⟨3⟩ .retry)
    (Except.ok (⟨1⟩ : Handle)) none (by cbv) (by cbv)
  have arrived := rebound.fire ⟨.ofMillis 4000, 1⟩ (by cbv)
  refine ⟨[_, _, _, _], _, [_, _], _, arrived, ?_, ?_, ?_, ?_, rfl, ?_, rfl, ?_, rfl⟩
  · decide +kernel
  · decide +kernel
  · decide +kernel
  · refine Nat.lt_of_le_of_lt (History.epochs_le _) ?_
    simp only [List.cons_append, List.nil_append, List.length_cons, List.length_nil]
    decide
  · decide +kernel
  · exact .inr ⟨by cbv, by cbv, _, by cbv⟩

/-- So it is bound again after the reconnection delay. -/
theorem reconnects_on_time_of_clean_death :
    ∃ later m earlier e, Run .plain (later ++ m :: earlier) e ∧ m.Dies ∧
      (∀ n ∈ later, n.move.wantsHandle = false) ∧ e.Past 4000000000 ∧
      (∀ n ∈ later, n.Binds → 4000000000 ≤ n.after.now.nanos) ∧
      ∃ n ∈ later, n.Binds ∧ n.after.now.nanos = 4000000000 := by
  obtain ⟨later, m, earlier, e, run, uncut, outermost, served, epochs, dies, unasked, hnow, past,
    hnone⟩ := Engine.exists_run_revived
  have hdelay : m.before.now.nanos + (Config.reconnectDelay {}).nanos = 4000000000 := by
    rw [hnow]
    rfl
  have hiff := Run.reconnects_on_time_iff run rfl uncut outermost served epochs dies
    (fun n hn hwanted => by rw [unasked n hn] at hwanted; cases hwanted) (by rwa [hdelay])
  rw [hdelay] at hiff
  obtain ⟨hlate, hdue⟩ := hiff.mpr (by simp [hnone])
  exact ⟨later, m, earlier, e, run, dies, unasked, past, hlate, hdue⟩

/-- A bind fails at the start of the clock, so that the next attempt is due after 4 s.  Then the
caller binds the link, and after 3 s it dies.  The next bind begins after 4 s, 1 s after the death
and 3 s too early. -/
theorem reconnects_early_after_failed_bind :
    ∃ later m earlier e, Run .plain (later ++ m :: earlier) e ∧
      History.Uncut (later ++ m :: earlier) ∧
      History.AdvancesOutermost (later ++ m :: earlier) ∧
      History.InService (later ++ m :: earlier) ∧ m.Dies ∧
      (∀ n ∈ later, n.move.wantsHandle = false) ∧ m.before.now.nanos = 3000000000 ∧
      ∃ n ∈ later, n.Binds ∧
        n.after.now.nanos < m.before.now.nanos + (Config.reconnectDelay {}).nanos := by
  have started : Run .plain [] .plain := .start
  have first := started.call .connect none rfl trivial (by simp [Move.submitted])
  have failed := first.answer none (.bind ⟨1⟩ .connection)
    (Except.error LinkFault.disconnected) none rfl rfl
  have pausing := failed.call (.advance (.ofMillis 3000))
    (some (.connected (.error .disconnected))) (by cbv) trivial (by simp [Move.submitted])
  have paused := pausing.fire ⟨.ofMillis 3000, 0⟩ (by cbv)
  have second := paused.call .connect (some (.advanced 0)) (by cbv) trivial
    (by simp [Move.submitted])
  have bound := second.answer none (.bind ⟨2⟩ .connection) (Except.ok (⟨0⟩ : Handle)) none (by cbv)
    (by cbv)
  have dead := bound.call (.die ⟨2⟩) (some (.connected (.ok ⟨2⟩))) (by cbv) trivial
    (by simp [Move.submitted])
  have advancing := dead.call (.advance (.ofMillis 1000)) (some .handled) (by cbv) trivial
    (by simp [Move.submitted])
  have attempting := advancing.fire ⟨.ofMillis 4000, 0⟩ (by cbv)
  refine ⟨[_, _], _, [_, _, _, _, _, _], _, attempting, ?_, ?_, ?_, ?_, ?_, ?_, ?_⟩
  · decide +kernel
  · decide +kernel
  · decide +kernel
  · cbv
  · decide +kernel
  · cbv
  · refine ⟨_, List.mem_cons_self .., ⟨⟨4⟩, .retry, ?_⟩, ?_⟩
    · cbv
    · decide +kernel

end ModemLink
