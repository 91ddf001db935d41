import ModemLink.Proofs.Bench
import ModemLink.Proofs.Transitions

/-!
# At most one attempt to bind waits

A link that notes a scheduled attempt to bind schedules no other, and the note is taken away only
when the timer of the attempt has been taken off.  So there is never more than one such timer.  This
holds in every run: whatever targets and binds do before they return, however advances are nested,
and also after an overflow has cut something off.  Then the note may stand without a timer, but no
timer without the note.

* `Hub.Lone` -- one timer at the most, and the link notes it;
* `Hub.staysLone`, `Hub.staysLone_submit` -- every transition leaves it so;
* `Bench.Run.lone` -- every state of every run.
-/

namespace ModemLink

/-! ## The hub -/

namespace Hub

open Clocked

/-- There is at most one timer of an attempt to bind, and the link notes it. -/
structure Lone (delay : Duration) (hub : Hub) : Prop where
  delay_eq : hub.reconnectDelay = delay
  ordered : hub.station.timeline.Ordered
  few : hub.attempts.length ≤ 1
  noted : hub.attempts ≠ [] → hub.link.retryArmed = true

variable {delay : Duration} {hub : Hub}

/-- Another link is as good if it has the same note. -/
theorem Lone.relink (h : Lone delay hub) {link : Link}
    (hnote : link.retryArmed = hub.link.retryArmed) : Lone delay { hub with link } :=
  ⟨h.delay_eq, h.ordered, h.few, fun hsome => hnote.trans (h.noted hsome)⟩

/-- Without a timer the note does not matter. -/
theorem Lone.of_no_attempt (h : Lone delay hub) (hnone : hub.attempts = []) (link : Link) :
    Lone delay { hub with link } :=
  ⟨h.delay_eq, h.ordered, h.few, fun hsome => absurd hnone hsome⟩

/-- What was lone stays so. -/
def StaysLone (delay : Duration) (before after : Hub) : Prop :=
  before.Lone delay → after.Lone delay

instance : IsPreorder Hub (StaysLone delay) where
  refl _ := id
  trans _ _ _ hab hbc := hbc ∘ hab

/-- An attempt is scheduled only where none is noted. -/
theorem staysLone_scheduleReconnect :
    Moves (StaysLone delay) (StaysLone delay) scheduleReconnect := by
  intro hub
  simp only [scheduleReconnect, wp_bind, wp_get, Link.armRetry]
  cases hnote : hub.link.retryArmed with
  | true => exact id
  | false =>
      have hnone : hub.Lone delay → hub.attempts = [] := by
        intro h
        by_contra hsome
        rw [h.noted hsome] at hnote
        cases hnote
      simp only [Bool.false_eq_true, if_false, wp_bind, wp_set, wp_atStation]
      refine Station.wp_schedule (fun timeline hscheduled h => ?_)
        fun h => h.of_no_attempt (hnone h) _
      obtain ⟨timer, -, hmore⟩ := Timeline.perm_timersOf_schedule hscheduled
      have hlength : (timeline.timersOf .reconnect).length = hub.attempts.length + 1 :=
        hmore.length_eq
      rw [hnone h] at hlength
      exact ⟨h.delay_eq, h.ordered.schedule hscheduled, Nat.le_of_eq hlength, fun _ => rfl⟩

/-- What the station does is no business of the attempt, nor is what happens to the link. -/
theorem staysLone : Tends Station.SparesAttempt (StaysLone delay) where
  station := Station.spares
  lift hub station hspares h := by
    have hkept : attempts { hub with station } = hub.attempts := hspares.timers
    exact ⟨h.delay_eq, hspares.ordered h.ordered, hkept ▸ h.few, hkept ▸ h.noted⟩
  begun _ h := h.relink rfl
  ended _ _ _ h := h.relink (Link.retryArmed_endBind _ _ _)
  died _ _ _ hconfirmed h := h.relink (Link.retryArmed_confirmDeath hconfirmed)
  scheduleReconnect := staysLone_scheduleReconnect

theorem staysLone_submit (kind : RequestKind) (payload : Payload) (target : TargetId)
    (source : Option WorkSource) :
    Moves (StaysLone delay) (StaysLone delay) (submit kind payload target source) :=
  moves_get.bind fun _ => (staysLone.record _).bind fun _ =>
    (staysLone.atStation (Station.spares.acquire _ _)).bind fun _ =>
      (staysLone.atStation (Station.spares_enroll _ _ _ _)).bind fun _ => staysLone.bind _

/-- When the timer of the attempt was taken off there is none left. -/
theorem Lone.no_attempt {target : Duration} {timeline : Timeline Task} (h : Lone delay hub)
    (hdue : hub.station.timeline.popDue? target = some (.reconnect, timeline)) :
    timeline.timersOf .reconnect = [] := by
  obtain ⟨timer, -, hfirst⟩ := Timeline.timersOf_popDue hdue
  have hlength : hub.attempts.length = (timeline.timersOf .reconnect).length + 1 :=
    congrArg List.length hfirst
  have hfew := h.few
  exact List.length_eq_zero_iff.mp (by omega)

/-- A timer was taken off. -/
theorem Lone.popDue {target : Duration} {task : Task} {timeline : Timeline Task}
    (h : Lone delay hub) (hdue : hub.station.timeline.popDue? target = some (task, timeline)) :
    Lone delay { hub with station := { hub.station with timeline } } := by
  have hordered : timeline.Ordered := (h.ordered.popDue hdue).1
  by_cases htask : task = .reconnect
  · subst htask
    have hnone := h.no_attempt hdue
    exact ⟨h.delay_eq, hordered, by simp [attempts, hnone], fun hsome => absurd hnone hsome⟩
  · have hkept : attempts { hub with station := { hub.station with timeline } } = hub.attempts :=
      Timeline.timersOf_popDue_of_ne htask hdue
    exact ⟨h.delay_eq, hordered, hkept ▸ h.few, hkept ▸ h.noted⟩

/-- A task finds the timeline without its timer: so the note of an attempt may go. -/
theorem Lone.wp_runTask {target : Duration} {task : Task} {timeline : Timeline Task}
    (h : Lone delay hub) (hdue : hub.station.timeline.popDue? target = some (task, timeline)) :
    let popped := { hub with station := { hub.station with timeline } }
    wp (runTask task) (fun _ after => StaysLone delay popped after) (StaysLone delay popped)
      popped := by
  refine staysLone.runTask ?_
  rintro rfl hlone
  exact hlone.of_no_attempt (h.no_attempt hdue) _

end Hub

/-! ## The engine -/

namespace Engine

open Clocked

variable {delay : Duration} {e : Engine}

/-- However a transition ends, the hub is as it left it. -/
theorem lone_follow {advance : Option Advance} {transition : Clocked Hub Progress}
    (h : e.hub.Lone delay)
    (hstays : wp transition (fun _ after => e.hub.StaysLone delay after) (e.hub.StaysLone delay)
      e.hub) :
    (e.follow advance transition).hub.Lone delay := by
  rcases follow_of_wp advance e hstays with
    ⟨call, hub, hlone, heq⟩ | ⟨returned, hub, control, hlone, -, heq⟩ | ⟨overflow, hub, hlone, heq⟩
  all_goals rw [heq]; exact hlone h

theorem lone_call (h : e.hub.Lone delay) (call : Call) : (e.call call).hub.Lone delay := by
  cases call with
  | submit kind payload target source => exact lone_follow h (Hub.staysLone_submit _ _ _ _ _)
  | connect => exact lone_follow h (Hub.staysLone.bind _ _)
  | receive frame => exact lone_follow h (Hub.staysLone.receive _ _)
  | die cookie => exact lone_follow h (Hub.staysLone.die _ _ _)
  | advance length =>
      simp only [Engine.call]
      split <;> exact h

theorem lone_resume (h : e.hub.Lone delay) (top : Suspension) (answer : top.call.Answer) :
    (e.resume top answer).hub.Lone delay :=
  lone_follow h (Hub.staysLone.answered top.call answer _)

theorem lone_fire (h : e.hub.Lone delay) (advance : Advance) :
    (e.fire advance).hub.Lone delay := by
  unfold fire
  split
  · rename_i hdue
    exact ⟨h.delay_eq, h.ordered.setNow hdue, h.few, h.noted⟩
  · rename_i task timeline hdue
    dsimp only
    split
    · exact lone_follow (h.popDue hdue) (h.wp_runTask hdue)
    · exact h.popDue hdue

end Engine

/-! ## The bench -/

namespace Bench

variable {delay : Duration} {b c : Bench}

theorem lone_radioAnswers {top : Suspension} (h : b.engine.hub.Lone delay)
    (hanswers : b.radioAnswers? top = some c) : c.engine.hub.Lone delay := by
  unfold radioAnswers? at hanswers
  split at hanswers <;> cases hanswers <;> exact Engine.lone_resume h _ _

theorem lone_next (h : b.engine.hub.Lone delay) (hnext : b.next? = some c) :
    c.engine.hub.Lone delay := by
  unfold next? at hnext
  split at hnext
  · cases hnext
    exact Engine.lone_fire h _
  · split at hnext
    · cases hnext
    · split at hnext
      · cases hnext
        exact h
      · exact lone_radioAnswers h hnext

theorem lone_passes (h : b.engine.hub.Lone delay) (hpasses : b.Passes c) :
    c.engine.hub.Lone delay := by
  induction hpasses with
  | refl => exact h
  | tail _ hnext ih => exact lone_next ih hnext

theorem lone_proceed (h : b.engine.hub.Lone delay) : b.proceed.engine.hub.Lone delay := by
  unfold proceed
  split
  · exact Engine.lone_resume h _ _
  · exact Engine.lone_resume h _ _
  · exact h

theorem lone_take (h : b.engine.hub.Lone delay) (cue : Cue) :
    (b.take cue).engine.hub.Lone delay := by
  cases cue with
  | call call => exact Engine.lone_call h call
  | proceed => exact lone_proceed h
  | subscribers change => exact ⟨h.delay_eq, h.ordered, h.few, h.noted⟩
  | owners _ | refuse _ | failSends _ | kill => exact h

/-- In every state of every run there is at most one timer of an attempt to bind. -/
theorem Run.lone {c : Config} {seed : Option Int} {entropy : Entropy} {outside : OutsideStore}
    {scenes : List Scene} {b : Bench} (run : Run (.start c seed entropy outside) scenes b) :
    b.engine.hub.Lone c.reconnectDelay := by
  induction run with
  | start => exact ⟨rfl, Timeline.ordered_start, Nat.zero_le _, fun hsome => absurd rfl hsome⟩
  | scene run admits settles ih => exact lone_passes (lone_take ih _) settles.1

end Bench

end ModemLink
