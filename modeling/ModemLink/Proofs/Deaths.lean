import ModemLink.Proofs.Recovery

/-!
# What a death does

News of a death is believed if it names the present epoch.  Then the link is dead and its handle
gone, the next epoch begins, the counter of serials is drawn anew, and all pending requests are
taken out of the ledger at once.  Only after that are they failed, one after the other: each is
settled, and its target is called before the next one is settled.  After the last one the next
attempt to bind is scheduled.

* `Hub.doomed`, `Hub.buried` -- the requests that a death takes out, and what it leaves of a hub;
* `Hub.Fails`, `Hub.wp_drainNext`, `Hub.wp_die` -- how far the failing of requests comes at once;
* `Engine.Step.stale`, `Engine.Step.confirmed` -- what news of a death comes to.
-/

namespace ModemLink

theorem Counters.deaths_completed (c : Counters) (kind : RequestKind) (outcome : Outcome)
    (latency : Duration) : (c.count (.completed kind outcome latency)).deaths = c.deaths := by
  cases outcome <;> rfl

theorem Counters.drained_completed (c : Counters) (kind : RequestKind) (outcome : Outcome)
    (latency : Duration) : (c.count (.completed kind outcome latency)).drained = c.drained := by
  cases outcome <;> rfl

/-- The result that a request gets when its link dies. -/
def PendingRequest.failure (request : PendingRequest) : Delivery :=
  ⟨request.target, .error .unavailable⟩

/-- The link after its death. -/
def Link.buried (link : Link) : Link :=
  { link with phase := .dead, handle := none, epoch := link.epoch.next }

theorem Link.confirmDeath_self (link : Link) : link.confirmDeath link.epoch = some link.buried :=
  if_pos rfl

namespace Hub

open Clocked

variable {hub after : Hub} {use : DeathUse} {progress : Progress}

/-- The requests that a death takes out, in the order in which it fails them. -/
def doomed (hub : Hub) : List PendingRequest := hub.station.ledger.drain.1

/-- What a death leaves before it fails the first request. -/
def buried (hub : Hub) (recorder : Recorder) : Hub :=
  { hub with
    link := hub.link.buried
    station := { hub.station with
      ledger := (hub.station.ledger.reseed hub.station.entropy).2.1.drain.2
      entropy := (hub.station.ledger.reseed hub.station.entropy).2.2
      recorder } }

/-- How far the failing of requests comes at once: to the target of the next one, or, if there is
none, to its end. -/
inductive Fails (use : DeathUse) (hub : Hub) : List PendingRequest → Progress → Hub → Prop
  | done (timeline : Timeline Task) :
      Fails use hub [] (.ends (deathHandled use)) { hub with
        link := { hub.link with retryArmed := true }
        station := { hub.station with timeline } }
  | next {request : PendingRequest} {rest : List PendingRequest} {governor : Governor}
      {recorder : Recorder}
      (returned : hub.station.governor.Returned hub.station.reading request.ticket governor)
      (counted : recorder.books.counters = hub.station.counters.count
        (.completed request.kind .unavailable (request.age hub.station.reading))) :
      Fails use hub (request :: rest) (.waits (.deliver request.failure (.drain rest use)))
        { hub with station := { hub.station with governor, recorder } }

theorem wp_drainNext (requests : List PendingRequest) (use : DeathUse) (hub : Hub) :
    wp (drainNext requests use) (Fails use hub requests) (fun _ => True) hub := by
  cases requests with
  | nil =>
      simp only [drainNext, Clocked.wp_bind, scheduleReconnect, wp_get, Link.armRetry]
      cases hnote : hub.link.retryArmed with
      | true =>
          simp only [if_true, wp_pure]
          have hdone : Fails use hub [] (.ends (deathHandled use))
              { hub with link := { hub.link with retryArmed := true } } :=
            .done hub.station.timeline
          have hlink : { hub.link with retryArmed := true } = hub.link := by rw [← hnote]
          rwa [hlink] at hdone
      | false =>
          simp only [Bool.false_eq_true, if_false, Clocked.wp_bind, wp_set, Hub.wp_atStation]
          exact Station.wp_schedule (fun timeline _ => .done timeline) trivial
  | cons request rest =>
      simp only [drainNext, Clocked.wp_bind, Hub.wp_atStation]
      exact Station.wp_settle_counted
        (fun governor recorder hreturned hcounted => .next hreturned hcounted) fun _ _ => trivial

/-- The death of the present link. -/
theorem wp_die (use : DeathUse) (hub : Hub) :
    wp (die hub.link.epoch use)
      (fun progress after => ∃ recorder,
        recorder.books.counters = hub.station.counters.count (.death hub.doomed.length) ∧
          Fails use (hub.buried recorder) hub.doomed progress after)
      (fun _ => True) hub := by
  simp only [die, Clocked.wp_bind, wp_get, Link.confirmDeath_self, wp_set, Hub.wp_atStation]
  refine Station.wp_drainAll_counted (fun recorder hcounted => ?_) fun _ _ _ => trivial
  refine (wp_drainNext hub.doomed use (hub.buried recorder)).mono (fun progress after hfails => ?_)
    fun _ h => h
  exact ⟨recorder, hcounted, hfails⟩

namespace Fails

variable {requests : List PendingRequest}

/-- To fail requests changes the note of a scheduled attempt in the link, and nothing else there. -/
theorem link (h : Fails use hub requests progress after) :
    after.link = { hub.link with retryArmed := after.link.retryArmed } := by
  cases h <;> rfl

/-- The ledger and the numbers it is drawn from are left alone. -/
theorem ledger (h : Fails use hub requests progress after) :
    after.station.ledger = hub.station.ledger ∧ after.station.entropy = hub.station.entropy := by
  cases h <;> exact ⟨rfl, rfl⟩

/-- No death is counted by it. -/
theorem counters (h : Fails use hub requests progress after) :
    after.station.counters.deaths = hub.station.counters.deaths ∧
      after.station.counters.drained = hub.station.counters.drained := by
  cases h with
  | done timeline => exact ⟨rfl, rfl⟩
  | next returned counted =>
      simp only [Station.counters, counted]
      exact ⟨Counters.deaths_completed .., Counters.drained_completed ..⟩

end Fails

end Hub

/-- The calls that wait below the one that a move makes or answers. -/
def Moment.base (m : Moment) : List Suspension :=
  match m.move with
  | .answer _ _ => m.before.stack.tail
  | _ => m.before.stack

namespace Engine

variable {e after : Engine} {move : Move} {cookie : Epoch}

/-- News of a death, wherever it comes from, is looked into by one transition. -/
theorem Step.of_death? (h : e.Step move after) (death : move.death? = some cookie) :
    ∃ advance use, after =
      { e with stack := (Moment.mk e move after).base }.follow advance (Hub.die cookie use) := by
  cases h with
  | call call control admits =>
      cases call with
      | die named =>
          cases death
          exact ⟨none, .report, rfl⟩
      | _ => cases death
  | answer advance call answer last control stack =>
      cases call with
      | send live serial kind payload =>
          cases answer with
          | ok done => cases death
          | error fault =>
              cases death
              exact ⟨advance, .failedSend serial, rfl⟩
      | sendAck live =>
          cases answer with
          | ok done => cases death
          | error fault =>
              cases death
              exact ⟨advance, .failedAck, rfl⟩
      | _ => cases death
  | _ => cases death

/-- News of another epoch changes nothing, and nobody is called because of it. -/
theorem Step.stale (h : e.Step move after) (death : move.death? = some cookie)
    (hne : cookie ≠ e.hub.link.epoch) :
    after.hub = e.hub ∧ after.stack = (Moment.mk e move after).base ∧
      (Moment.mk e move after).made = none := by
  obtain ⟨advance, use, heq⟩ := h.of_death? death
  rw [follow, Hub.die_of_stale hne] at heq
  have hcalling : after.calling = none := by
    refine calling_of_control ?_
    rw [heq]
    cases advance <;> simp
  refine ⟨?_, ?_, ?_⟩
  · rw [heq]
    cases advance <;> rfl
  · rw [heq]
    cases advance <;> rfl
  · unfold Moment.made
    split
    · rfl
    · rfl
    · exact hcalling

/-- News of the present epoch makes the link dead and takes out the pending requests. -/
theorem Step.confirmed (h : e.Step move after) (huncut : ¬ after.IsCut)
    (death : move.death? = some e.hub.link.epoch) :
    ∃ advance use progress hub recorder,
      after = { e with stack := (Moment.mk e move after).base }.reach advance progress hub ∧
        recorder.books.counters = e.hub.station.counters.count (.death e.hub.doomed.length) ∧
        Hub.Fails use (e.hub.buried recorder) e.hub.doomed progress hub := by
  obtain ⟨advance, use, heq⟩ := h.of_death? death
  have huncut' := huncut
  rw [heq] at huncut'
  obtain ⟨progress, hub, ⟨recorder, hcounted, hfails⟩, hreach⟩ :=
    follow_eq_reach (e := { e with stack := (Moment.mk e move after).base })
      (Hub.wp_die use e.hub) huncut'
  exact ⟨advance, use, progress, hub, recorder, heq.trans hreach, hcounted, hfails⟩

end Engine

end ModemLink
