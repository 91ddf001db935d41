import ModemLink.Proofs.Runs

/-!
# What every transition keeps to

A transition changes the parts of a hub one after the other: it lets the station act, it begins or
ends a bind, it lets the link die, it schedules the next attempt.  A relation that each of these
changes keeps to is kept by the transition, whichever way it takes, and also if an overflow cuts it
short.  So what is to be shown of all transitions is shown of the changes.

* `Hub.Tends` -- a relation that every change of a part keeps to;
* `Hub.Tends.answered`, `Hub.Tends.runTask` and the others -- so does every transition.
-/

namespace ModemLink

namespace Hub

open Clocked

/-- A relation between hubs that holds where the station changes as `rs` says, and wherever a
transition changes the link. -/
structure Tends (rs : Station → Station → Prop) (r : Hub → Hub → Prop) : Prop where
  station : Station.Tends rs
  lift : ∀ (hub : Hub) {station : Station}, rs hub.station station → r hub { hub with station }
  begun : ∀ hub : Hub, r hub { hub with link := hub.link.beginBind }
  ended : ∀ (hub : Hub) cookie answer,
    r hub { hub with link := (hub.link.endBind cookie answer).2 }
  died : ∀ (hub : Hub) {cookie : Epoch} {link : Link},
    hub.link.confirmDeath cookie = some link → r hub { hub with link }
  scheduleReconnect : Moves r r scheduleReconnect

namespace Tends

variable {rs : Station → Station → Prop} {r : Hub → Hub → Prop}

theorem atStation {α : Type} {act : Clocked Station α} (h : Tends rs r) (hact : Moves rs rs act) :
    Moves r r (atStation act) := by
  intro hub
  rw [wp_atStation]
  exact (hact hub.station).mono (fun _ _ => h.lift hub) fun _ => h.lift hub

theorem record (h : Tends rs r) (m : Measurement) : Moves r r (record m) :=
  h.atStation (h.station.record m)

variable [IsPreorder Station rs] [IsPreorder Hub r]

/-- A request is sent or refused. -/
theorem bound (h : Tends rs r) (use : BindUse) (answer : Except LinkFault LiveLink) :
    Moves r r (bound use answer) := by
  cases use with
  | connection => exact moves_pure _
  | retry => exact moves_pure _
  | submission serial kind payload =>
      cases answer with
      | ok live => exact (h.atStation (h.station.arm _ _ _)).bind fun _ => moves_pure _
      | error fault =>
          refine (h.atStation (h.station.complete serial)).bind fun found => ?_
          cases found with
          | none => exact moves_pure _
          | some request =>
              exact (h.atStation (h.station.settle _ _ _)).bind fun _ => moves_pure _

theorem bind (h : Tends rs r) (use : BindUse) : Moves r r (bind use) := by
  intro hub
  simp only [Hub.bind, wp_bind, wp_get]
  split
  · exact h.bound use _ hub
  · exact h.begun hub

theorem bindAnswered (h : Tends rs r) (cookie : Epoch) (use : BindUse)
    (answer : Except LinkFault Handle) : Moves r r (bindAnswered cookie use answer) := by
  intro hub
  have hended := h.ended hub cookie answer
  simp only [Hub.bindAnswered, wp_bind, wp_get, wp_set]
  split
  · exact ((h.record _).bind fun _ => h.bound use _).mono hended fun _ _ ht => ht
  · exact ((h.record _).bind fun _ => h.scheduleReconnect.bind fun _ => h.bound use _).mono hended
      fun _ _ ht => ht

/-- The next request is failed, or an attempt is scheduled. -/
theorem drainNext (h : Tends rs r) (requests : List PendingRequest) (use : DeathUse) :
    Moves r r (drainNext requests use) := by
  cases requests with
  | nil => exact h.scheduleReconnect.bind fun _ => moves_pure _
  | cons request rest => exact (h.atStation (h.station.settle _ _ _)).bind fun _ => moves_pure _

theorem die (h : Tends rs r) (cookie : Epoch) (use : DeathUse) : Moves r r (die cookie use) := by
  intro hub
  simp only [Hub.die, wp_bind, wp_get]
  split
  · exact Std.Refl.refl hub
  · rename_i link hconfirmed
    rw [wp_bind, wp_set]
    exact ((h.atStation h.station.drainAll).bind fun drained => h.drainNext drained use).mono
      (h.died hub hconfirmed) fun _ _ ht => ht

theorem acknowledge (h : Tends rs r) (live : Option LiveLink) : Moves r r (acknowledge live) := by
  cases live with
  | none => exact moves_pure _
  | some live =>
      exact moves_get.bind fun _ => (h.atStation (h.station.acquire _ _)).bind fun _ =>
        moves_pure _

theorem receive (h : Tends rs r) (frame : Frame) : Moves r r (receive frame) := by
  refine moves_get.bind fun _ => (h.atStation (h.station.receive frame)).bind fun reception => ?_
  cases reception with
  | replied serial delivery => exact moves_pure _
  | _ => exact h.acknowledge _

/-- A task.  That of an attempt to bind takes away the note of it first. -/
theorem runTask (h : Tends rs r) {hub : Hub} {task : Task}
    (hdisarmed : task = .reconnect → r hub { hub with link := hub.link.disarmRetry }) :
    wp (runTask task) (fun _ after => r hub after) (r hub) hub := by
  cases task with
  | expiry guard sequence =>
      exact ((h.atStation (h.station.expire _ _)).bind fun _ => moves_pure _) hub
  | deadline serial kind sentIn =>
      refine (moves_get.bind fun _ => (h.atStation (h.station.overdue _ _ _)).bind
        fun found => ?_) hub
      cases found with
      | none => exact moves_pure _
      | some delivery => exact moves_pure _
  | reconnect =>
      simp only [Hub.runTask, wp_bind, wp_get, wp_set]
      split
      · exact hdisarmed rfl
      · exact (h.bind .retry).mono (hdisarmed rfl) fun _ _ ht => ht

/-- Every answer to an outgoing call. -/
theorem answered (h : Tends rs r) (call : Outgoing) (answer : call.Answer) :
    Moves r r (answered call answer) := by
  cases call with
  | bind cookie use => exact h.bindAnswered cookie use answer
  | send live serial kind payload =>
      cases answer with
      | ok sent => exact moves_pure _
      | error fault => exact h.die _ _
  | deliver delivery use =>
      cases use with
      | reply live => exact h.acknowledge live
      | refusal serial => exact moves_pure _
      | drain rest use => exact h.drainNext rest use
      | deadline => exact moves_pure _
  | sendAck live =>
      cases answer with
      | ok sent => exact (h.record _).bind fun _ => moves_pure _
      | error fault => exact h.die _ _

end Tends

end Hub

end ModemLink
