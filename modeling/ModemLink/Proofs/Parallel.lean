import ModemLink.Proofs.Abreast
import ModemLink.Proofs.Bench
import ModemLink.Proofs.Custody

/-!
# Engines that differ in acknowledgments only

Two engines whose stations are alike, whose links are equal and whose calls wait for the same
answers do the same.  Each transition makes the same outgoing call in both, ends with the same
result, or is cut short by the same overflow.  While the tasks of an advance are taken off, one of
the engines may run ack timers that the other has not or has already run, so their clocks may show
different times between two tasks; as soon as a task is run that both have, they show the same
again.

* `Hub.agree_answered`, `Hub.agree_submit` and the others -- one lemma for each transition;
* `Engine.Parallel` -- what is compared of two engines;
* `Engine.Beside.follow` -- after a transition they are alike, and have the same to tell.
-/

namespace ModemLink

/-- Two transitions come equally far, and carry on no request that holds a unit of the ack guard. -/
def Progress.Shared (progress other : Progress) : Prop :=
  progress = other ∧ ∀ request ∈ progress.carried, request.AckFree

theorem Progress.shared_ends (returned : Returned) : Shared (.ends returned) (.ends returned) :=
  ⟨rfl, by simp [carried]⟩

theorem Progress.shared_waits {call : Outgoing} (h : call.carried = []) :
    Shared (.waits call) (.waits call) :=
  ⟨rfl, by simp [carried, h]⟩

namespace Hub

/-- The stations of two hubs are alike, and the rest is equal. -/
structure Alike (hub other : Hub) : Prop where
  station : hub.station.Alike other.station
  link : hub.link = other.link
  reconnectDelay : hub.reconnectDelay = other.reconnectDelay

/-- The clocks of two hubs that are alike show the same. -/
structure Abreast (hub other : Hub) : Prop extends Alike hub other where
  now : hub.station.now = other.station.now

theorem Alike.symm {hub other : Hub} (h : hub.Alike other) : other.Alike hub :=
  ⟨h.station.symm, h.link.symm, h.reconnectDelay.symm⟩

open Clocked

variable {hub other : Hub}

namespace Abreast

theorem stations (h : hub.Abreast other) : hub.station.Abreast other.station :=
  ⟨h.station, h.now⟩

theorem withStation (h : hub.Abreast other) {s t : Station} (hst : s.Abreast t) :
    Abreast { hub with station := s } { other with station := t } :=
  ⟨{ h with station := hst.toAlike }, hst.now⟩

/-- Links that change in the same way stay equal. -/
theorem withLink (h : hub.Abreast other) (link : Link) :
    Abreast { hub with link } { other with link } :=
  { h with link := rfl }

end Abreast

/-- Stations that are abreast make hubs that are. -/
theorem agree_atStation {α : Type} {answers : α → α → Prop} {act act' : Clocked Station α}
    (h : hub.Abreast other)
    (hact : Agree Station.Abreast answers act act' hub.station other.station) :
    Agree Abreast answers (atStation act) (atStation act') hub other :=
  hact.within fun _ _ hparts => h.withStation hparts

theorem agree_record (h : hub.Abreast other) (m : Measurement) :
    Agree Abreast Eq (record m) (record m) hub other :=
  agree_atStation h (Station.agree_record h.stations m)

theorem agree_scheduleReconnect (h : hub.Abreast other) :
    Agree Abreast Eq scheduleReconnect scheduleReconnect hub other := by
  unfold scheduleReconnect
  rw [agree_get_bind, ← h.link]
  cases hub.link.armRetry with
  | none => exact agree_pure rfl h
  | some link =>
      have harmed := h.withLink link
      rw [agree_set_bind]
      refine agree_atStation harmed ?_
      rw [h.reconnectDelay]
      exact Station.agree_schedule h.stations _ (.inl rfl)

theorem agree_bound (h : hub.Abreast other) (use : BindUse) (answer : Except LinkFault LiveLink) :
    Agree Abreast Progress.Shared (bound use answer) (bound use answer) hub other := by
  cases use with
  | connection => exact agree_pure (Progress.shared_ends _) h
  | retry => exact agree_pure (Progress.shared_ends _) h
  | submission serial kind payload =>
      cases answer with
      | ok live =>
          refine (agree_atStation h (Station.agree_arm h.stations serial kind live.epoch)).bind
            fun _ _ _ _ _ h => ?_
          exact agree_pure (Progress.shared_waits rfl) h
      | error fault =>
          refine (agree_atStation h (Station.agree_complete h.stations serial)).bind
            fun found found' _ _ hfound h => ?_
          obtain ⟨rfl, hfree⟩ := hfound
          cases found with
          | none => exact agree_pure (Progress.shared_ends _) h
          | some request =>
              refine (agree_atStation h
                (Station.agree_settle h.stations (hfree request rfl) _ _)).bind
                  fun delivery delivery' _ _ hsame h => ?_
              obtain rfl := hsame
              exact agree_pure (Progress.shared_waits rfl) h

theorem agree_bind (h : hub.Abreast other) (use : BindUse) :
    Agree Abreast Progress.Shared (bind use) (bind use) hub other := by
  unfold bind
  rw [agree_get_bind, ← h.link]
  cases hub.link.current with
  | some live => exact agree_bound h use _
  | none => exact agree_pure (Progress.shared_waits rfl) (h.withLink _)

theorem agree_bindAnswered (h : hub.Abreast other) (cookie : Epoch) (use : BindUse)
    (answer : Except LinkFault Handle) :
    Agree Abreast Progress.Shared (bindAnswered cookie use answer)
      (bindAnswered cookie use answer) hub other := by
  unfold bindAnswered
  rw [agree_get_bind, ← h.link]
  cases hub.link.endBind cookie answer with
  | mk outcome link =>
      have hended := h.withLink link
      rw [agree_set_bind]
      cases outcome with
      | ok live =>
          exact (agree_record hended _).bind fun _ _ _ _ _ h => agree_bound h use _
      | error fault =>
          refine (agree_record hended _).bind fun _ _ _ _ _ h => ?_
          exact (agree_scheduleReconnect h).bind fun _ _ _ _ _ h => agree_bound h use _

theorem agree_drainNext (h : hub.Abreast other) {requests : List PendingRequest}
    (hfree : ∀ request ∈ requests, request.AckFree) (use : DeathUse) :
    Agree Abreast Progress.Shared (drainNext requests use) (drainNext requests use) hub other := by
  cases requests with
  | nil =>
      refine (agree_scheduleReconnect h).bind fun _ _ _ _ _ h => ?_
      exact agree_pure (Progress.shared_ends _) h
  | cons request rest =>
      obtain ⟨hrequest, hrest⟩ := List.forall_mem_cons.mp hfree
      refine (agree_atStation h (Station.agree_settle h.stations hrequest _ _)).bind
        fun delivery delivery' _ _ hsame h => ?_
      obtain rfl := hsame
      exact agree_pure ⟨rfl, hrest⟩ h

theorem agree_die (h : hub.Abreast other) (cookie : Epoch) (use : DeathUse) :
    Agree Abreast Progress.Shared (die cookie use) (die cookie use) hub other := by
  unfold die
  rw [agree_get_bind, ← h.link]
  cases hub.link.confirmDeath cookie with
  | none => exact agree_pure (Progress.shared_ends _) h
  | some link =>
      have hdead := h.withLink link
      rw [agree_set_bind]
      refine (agree_atStation hdead (Station.agree_drainAll hdead.stations)).bind
        fun drained drained' _ _ hdrained h => ?_
      obtain ⟨rfl, hfree⟩ := hdrained
      exact agree_drainNext h hfree use

theorem agree_acknowledge (h : hub.Abreast other) (live : Option LiveLink) :
    Agree Abreast Progress.Shared (acknowledge live) (acknowledge live) hub other := by
  cases live with
  | none => exact agree_pure (Progress.shared_ends _) h
  | some live =>
      unfold acknowledge
      rw [agree_get_bind, ← h.station.settings]
      refine (agree_atStation h (Station.agree_acquire_ack h.stations _)).bind
        fun _ _ _ _ _ h => ?_
      exact agree_pure (Progress.shared_waits rfl) h

theorem agree_receive (h : hub.Abreast other) (frame : Frame) :
    Agree Abreast Progress.Shared (receive frame) (receive frame) hub other := by
  unfold receive
  rw [agree_get_bind, ← h.link]
  refine (agree_atStation h (Station.agree_receive h.stations frame)).bind
    fun reception reception' _ _ hsame h => ?_
  cases reception with
  | replied serial delivery =>
      cases reception' with
      | replied serial' delivery' =>
          obtain rfl := Option.some.inj hsame
          exact agree_pure (Progress.shared_waits rfl) h
      | _ => cases hsame
  | _ =>
      cases reception' with
      | replied serial' delivery' => cases hsame
      | _ => exact agree_acknowledge h _

theorem agree_submit (h : hub.Abreast other) (kind : RequestKind) (payload : Payload)
    (target : TargetId) (source : Option WorkSource)
    (hroom : hub.station.ledger.size < Serial.space) :
    Agree Abreast Progress.Shared (submit kind payload target source)
      (submit kind payload target source) hub other := by
  have hrecord : wp (record (.submitted kind))
      (fun _ after => after.station.ledger = hub.station.ledger) (fun _ => True) hub := by
    rw [record, wp_atStation]
    exact Station.wp_record (fun _ _ => rfl) fun _ => trivial
  have hacquire : ∀ hub : Hub, ∀ source, wp (atStation (Station.acquire .request source))
      (fun _ after => after.station.ledger = hub.station.ledger) (fun _ => True) hub := by
    intro hub source
    rw [wp_atStation]
    exact Station.wp_acquire (fun _ => rfl) trivial
  unfold submit
  rw [agree_get_bind, ← h.station.settings]
  refine (agree_record h _).bind_of_run fun _ _ first _ hrun _ h => ?_
  have hfirst := (wp_of_ok hrun).mp hrecord
  refine (agree_atStation h (Station.agree_acquire h.stations _)).bind_of_run
    fun ticket ticket' second _ hrun hticket h => ?_
  have hsecond := (wp_of_ok hrun).mp (hacquire first _)
  obtain ⟨rfl, hguard⟩ := hticket
  rw [← hfirst, ← hsecond] at hroom
  refine (agree_atStation h (Station.agree_enroll h.stations kind target _ hroom hguard)).bind
    fun serial serial' _ _ hsame h => ?_
  obtain rfl := hsame
  exact agree_bind h _

theorem agree_runTask (h : hub.Abreast other) {task : Task} (htask : task.isAckTimer = false) :
    Agree Abreast Progress.Shared (runTask task) (runTask task) hub other := by
  cases task with
  | expiry guard sequence =>
      have hguard : guard ≠ .ack := by
        rintro rfl
        cases htask
      refine (agree_atStation h (Station.agree_expire h.stations hguard sequence)).bind
        fun _ _ _ _ _ h => ?_
      exact agree_pure (Progress.shared_ends _) h
  | deadline serial kind sentIn =>
      unfold runTask
      rw [agree_get_bind, ← h.link]
      refine (agree_atStation h (Station.agree_overdue h.stations serial sentIn _)).bind
        fun found found' _ _ hsame h => ?_
      obtain rfl := hsame
      cases found with
      | none => exact agree_pure (Progress.shared_ends _) h
      | some delivery => exact agree_pure (Progress.shared_waits rfl) h
  | reconnect =>
      unfold runTask
      rw [agree_get_bind, ← h.link, agree_set_bind]
      have hdisarmed := h.withLink hub.link.disarmRetry
      split
      · exact agree_pure (Progress.shared_ends _) hdisarmed
      · exact agree_bind hdisarmed _

theorem agree_answered (h : hub.Abreast other) (call : Outgoing) (answer : call.Answer)
    (hfree : ∀ request ∈ call.carried, request.AckFree) :
    Agree Abreast Progress.Shared (answered call answer) (answered call answer) hub other := by
  cases call with
  | bind cookie use => exact agree_bindAnswered h cookie use answer
  | send live serial kind payload =>
      cases answer with
      | ok _ => exact agree_pure (Progress.shared_ends _) h
      | error fault => exact agree_die h _ _
  | deliver delivery use =>
      cases use with
      | reply live => exact agree_acknowledge h live
      | refusal serial => exact agree_pure (Progress.shared_ends _) h
      | drain rest use => exact agree_drainNext h hfree use
      | deadline => exact agree_pure (Progress.shared_ends _) h
  | sendAck live =>
      cases answer with
      | ok _ =>
          exact (agree_record h _).bind fun _ _ _ _ _ h => agree_pure (Progress.shared_ends _) h
      | error fault => exact agree_die h _ _

/-! ### What comes to one of the hubs alone -/

/-- An indication does not show, unless it is cut off; an acknowledgment is sent for it if it asks
for one and there is a handle. -/
theorem receive_indication_aside (h : hub.Abreast other) (kind : IndicationKind)
    (payload : Payload) (ackRequired : Bool) :
    wp (receive (.indication kind payload ackRequired))
      (fun progress after => after.Abreast other ∧
        (progress = .ends .handled ∨ ∃ live, progress = .waits (.sendAck live) ∧
          ackRequired = true ∧ hub.link.current = some live))
      (fun _ => True) hub := by
  obtain ⟨reached, station, hrun, hstation⟩ :=
    Station.receiveIndication_aside h.stations kind payload
  have hreceived : Abreast { hub with station } other :=
    ⟨{ h with station := hstation.toAlike }, hstation.now⟩
  simp only [receive, wp_bind, wp_get, wp_atStation]
  refine (wp_of_ok hrun).mpr ?_
  have hnone : wp (acknowledge none) (fun progress after => after.Abreast other ∧
        (progress = .ends .handled ∨ ∃ live, progress = .waits (.sendAck live) ∧
          ackRequired = true ∧ hub.link.current = some live))
      (fun _ => True) { hub with station } := ⟨hreceived, .inl rfl⟩
  cases ackRequired with
  | false => exact hnone
  | true =>
      change wp (acknowledge hub.link.current) _ _ _
      cases hlive : hub.link.current with
      | none =>
          rw [hlive] at hnone
          exact hnone
      | some live =>
          simp only [acknowledge, wp_bind, wp_get, wp_atStation]
          refine wp_intro (fun _ after hacquire => ?_) fun _ _ _ => trivial
          have hafter := Station.acquire_ack_aside hreceived.stations hacquire
          refine ⟨⟨{ h with station := hafter.toAlike }, hafter.now⟩, .inr ⟨live, ?_⟩⟩
          simp

/-- That an acknowledgment was sent does not show. -/
theorem answered_sendAck_aside (h : hub.Abreast other) (live : LiveLink) :
    ∃ after, answered (.sendAck live) (Except.ok ()) hub = .ok (.ends .handled) after ∧
      after.Abreast other := by
  obtain ⟨station, hrun, hstation⟩ := Station.record_aside h.stations (m := .localAck) rfl
  refine ⟨{ hub with station }, ?_, ⟨{ h with station := hstation.toAlike }, hstation.now⟩⟩
  have hrecord : record .localAck hub = .ok () { hub with station } := by
    simp only [record, atStation, within, hrun]
  exact bind_of_ok hrecord _

/-- The end of an ack timer does not show, unless it is cut off. -/
theorem runTask_ack_aside (h : hub.Alike other) (sequence : Nat) :
    wp (runTask (.expiry .ack sequence))
      (fun progress after => progress = .ends .handled ∧ after.Alike other ∧
        after.station.timeline = hub.station.timeline)
      (fun _ => True) hub := by
  simp only [runTask, wp_bind, wp_atStation]
  refine wp_intro (fun _ station hrun => ?_) fun _ _ _ => trivial
  obtain ⟨hstation, htimeline⟩ := Station.expire_ack_aside h.station hrun
  exact ⟨rfl, { h with station := hstation }, htimeline⟩

end Hub

/-! ## Engines -/

/-- Whether a task is the deadline of a request. -/
def Task.isDeadline : Task → Bool
  | .deadline _ _ _ => true
  | _ => false

theorem Task.isAckTimer_of_isDeadline {task : Task} (h : task.isDeadline = true) :
    task.isAckTimer = false := by
  cases task with
  | deadline _ _ _ => rfl
  | _ => cases h

/-- Whether a call delivers the result of a deadline. -/
def Outgoing.isDeadline : Outgoing → Bool
  | .deliver _ .deadline => true
  | _ => false

/-- Whether a call binds again after the link was lost. -/
def Outgoing.isRetry : Outgoing → Bool
  | .bind _ .retry => true
  | _ => false

/-- A call that waits, without the number of tasks that its advance has run. -/
def Suspension.view (suspension : Suspension) : Option Duration × Outgoing :=
  (suspension.advance.map (·.target), suspension.call)

namespace Engine

/-- It is the surroundings' turn in both engines, at the same time, and calls that wait are to be
given up in both or in neither; or it is the engines' turn, and their advances lead equally far. -/
inductive SameTurn (e other : Engine) : Prop
  | outside {last last' : Option Returned} (control : e.control = .outside last)
      (control' : other.control = .outside last') (now : e.now = other.now)
      (cuts : e.stack ≠ [] → e.control.cuts = other.control.cuts)
  | firing {advance advance' : Advance} (control : e.control = .firing advance)
      (control' : other.control = .firing advance') (target : advance.target = advance'.target)

/-- The hubs of two engines are related, the same calls wait in both, none of them for requests that
hold a unit of the ack guard, and both have equally many owners. -/
structure Beside (hubs : Hub → Hub → Prop) (e other : Engine) : Prop where
  hub : hubs e.hub other.hub
  stack : e.stack.map Suspension.view = other.stack.map Suspension.view
  carried : ∀ request ∈ carriedBy e.stack, request.AckFree
  owners : e.owners = other.owners

/-- Nothing but what indications and local acknowledgments leave behind tells two engines apart, the
results of the latest calls aside. -/
structure Parallel (e other : Engine) : Prop extends Beside Hub.Alike e other where
  turn : e.SameTurn other

variable {e other : Engine}

theorem SameTurn.symm (h : e.SameTurn other)
    (hstack : e.stack.map Suspension.view = other.stack.map Suspension.view) :
    other.SameTurn e := by
  cases h with
  | outside control control' now cuts =>
      refine .outside control' control now.symm fun hne => (cuts ?_).symm
      rintro hnil
      rw [hnil] at hstack
      exact hne (List.map_eq_nil_iff.mp hstack.symm)
  | firing control control' target => exact .firing control' control target.symm

/-- Whose turn it is depends on no more than where the engines stand, the time, and whether calls
wait. -/
theorem SameTurn.congr (h : e.SameTurn other) {after after' : Engine}
    (hcontrol : after.control = e.control) (hcontrol' : after'.control = other.control)
    (hnow : after.now = e.now) (hnow' : after'.now = other.now) (hstack : after.stack = e.stack) :
    after.SameTurn after' := by
  cases h with
  | outside control control' now cuts =>
      refine .outside (hcontrol.trans control) (hcontrol'.trans control') ?_ ?_
      · rw [hnow, hnow', now]
      · rw [hstack, hcontrol, hcontrol']
        exact cuts
  | firing control control' target =>
      exact .firing (hcontrol.trans control) (hcontrol'.trans control') target

/-- The requests that calls carry can be read off their views. -/
theorem carriedBy_eq (stack : List Suspension) :
    carriedBy stack = (stack.map Suspension.view).flatMap (·.2.carried) := by
  rw [List.flatMap_map]
  rfl

theorem Parallel.symm (h : e.Parallel other) : other.Parallel e := by
  refine ⟨⟨h.hub.symm, h.stack.symm, ?_, h.owners.symm⟩, h.turn.symm h.stack⟩
  rw [carriedBy_eq, ← h.stack, ← carriedBy_eq]
  exact h.carried

theorem Parallel.outside (h : e.Parallel other) {last : Option Returned}
    (control : e.control = .outside last) :
    Beside Hub.Abreast e other ∧ (∃ last', other.control = .outside last') ∧
      (e.stack ≠ [] → e.control.cuts = other.control.cuts) := by
  cases h.turn with
  | outside _ control' now cuts =>
      exact ⟨{ h with hub := ⟨h.hub, now⟩ }, ⟨_, control'⟩, cuts⟩
  | firing control' _ _ =>
      rw [control] at control'
      cases control'

theorem Parallel.firing (h : e.Parallel other) {advance : Advance}
    (control : e.control = .firing advance) :
    ∃ advance', other.control = .firing advance' ∧ advance.target = advance'.target := by
  cases h.turn with
  | outside control' _ _ _ =>
      rw [control] at control'
      cases control'
  | firing control' other_control target =>
      rw [control] at control'
      cases control'
      exact ⟨_, other_control, target⟩

/-- The same call is on top of both stacks. -/
theorem Beside.top {hubs : Hub → Hub → Prop} (h : Beside hubs e other) {advance : Option Advance}
    {call : Outgoing} {rest : List Suspension} (hstack : e.stack = ⟨advance, call⟩ :: rest) :
    ∃ advance' rest', other.stack = ⟨advance', call⟩ :: rest' ∧
      advance.map (·.target) = advance'.map (·.target) ∧
      rest.map Suspension.view = rest'.map Suspension.view := by
  have hviews := h.stack
  rw [hstack] at hviews
  cases hstack' : other.stack with
  | nil =>
      rw [hstack'] at hviews
      cases hviews
  | cons top rest' =>
      obtain ⟨advance', call'⟩ := top
      rw [hstack'] at hviews
      obtain ⟨htop, hrest⟩ := List.cons.inj hviews
      obtain ⟨htarget, hcall⟩ := Prod.mk.inj htop
      obtain rfl : call = call' := hcall
      exact ⟨advance', rest', rfl, htarget, hrest⟩

/-- A transition leads both engines equally far, and they have the same to tell then. -/
theorem Beside.follow (h : Beside Hub.Abreast e other) {advance advance' : Option Advance}
    (hadvance : advance.map (·.target) = advance'.map (·.target))
    {transition : Clocked Hub Progress}
    (hagree : Clocked.Agree Hub.Abreast Progress.Shared transition transition e.hub other.hub) :
    (e.follow advance transition).Parallel (other.follow advance' transition) ∧
      (e.follow advance transition).note? = (other.follow advance' transition).note? := by
  rcases hagree.cases with ⟨progress, progress', hub, hub', hrun, hrun', ⟨rfl, hfree⟩, hhub⟩ |
    ⟨overflow, hub, hub', hrun, hrun', hhub⟩
  · unfold Engine.follow
    rw [hrun, hrun']
    cases progress with
    | waits call =>
        refine ⟨⟨⟨hhub.toAlike, ?_, ?_, h.owners⟩, .outside rfl rfl hhub.now fun _ => rfl⟩, ?_⟩
        · simp only [List.map_cons, Suspension.view, hadvance, h.stack]
        · intro request hmem
          rcases List.mem_append.mp hmem with hcall | hrest
          · exact hfree request hcall
          · exact h.carried request hrest
        · cases call with
          | deliver delivery use =>
              exact congrArg (fun now => some (Note.mk now (.delivered delivery))) hhub.now
          | _ => rfl
    | ends returned =>
        have hbeside (control control' : Control) : Beside Hub.Alike
            { e with hub, control } { other with hub := hub', control := control' } :=
          ⟨hhub.toAlike, h.stack, h.carried, h.owners⟩
        cases advance with
        | none =>
            obtain rfl : advance' = none := Option.map_eq_none_iff.mp hadvance.symm
            refine ⟨⟨hbeside _ _, .outside rfl rfl hhub.now fun _ => rfl⟩, ?_⟩
            cases returned with
            | submitted serial =>
                exact congrArg (fun now => some (Note.mk now (.submitted serial))) hhub.now
            | connected answer =>
                exact congrArg (fun now => some (Note.mk now (.connected answer))) hhub.now
            | _ => rfl
        | some advance =>
            cases advance' with
            | none => cases hadvance
            | some advance' =>
                exact ⟨⟨hbeside _ _, .firing rfl rfl (Option.some.inj hadvance)⟩, rfl⟩
  · unfold Engine.follow
    rw [hrun, hrun']
    exact ⟨⟨⟨hhub.toAlike, h.stack, h.carried, h.owners⟩,
      .outside rfl rfl hhub.now fun _ => rfl⟩, rfl⟩

/-! ## What surroundings and tasks do -/

/-- A call does the same to both. -/
theorem Parallel.call (h : e.Parallel other) {last : Option Returned}
    (control : e.control = .outside last) {call : Call} (hadmits : e.Admits call) :
    (e.call call).Parallel (other.call call) ∧ (e.call call).note? = (other.call call).note? := by
  obtain ⟨hbeside, -, -⟩ := h.outside control
  have hhub := hbeside.hub
  cases call with
  | submit kind payload target source =>
      exact hbeside.follow rfl (Hub.agree_submit hhub kind payload target source hadmits)
  | connect => exact hbeside.follow rfl (Hub.agree_bind hhub _)
  | receive frame => exact hbeside.follow rfl (Hub.agree_receive hhub frame)
  | die cookie => exact hbeside.follow rfl (Hub.agree_die hhub cookie _)
  | advance length =>
      have hnow : e.hub.station.timeline.now = other.hub.station.timeline.now := hhub.now
      simp only [Engine.call, Timeline.beginAdvance]
      rw [hnow]
      cases other.hub.station.timeline.now.add? length with
      | ok target =>
          exact ⟨⟨{ hbeside with hub := hhub.toAlike }, .firing rfl rfl rfl⟩, rfl⟩
      | error overflow =>
          exact ⟨⟨{ hbeside with hub := hhub.toAlike }, .outside rfl rfl hnow fun _ => rfl⟩, rfl⟩

/-- The answer to the call on top of both stacks does the same to both. -/
theorem Parallel.resume (h : e.Parallel other) {last : Option Returned}
    (control : e.control = .outside last) {advance advance' : Option Advance} {call : Outgoing}
    {rest rest' : List Suspension} (hstack : e.stack = ⟨advance, call⟩ :: rest)
    (hstack' : other.stack = ⟨advance', call⟩ :: rest') (answer : call.Answer) :
    (e.resume ⟨advance, call⟩ answer).Parallel (other.resume ⟨advance', call⟩ answer) ∧
      (e.resume ⟨advance, call⟩ answer).note? = (other.resume ⟨advance', call⟩ answer).note? := by
  obtain ⟨hbeside, -, -⟩ := h.outside control
  have hviews := hbeside.stack
  rw [hstack, hstack'] at hviews
  obtain ⟨htop, hrest⟩ := List.cons.inj hviews
  have hcarried := hbeside.carried
  rw [hstack, carriedBy_cons] at hcarried
  have hpopped : Beside Hub.Abreast { e with stack := e.stack.tail }
      { other with stack := other.stack.tail } := by
    rw [hstack, hstack']
    exact ⟨hbeside.hub, hrest, fun request hmem => hcarried request (List.mem_append_right _ hmem),
      hbeside.owners⟩
  refine hpopped.follow (Prod.mk.inj htop).1 (Hub.agree_answered hbeside.hub call answer ?_)
  exact fun request hmem => hcarried request (List.mem_append_left _ hmem)

/-- To give up the call on top of the stack does the same to both. -/
theorem Parallel.abandon (h : e.Parallel other) {last : Option Returned}
    (control : e.control = .outside last) (overflow overflow' : Overflow) :
    (e.abandon overflow).Parallel (other.abandon overflow') := by
  obtain ⟨hbeside, -, -⟩ := h.outside control
  refine ⟨⟨hbeside.hub.toAlike, ?_, ?_, hbeside.owners⟩, .outside rfl rfl hbeside.hub.now
    fun _ => rfl⟩
  · simp only [Engine.abandon, List.map_tail, hbeside.stack]
  · intro request hmem
    refine hbeside.carried request ?_
    cases hstack : e.stack with
    | nil =>
        simp only [Engine.abandon, hstack] at hmem
        cases hmem
    | cons top rest =>
        simp only [Engine.abandon, hstack, List.tail_cons] at hmem
        exact List.mem_append_right _ hmem

theorem Beside.any_stack {hubs : Hub → Hub → Prop} (h : Beside hubs e other)
    (p : Option Duration × Outgoing → Bool) :
    e.stack.any (fun suspension => p suspension.view) =
      other.stack.any (fun suspension => p suspension.view) := by
  have hviews := congrArg (List.any · p) h.stack
  simp only [List.any_map] at hviews
  exact hviews

/-- What tasks work on is still there in both or in neither. -/
theorem Beside.serves {hubs : Hub → Hub → Prop} (h : Beside hubs e other)
    (htimeline : e.hub.station.timeline.Alike other.hub.station.timeline) (task : Task) :
    e.serves task = other.serves task := by
  have hservice : e.inService = other.inService := by
    have hcallers : e.stack.any (·.advance.isNone) = other.stack.any (·.advance.isNone) := by
      simpa only [Suspension.view, Option.isNone_map] using h.any_stack (·.1.isNone)
    unfold inService
    rw [h.owners, hcallers]
  have hledger : e.keepsLedger = other.keepsLedger := by
    have hdeadlines := htimeline.any_task fun _ => Task.isAckTimer_of_isDeadline
    have hdeliveries := h.any_stack (·.2.isDeadline)
    exact congrArg₂ or (congrArg₂ or hservice hdeadlines) hdeliveries
  have hlink : e.keepsLink = other.keepsLink := by
    have hbinds := h.any_stack (·.2.isRetry)
    exact congrArg₂ or hservice hbinds
  cases task with
  | expiry guard sequence => exact hledger
  | deadline serial kind epoch => rfl
  | reconnect => exact hlink

theorem ackDue_eq_false {advance : Advance} (control : e.control = .firing advance) :
    e.ackDue = false ↔ ∀ task timeline,
      e.hub.station.timeline.popDue? advance.target = some (task, timeline) →
        task.isAckTimer = false := by
  simp only [ackDue, control]
  cases e.hub.station.timeline.popDue? advance.target with
  | none => simp
  | some popped =>
      obtain ⟨task, timeline⟩ := popped
      simp

/-- A task that is no ack timer does the same to both, and so does the end of the advance. -/
theorem Parallel.fire (h : e.Parallel other) {advance advance' : Advance}
    (control : e.control = .firing advance) (control' : other.control = .firing advance')
    (hfree : e.ackDue = false) (hfree' : other.ackDue = false) :
    (e.fire advance).Parallel (other.fire advance') ∧
      (e.fire advance).note? = (other.fire advance').note? := by
  obtain ⟨found, hfound, htarget⟩ := h.firing control
  obtain rfl : found = advance' := by
    rw [control'] at hfound
    exact (Control.firing.inj hfound).symm
  have hpops := (ackDue_eq_false control).mp hfree
  have hpops' := (ackDue_eq_false control').mp hfree'
  rw [← htarget] at hpops'
  unfold Engine.fire
  rw [← htarget]
  rcases h.hub.station.timeline.popDue hpops hpops' with ⟨hnone, hnone'⟩ |
    ⟨task, timeline, timeline', hpop, hpop', htimeline, hnow, hother⟩
  · -- The advance is over, and both clocks are set to its target.
    rw [hnone, hnone']
    exact ⟨⟨⟨{ h.hub with station := { h.hub.station with
      timeline := h.hub.station.timeline.withNow _ _ } }, h.stack, h.carried, h.owners⟩,
      .outside rfl rfl rfl fun _ => rfl⟩, rfl⟩
  · -- Both clocks show the deadline of the task, whatever they showed before.
    rw [hpop, hpop']
    have hpopped : Beside Hub.Abreast (e.withTimeline timeline) (other.withTimeline timeline') :=
      ⟨⟨{ h.hub with station := { h.hub.station with timeline := htimeline } }, hnow⟩, h.stack,
        h.carried, h.owners⟩
    dsimp only
    rw [hpopped.serves htimeline]
    split
    · have hadvance : (some advance).map (·.target) = (some found).map (·.target) :=
        congrArg some htarget
      exact hpopped.follow hadvance (Hub.agree_runTask hpopped.hub hother)
    · exact ⟨⟨{ hpopped with hub := hpopped.hub.toAlike }, .firing rfl rfl htarget⟩, rfl⟩

theorem exists_firing (h : e.ackDue = true) : ∃ advance, e.control = .firing advance := by
  unfold ackDue at h
  split at h
  · exact ⟨_, ‹_›⟩
  · cases h

/-- An ack timer that one of the engines runs does not show, unless it is cut off; and it is off the
queue then. -/
theorem Parallel.fire_ack (h : e.Parallel other) {advance : Advance}
    (control : e.control = .firing advance) (hdue : e.ackDue = true)
    (huncut : ¬ (e.fire advance).IsCut) :
    (e.fire advance).Parallel other ∧ (e.fire advance).note? = none ∧
      (e.fire advance).hub.station.timeline.waiting < e.hub.station.timeline.waiting := by
  obtain ⟨advance', control', htarget⟩ := h.firing control
  simp only [ackDue, control] at hdue
  unfold Engine.fire at huncut ⊢
  cases hpop : e.hub.station.timeline.popDue? advance.target with
  | none =>
      rw [hpop] at hdue
      cases hdue
  | some popped =>
      obtain ⟨task, timeline⟩ := popped
      rw [hpop] at hdue huncut
      have hack : task.isAckTimer = true := hdue
      have htimeline := h.hub.station.timeline.popAck hpop hack
      have hfewer : timeline.waiting < e.hub.station.timeline.waiting := by
        have hlength := Timeline.length_popDue? hpop
        unfold Timeline.waiting
        omega
      have hpopped : Hub.Alike (e.withTimeline timeline).hub other.hub :=
        { h.hub with station := { h.hub.station with timeline := htimeline } }
      have hquiet (after : Hub) (halike : after.Alike other.hub) :
          Engine.Parallel { e with hub := after, control := .firing advance.step } other :=
        ⟨⟨halike, h.stack, h.carried, h.owners⟩, .firing rfl control' htarget⟩
      dsimp only at huncut ⊢
      split at huncut
      · rename_i hserves
        rw [if_pos hserves]
        obtain ⟨sequence, rfl⟩ := Task.isAckTimer_iff.mp hack
        obtain ⟨progress, hub, ⟨rfl, halike, hsame⟩, heq⟩ :=
          follow_eq_reach (Hub.runTask_ack_aside hpopped sequence) huncut
        rw [heq]
        refine ⟨hquiet hub halike, rfl, ?_⟩
        change hub.station.timeline.waiting < _
        rw [hsame]
        exact hfewer
      · rename_i hserves
        rw [if_neg hserves]
        exact ⟨hquiet _ hpopped, rfl, hfewer⟩

end Engine

end ModemLink
