import ModemLink.Proofs.AckBooks
import ModemLink.Proofs.Errands

/-!
# Moves and local acknowledgments

At each moment of a run the acknowledgments, the books of the ack guard and the counter fit
together. When a frame comes its acknowledgment is sent at once, with a unit taken for it, or it is
owed: then the target of the frame is called, and the acknowledgment is sent when that call is
answered.  So in the errand of a frame at most one is sent.

* `Frame.Reaches`, `Moment.reaches` -- whom a frame is handed out to;
* `Moment.Acks`, `Engine.Step.acks` -- what a move has to do with acknowledgments;
* `Moment.AckUnits`, `Moment.Acks.units`, `Moment.Acks.counted` -- what happens to the guard and to
  the counter;
* `Errand.acks` -- an errand sends at most the one that is owed after its first moment.
-/

namespace ModemLink

/-! ## What a frame reaches -/

/-- The result that a call delivers. -/
def Outgoing.delivery? : Outgoing → Option Delivery
  | .deliver delivery _ => some delivery
  | _ => none

/-- Whom a frame reaches: a reply to a pending request its target, an indication its subscribers.
Early acknowledgments and replies to nobody reach no one. -/
def Frame.Reaches (before after : Station) (result : Option Delivery) : Frame → Prop
  | .ack _ => result = none
  | .reply serial code payload _ =>
    (∃ request ∈ before.ledger.requests, request.serial = serial ∧
      result = some ⟨request.target, .ofReply code payload⟩) ∨
    ((∀ request ∈ before.ledger.requests, request.serial ≠ serial) ∧ result = none)
  | .indication kind payload _ =>
    result = none ∧ after.subscribers = (before.subscribers.dispatch ⟨kind, payload⟩).2

namespace Hub

open Clocked

/-- To acknowledge a frame delivers nothing and reaches no subscriber. -/
theorem wp_acknowledge_quiet (live : Option LiveLink) (hub : Hub) :
    wp (acknowledge live)
      (fun progress after => progress.call?.bind Outgoing.delivery? = none ∧
        after.station.subscribers = hub.station.subscribers)
      (fun _ => True) hub := by
  cases live with
  | none => exact ⟨rfl, rfl⟩
  | some live =>
      simp only [acknowledge, wp_bind, wp_get, Hub.wp_atStation]
      exact Station.wp_acquire (fun timeline => ⟨rfl, rfl⟩) trivial

/-- A frame reaches whom it is for; if that is a target, the acknowledgment waits for its return. -/
theorem wp_receive_reaches {hub : Hub} (hwf : hub.station.ledger.WellFormed) (frame : Frame) :
    wp (receive frame)
      (fun progress after =>
        frame.Reaches hub.station after.station (progress.call?.bind Outgoing.delivery?) ∧
        (progress.call?.bind Outgoing.delivery? = none ∨
          ∃ delivery, progress.call? = some (.deliver delivery (.reply (hub.ackLink frame)))))
      (fun _ => True) hub := by
  simp only [receive, wp_bind, wp_get, Hub.wp_atStation]
  cases frame with
  | ack serial =>
      simp only [Station.receive, Station.receiveAck, wp_bind, wp_get, wp_set]
      cases (hub.station.ledger.markAcked serial).1 with
      | acked ticket =>
          simp only [wp_bind]
          refine Station.wp_record (fun recorder _ => ?_) fun _ => trivial
          cases ticket with
          | none => exact ⟨rfl, .inl rfl⟩
          | some ticket =>
              simp only [wp_bind]
              exact Station.wp_release (fun good governor _ => ⟨rfl, .inl rfl⟩) fun _ => trivial
      | duplicate => exact ⟨rfl, .inl rfl⟩
      | unknown =>
          simp only [Station.violate, wp_bind]
          exact Station.wp_record (fun recorder _ => ⟨rfl, .inl rfl⟩) fun _ => trivial
  | reply serial code payload ackRequired =>
      simp only [Station.receive, Station.receiveReply, wp_bind]
      refine Station.wp_complete hwf (fun hnone => ?_) fun request hmem hserial ledger hout => ?_
      · simp only [Station.violate, wp_bind]
        refine Station.wp_record (fun recorder _ => ?_) fun _ => trivial
        exact (wp_acknowledge_quiet _ _).mono
          (fun _ _ hquiet => ⟨.inr ⟨hnone, hquiet.1⟩, .inl hquiet.1⟩) fun _ h => h
      · simp only [wp_bind]
        refine Station.wp_settle_counted (fun governor recorder _ _ => ?_) fun _ _ => trivial
        exact ⟨.inl ⟨request, hmem, hserial, rfl⟩, .inr ⟨_, rfl⟩⟩
  | indication kind payload ackRequired =>
      simp only [Station.receive, Station.receiveIndication, wp_bind, wp_get, wp_set]
      refine Station.wp_record (fun recorder _ => ?_) fun _ => trivial
      exact (wp_acknowledge_quiet _ _).mono
        (fun _ _ hquiet => ⟨hquiet, .inl hquiet.1⟩) fun _ h => h

end Hub

/-! ## Moves -/

namespace Moment

/-- The link that an acknowledgment was sent on at a moment. -/
def ack? (m : Moment) : Option LiveLink := m.made.bind Outgoing.acked?

/-- The link that an acknowledgment is to be sent on when the call that a moment made is
answered. -/
def owed? (m : Moment) : Option LiveLink := m.made.bind Outgoing.owed?

/-- The result that was handed out at a moment. -/
def delivery? (m : Moment) : Option Delivery := m.made.bind Outgoing.delivery?

end Moment

/-- The links that acknowledgments were sent on, the latest in front. -/
def History.acks (history : History) : List LiveLink := history.filterMap Moment.ack?

/-- The task that is to be run next. -/
def Engine.due? (e : Engine) : Option Task :=
  match e.control with
  | .firing advance => (e.hub.station.timeline.popDue? advance.target).map (·.1)
  | .outside _ => none

/-- At a moment the timer of the latest ack unit runs out and clears the guard. -/
structure Moment.Expires (m : Moment) : Prop where
  move : m.move = .fire
  made : m.made = none
  due : m.before.due? = some (.expiry .ack m.before.hub.station.governor.ack.sequence)
  cleared : Governor.Clears m.before.hub.station.governor.ack m.after.hub.station.governor.ack
  counted : m.after.hub.station.counters.localAcks = m.before.hub.station.counters.localAcks

/-- What a moment has to do with local acknowledgments. -/
def Moment.Acks (m : Moment) : Prop :=
  (∃ progress, m.made = progress.call? ∧ m.before.hub.Acks m.move progress m.after.hub) ∨ m.Expires

namespace Engine

open Clocked

variable {e after : Engine} {move : Move}

theorem calling_reach_eq (e : Engine) (advance : Option Advance) (progress : Progress) (hub : Hub) :
    (e.reach advance progress hub).calling = progress.call? := by
  rw [calling_reach]
  cases progress <;> rfl

/-- A transition that is followed leaves the hub as it says, and the call that it comes to is
made. -/
theorem exists_of_follow {poised : Engine} {advance : Option Advance}
    {transition : Clocked Hub Progress} {post : Progress → Hub → Prop}
    (hwp : wp transition post (fun _ => True) poised.hub)
    (hafter : after = poised.follow advance transition) (huncut : ¬ after.IsCut) :
    ∃ progress, after.calling = progress.call? ∧ post progress after.hub := by
  subst hafter
  obtain ⟨progress, hub, hpost, hreach⟩ := follow_eq_reach hwp huncut
  rw [hreach, calling_reach_eq, hub_reach]
  exact ⟨progress, rfl, hpost⟩

/-- A move that runs a transition has to do with acknowledgments what the transition has. -/
theorem acks_of_follow (poised : Engine) {advance : Option Advance}
    {transition : Clocked Hub Progress}
    (hwp : wp transition (e.hub.Acks move) (fun _ => True) poised.hub)
    (hafter : after = poised.follow advance transition) (huncut : ¬ after.IsCut)
    (hmade : (Moment.mk e move after).made = after.calling) : (Moment.mk e move after).Acks := by
  obtain ⟨progress, hcall, hacks⟩ := exists_of_follow hwp hafter huncut
  exact .inl ⟨progress, hmade.trans hcall, hacks⟩

/-- Nothing that concerns acknowledgments happens. -/
theorem acks_of_quiet (hspares : e.hub.SparesAcks after.hub)
    (hwanted : move.ackLink e.hub = none) (huntaken : move.takesAck = false)
    (hmade : (Moment.mk e move after).made = none) : (Moment.mk e move after).Acks :=
  .inl ⟨.ends .handled, hmade, .bystands hwanted huntaken ⟨rfl, rfl, hspares⟩⟩

/-- The timer of an ack unit clears the guard if the unit is the latest one, and is idle if not. -/
theorem acks_expiry {poised : Engine} {advance : Option Advance} {sequence : Nat}
    (hpopped : e.hub.SparesAcks poised.hub) (hdue : e.due? = some (.expiry .ack sequence))
    (hafter : after = poised.follow advance (Hub.runTask (.expiry .ack sequence)))
    (huncut : ¬ after.IsCut) : (Moment.mk e .fire after).Acks := by
  obtain ⟨progress, hcall, hnone, hout⟩ := exists_of_follow
    (Hub.wp_runTask_ack poised.hub hpopped.ledger sequence) hafter huncut
  have hmade : (Moment.mk e .fire after).made = none := Eq.trans hcall hnone
  rcases hout with hspares | ⟨hlatest, hclears, hcounted⟩
  · refine acks_of_quiet ⟨hspares.ledger, ?_, ?_⟩ rfl rfl hmade
    · exact hspares.books.trans hpopped.books
    · exact hspares.counted.trans hpopped.counted
  · rw [hpopped.books] at hlatest hclears
    exact .inr ⟨rfl, hmade, hlatest ▸ hdue, hclears, hcounted.trans hpopped.counted⟩

/-- The tasks of the timeline. -/
theorem acks_fire {advance : Advance} (hfree : e.hub.station.ledger.AckFree)
    (control : e.control = .firing advance) (huncut : ¬ (e.fire advance).IsCut) :
    (Moment.mk e .fire (e.fire advance)).Acks := by
  have hpopped : ∀ timeline, e.hub.SparesAcks (e.withTimeline timeline).hub :=
    fun _ => ⟨hfree, rfl, rfl⟩
  have hmade : ∀ after : Engine, after.control ≠ .outside none →
      (Moment.mk e .fire after).made = none := fun _ => calling_of_control
  cases hdue : e.hub.station.timeline.popDue? advance.target with
  | none =>
      have hafter : e.fire advance =
          { e.withTimeline (e.hub.station.timeline.setNow advance.target) with
            control := .outside (some (.advanced advance.fired)) } := by
        simp only [fire, hdue]
      rw [hafter]
      exact acks_of_quiet (hpopped _) rfl rfl (hmade _ (by simp))
  | some due =>
      obtain ⟨task, timeline⟩ := due
      have hafter : e.fire advance =
          if (e.withTimeline timeline).serves task then
            (e.withTimeline timeline).follow (some advance) (Hub.runTask task)
          else { e.withTimeline timeline with control := .firing advance.step } := by
        simp only [fire, hdue]
      have hdue : e.due? = some task := by
        rw [due?, control]
        simp only [hdue, Option.map_some]
      split at hafter
      · cases hack : task.isAckTimer with
        | false =>
            exact acks_of_follow _ (Hub.acks_of_bystands
              (Hub.bystands_runTask (hpopped timeline) hack) rfl rfl) hafter huncut rfl
        | true =>
            obtain ⟨sequence, rfl⟩ := Task.isAckTimer_iff.mp hack
            exact acks_expiry (hpopped timeline) hdue hafter huncut
      · rw [hafter]
        exact acks_of_quiet (hpopped _) rfl rfl (hmade _ (by simp))

/-- What a move has to do with acknowledgments.  No request holds a unit of the ack guard. -/
theorem Step.acks (h : e.Step move after) (huncut : ¬ after.IsCut)
    (hfree : e.hub.station.ledger.AckFree) (hdrained : ∀ request ∈ e.drained, request.AckFree) :
    (Moment.mk e move after).Acks := by
  have hspares : e.hub.SparesAcks e.hub := .refl hfree
  cases h with
  | call call control admits =>
      cases call with
      | submit kind payload target source =>
          exact acks_of_follow e (Hub.acks_of_bystands
            (Hub.bystands_submit hspares admits kind payload target source) rfl rfl) rfl huncut rfl
      | connect =>
          exact acks_of_follow e (Hub.acks_of_bystands
            (Hub.bystands_bind hspares .connection) rfl rfl) rfl huncut rfl
      | receive frame => exact acks_of_follow e (Hub.acks_receive hfree frame) rfl huncut rfl
      | die cookie =>
          exact acks_of_follow e (Hub.acks_of_bystands
            (Hub.bystands_die hspares cookie .report) rfl rfl) rfl huncut rfl
      | advance length =>
          obtain ⟨advance, -, hafter⟩ := exists_advance_of_not_isCut huncut
          refine acks_of_quiet ?_ rfl rfl (calling_of_control ?_)
          · rw [hafter]
            exact hspares
          · rw [hafter]
            simp
  | @answer rest advance call answer last control stack =>
      have hcarried : ∀ request ∈ call.carried, request.AckFree := by
        intro request hmem
        refine hdrained request ?_
        rw [Engine.drained, stack, carriedBy_cons]
        exact List.mem_append_left _ hmem
      exact acks_of_follow { e with stack := e.stack.tail }
        (Hub.acks_answered hfree answer hcarried) rfl huncut rfl
  | fire control => exact acks_fire hfree control huncut
  | abandon control stack => exact absurd ⟨_, rfl⟩ huncut
  | owners count control => exact acks_of_quiet hspares rfl rfl rfl
  | subscribers subscribers control => exact acks_of_quiet ⟨hfree, rfl, rfl⟩ rfl rfl rfl

end Engine

namespace Moment

variable {m : Moment}

/-- A frame that comes reaches whom it is for. -/
theorem reaches {frame : Frame} (hmove : m.move = .call (.receive frame))
    (hstep : m.before.Step m.move m.after) (huncut : ¬ m.after.IsCut)
    (hwf : m.before.hub.station.ledger.WellFormed) :
    frame.Reaches m.before.hub.station m.after.hub.station m.delivery? ∧
      (m.delivery? = none ∨
        ∃ delivery, m.made = some (.deliver delivery (.reply (m.before.hub.ackLink frame)))) := by
  obtain ⟨before, move, after⟩ := m
  dsimp only at hmove hstep
  subst hmove
  cases hstep with
  | call call control admits =>
      obtain ⟨progress, hcall, hreaches⟩ :=
        Engine.exists_of_follow (Hub.wp_receive_reaches hwf frame) rfl huncut
      have hmade : (Moment.mk before (.call (.receive frame)) (before.call (.receive frame))).made =
          progress.call? := hcall
      rw [delivery?, hmade]
      exact hreaches

/-- The ack guard at a moment.  Its books stay as they are and no acknowledgment is sent; or a unit
is taken and one acknowledgment is sent; or the timer of the latest unit runs out. -/
inductive AckUnits (m : Moment) : Prop
  | rest (unsent : m.ack? = none)
      (books : m.after.hub.station.governor.ack = m.before.hub.station.governor.ack)
  | taken {live : LiveLink} {source : WorkSource} {now : Duration} (sent : m.ack? = some live)
      (unit : m.after.hub.station.governor.ack =
        (m.before.hub.station.governor.ack.acquire .ack source now).1)
  | expired (expires : m.Expires)

namespace Acks

theorem units (h : m.Acks) : m.AckUnits := by
  rcases h with ⟨progress, hmade, hacks⟩ | hexpires
  · obtain ⟨before, move, after⟩ := m
    have hsent : (Moment.mk before move after).ack? = progress.call?.bind Outgoing.acked? := by
      rw [ack?, hmade]
    cases hacks with
    | bystands wanted untaken bystands =>
        exact .rest (hsent.trans bystands.unsent) bystands.spares.books
    | delivers spares => exact .rest hsent spares.books
    | sends source now wanted untaken unit counted => exact .taken hsent unit
    | taken books counted => exact .rest hsent books
  · exact .expired hexpires

/-- An acknowledgment is counted when the radio takes it. -/
theorem counted (h : m.Acks) : m.after.hub.station.counters.localAcks =
    m.before.hub.station.counters.localAcks + if m.move.takesAck then 1 else 0 := by
  rcases h with ⟨progress, hmade, hacks⟩ | hexpires
  · obtain ⟨before, move, after⟩ := m
    dsimp only at hacks ⊢
    cases hacks with
    | bystands wanted untaken bystands =>
        rw [untaken, bystands.spares.counted]
        simp
    | delivers spares =>
        rw [spares.counted]
        simp [Move.takesAck]
    | sends source now wanted untaken unit counted =>
        rw [untaken, counted]
        simp
    | taken books counted =>
        rw [counted]
        rfl
  · rw [hexpires.move, hexpires.counted]
    simp [Move.takesAck]

/-- When a call is answered, the acknowledgment that was owed is sent, and none is owed then. -/
theorem answered (h : m.Acks) {call : Outgoing} {answer : call.Answer}
    (hmove : m.move = .answer call answer) : m.ack? = call.owed? ∧ m.owed? = none := by
  rcases h with ⟨progress, hmade, hacks⟩ | hexpires
  · rw [ack?, owed?, hmade]
    obtain ⟨before, move, after⟩ := m
    dsimp only at hmove hacks
    cases hacks with
    | bystands wanted untaken bystands =>
        subst hmove
        exact ⟨bystands.unsent.trans wanted.symm, bystands.unowed⟩
    | delivers spares => cases hmove
    | sends source now wanted untaken unit counted =>
        subst hmove
        exact ⟨wanted.symm, rfl⟩
    | taken books counted =>
        cases hmove
        exact ⟨rfl, rfl⟩
  · rw [hexpires.move] at hmove
    cases hmove

/-- When a frame comes, its acknowledgment is sent at once or waits for the return of a target. -/
theorem received (h : m.Acks) {frame : Frame} (hmove : m.move = .call (.receive frame)) :
    (m.ack? = m.before.hub.ackLink frame ∧ m.owed? = none) ∨ m.delivery? ≠ none := by
  rcases h with ⟨progress, hmade, hacks⟩ | hexpires
  · rw [ack?, owed?, delivery?, hmade]
    obtain ⟨before, move, after⟩ := m
    dsimp only at hmove hacks
    cases hacks with
    | bystands wanted untaken bystands =>
        subst hmove
        exact .inl ⟨bystands.unsent.trans wanted.symm, bystands.unowed⟩
    | delivers spares => exact .inr nofun
    | sends source now wanted untaken unit counted =>
        subst hmove
        exact .inl ⟨wanted.symm, rfl⟩
    | taken books counted => cases hmove
  · rw [hexpires.move] at hmove
    cases hmove

/-- The link of an acknowledgment that is sent or owed is the one that the move leads to. -/
theorem wanted (h : m.Acks) {live : LiveLink} (hlive : m.ack? = some live ∨ m.owed? = some live) :
    m.move.ackLink m.before.hub = some live := by
  rcases h with ⟨progress, hmade, hacks⟩ | hexpires
  · rw [ack?, owed?, hmade] at hlive
    obtain ⟨before, move, after⟩ := m
    dsimp only at hacks ⊢
    cases hacks with
    | bystands wanted untaken bystands =>
        rw [bystands.unsent, bystands.unowed] at hlive
        simp at hlive
    | delivers spares => exact hlive.resolve_left nofun
    | sends source now wanted untaken unit counted =>
        obtain rfl := Option.some.inj (hlive.resolve_right nofun)
        exact wanted
    | taken books counted => simp [Progress.call?] at hlive
  · rw [ack?, owed?, hexpires.made] at hlive
    simp at hlive

end Acks

end Moment

/-- An errand sends at most one acknowledgment after its first moment: the one that is owed then,
when the call that was made then is answered. -/
theorem Errand.acks {m : Moment} {all : History} (errand : Errand m all)
    (hacks : ∀ n ∈ all, n.Acks) :
    all = [m] ∨ ∃ last own, all = last :: own ++ [m] ∧ last.owed? = none ∧
      History.acks (last :: own) = m.owed?.toList := by
  induction errand with
  | begins => exact .inl rfl
  | @goesOn next last own call answer errand made answers ih =>
      obtain ⟨hnext, hothers⟩ := List.forall_mem_cons.mp hacks
      obtain ⟨hsent, howed⟩ := hnext.answered answers
      have hlast : last.owed? = call.owed? := by rw [Moment.owed?, made]; rfl
      rw [← hlast] at hsent
      refine .inr ?_
      rcases ih hothers with hfirst | ⟨last', own', hall, hnone, hown⟩
      · -- The first call of the errand is answered.
        obtain ⟨rfl, rfl⟩ := List.cons.inj hfirst
        refine ⟨next, [], rfl, howed, ?_⟩
        rw [History.acks, List.filterMap_cons, List.filterMap_nil, hsent]
        cases last.owed? <;> rfl
      · obtain ⟨rfl, rfl⟩ := List.cons.inj hall
        refine ⟨next, last :: own', rfl, howed, ?_⟩
        rw [← hown, History.acks, List.filterMap_cons_none (hsent.trans hnone), History.acks]

end ModemLink
