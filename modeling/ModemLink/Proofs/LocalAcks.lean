import ModemLink.Loopback
import ModemLink.Proofs.AckSteps
import ModemLink.Proofs.Custody
import ModemLink.Proofs.Sending

/-!
# Local acknowledgments

A frame that asks for a local acknowledgment gets one exactly if a link is live when it comes: after
its result was delivered, one unit of the ack guard is taken and one acknowledgment is sent, on that
link.  The target that the result goes to may let the link die and bind another one; the
acknowledgment is sent on the old link all the same, and if it fails the new link does not hear of
it, because the epoch it names is over.

* `Link.Fits`, `Run.fits` -- a link that is to be acknowledged on is the live one or of an epoch
  that is over;
* `Loopback.Attends`, `Run.localAcks_eq` -- the radio takes as many as are counted;
* `Acknowledges`, `Run.acknowledges` -- how far the acknowledgment of a frame has come;
* `Run.acknowledged_once` -- all that holds of local acknowledgments;
* `unacknowledged_after_cut_frame` -- a frame that is cut off has its unit, and no acknowledgment.
-/

namespace ModemLink

/-! ## The link of an acknowledgment -/

theorem Hub.current_of_ackLink {hub : Hub} {frame : Frame} {live : LiveLink}
    (h : hub.ackLink frame = some live) : hub.link.current = some live := by
  unfold ackLink at h
  split at h
  · exact h
  · cases h

/-- A link that something is still to be sent on is the live one, or its epoch is over. -/
structure Link.Fits (link : Link) (live : LiveLink) : Prop where
  le : live.epoch.number.toNat ≤ link.epoch.number.toNat
  current : live.epoch = link.epoch → link.current = some live

/-- A link changes: either it stays live if it is, or the next epoch begins. -/
def Link.Goes (link after : Link) : Prop :=
  (after.epoch = link.epoch ∧ ∀ live, link.current = some live → after.current = some live) ∨
    after.epoch = link.epoch.next

namespace Link

variable {link after : Link} {live : LiveLink}

theorem goes_of_eq (h : after = { link with retryArmed := after.retryArmed }) :
    link.Goes after := by
  rw [h]
  exact .inl ⟨rfl, fun _ => id⟩

theorem Fits.of_current (h : link.current = some live) : link.Fits live :=
  ⟨Nat.le_of_eq (by rw [(current_eq_some h).2.2]), fun _ => h⟩

theorem Fits.goes (h : link.Fits live) (hgoes : link.Goes after) (hnext : link.epoch.HasNext) :
    after.Fits live := by
  rcases hgoes with ⟨hepoch, hkept⟩ | hepoch
  · refine ⟨hepoch ▸ h.le, fun heq => hkept live (h.current (heq.trans hepoch))⟩
  · have hlater : after.epoch.number.toNat = link.epoch.number.toNat + 1 := by
      rw [hepoch, Epoch.toNat_next hnext]
    have hle := h.le
    refine ⟨by omega, fun heq => ?_⟩
    rw [heq] at hle
    omega

end Link

namespace Engine

variable {e after : Engine} {move : Move} {history : History}

/-- A turn of the hub leaves a live link as it is, or begins the next epoch. -/
theorem goes_of_turn {before hub : Hub} {progress : Progress} (turn : before.Turn move progress hub)
    (hends : ∀ cookie use (answer : Except LinkFault Handle),
      move = .answer (.bind cookie use) answer →
      ∀ live, before.link.current = some live →
        (before.link.endBind cookie answer).2.current = some live) :
    before.link.Goes hub.link := by
  cases turn with
  | stays calm rearms link binds =>
      rw [link]
      exact Link.goes_of_eq rfl
  | begins use wanted free rearms link =>
      rw [link]
      exact .inr rfl
  | @ends cookie use answer _ _ rearms recovers binds =>
      rw [rearms.link]
      exact .inl ⟨Link.epoch_endBind _ _ _, hends cookie use answer rfl⟩
  | dies death confirmed rearms recovers binds =>
      have hepoch := Link.epoch_confirmDeath confirmed
      rw [rearms.link]
      exact .inr hepoch
  | drains rearms recovers binds => exact Link.goes_of_eq rearms.link

/-- A move leaves a live link as it is, or begins the next epoch. -/
theorem Step.goes (h : e.Step move after) (huncut : ¬ after.IsCut) (hplaced : e.Placed history) :
    e.hub.link.Goes after.hub.link := by
  rcases h.turning_or_lapses huncut with hturning | ⟨-, advance, timeline, -, -, -, rfl⟩
  · cases hturning with
    | called control turn =>
        rw [hub_reach]
        exact goes_of_turn turn fun _ _ _ heq => by cases heq
    | answered control stack turn =>
        rw [hub_reach]
        refine goes_of_turn turn fun cookie use answer heq live hlive => ?_
        cases heq
        have hanchored := hplaced.hub.link
        rw [stack, List.map_cons] at hanchored
        exact hanchored.current_endBind_of_live hlive answer
    | ran control due other rearms link binds =>
        rw [hub_reach, link]
        exact Link.goes_of_eq rfl
    | spared control due bound binds =>
        rw [hub_reach]
        exact Link.goes_of_eq rfl
    | attempted control due unbound =>
        rw [hub_reach]
        exact .inr rfl
    | departs control target => exact Link.goes_of_eq rfl
    | arrives control due => exact Link.goes_of_eq rfl
    | owned control => exact Link.goes_of_eq rfl
    | subscribed control => exact Link.goes_of_eq rfl
  · exact Link.goes_of_eq rfl

/-- What waits after a move waited before, or it is the call that was made. -/
theorem Step.mem_stack (h : e.Step move after) (huncut : ¬ after.IsCut) {suspension : Suspension}
    (hmem : suspension ∈ after.stack) :
    suspension ∈ e.stack ∨ (Moment.mk e move after).made = some suspension.call := by
  have hbelow : ∀ other ∈ (Moment.mk e move after).base, other ∈ e.stack := by
    unfold Moment.base
    split
    · exact fun _ => List.mem_of_mem_tail
    · exact fun _ => id
  rcases h.reach_or_rest huncut with ⟨poised, advance, progress, hub, hbase, hafter, hmade⟩ |
    ⟨-, hbase⟩
  · rw [hmade, hafter, calling_reach_eq]
    rw [hafter] at hmem
    cases progress with
    | waits call =>
        rcases List.mem_cons.mp hmem with rfl | hmem
        · exact .inr rfl
        · exact .inl (hbelow _ (hbase ▸ hmem))
    | ends returned => cases advance <;> exact .inl (hbelow _ (hbase ▸ hmem))
  · exact .inl (hbelow _ (hbase ▸ hmem))

end Engine

section

variable {c : Config} {seed : Option Int} {entropy : Entropy} {outside : OutsideStore}
  {history : History} {e : Engine} {m : Moment}

/-- No request holds a unit of the ack guard. -/
theorem Run.ackFree (run : Run (Engine.start c seed entropy outside) history e)
    (uncut : history.Uncut) :
    e.hub.station.ledger.AckFree ∧ ∀ request ∈ e.drained, request.AckFree := by
  obtain ⟨hwf, -, -, state, -, hbacked⟩ := run.accounts uncut
  have hfree : ∀ request ∈ e.hub.station.pending + (e.drained : Multiset PendingRequest),
      request.AckFree := by
    intro request hmem ticket hticket
    have hmem := (Multiset.mem_filterMap _ _).mpr ⟨request, hmem, hticket⟩
    rw [(hbacked.issued ticket hmem).1]
    exact Guard.noConfusion
  exact ⟨⟨hwf, fun request hmem => hfree request (Multiset.mem_add.mpr (.inl hmem))⟩,
    fun request hmem => hfree request (Multiset.mem_add.mpr (.inr hmem))⟩

/-- What each moment of a run has to do with acknowledgments. -/
theorem Run.acks (run : Run (Engine.start c seed entropy outside) history e)
    (uncut : history.Uncut) (hmem : m ∈ history) : m.Acks := by
  obtain ⟨later, earlier, rfl⟩ := List.append_of_mem hmem
  obtain ⟨hrun, hstep⟩ := run.split
  obtain ⟨hnow, hearlier⟩ := History.uncut_cons.mp (List.forall_mem_append.mp uncut).2
  obtain ⟨hfree, hdrained⟩ := hrun.ackFree hearlier
  exact hstep.acks hnow hfree hdrained

/-- What is still to be acknowledged on is the live link, or its epoch is over. -/
theorem Run.fits (run : Run (Engine.start c seed entropy outside) history e)
    (uncut : history.Uncut) (epochs : history.epochs < UInt64.size) :
    ∀ suspension ∈ e.stack, ∀ live,
      suspension.call.acked? = some live ∨ suspension.call.owed? = some live →
      e.hub.link.Fits live := by
  induction run with
  | start =>
      intro suspension hmem
      cases hmem
  | @step history e after move run hstep fresh ih =>
      intro suspension hmem live hlive
      obtain ⟨hnow, hearlier⟩ := History.uncut_cons.mp uncut
      have hepochs := Nat.lt_of_le_of_lt (History.epochs_le_cons _ history) epochs
      have hplaced := run.placed hearlier hepochs
      have hnext : e.hub.link.epoch.HasNext := by
        rw [Epoch.HasNext, hplaced.counted]
        exact hepochs
      have hfits := ih hearlier hepochs
      refine Link.Fits.goes ?_ (hstep.goes hnow hplaced) hnext
      rcases hstep.mem_stack hnow hmem with hold | hmade
      · exact hfits suspension hold live hlive
      · have hacks : (Moment.mk e move after).Acks :=
          (run.step hstep fresh).acks uncut (List.mem_cons_self ..)
        have hwanted := hacks.wanted (by
          rw [Moment.ack?, Moment.owed?, hmade]
          exact hlive)
        cases move with
        | call call =>
            cases call with
            | receive frame => exact .of_current (Hub.current_of_ackLink hwanted)
            | _ => cases hwanted
        | answer call answer =>
            obtain ⟨advance, rest, hstack⟩ := hstep.top_of_answer
            refine hfits ⟨advance, call⟩ ?_ live (.inr hwanted)
            rw [hstack]
            exact List.mem_cons_self ..
        | _ => cases hwanted

end

/-! ## The count of the radio -/

/-- Whether a move is the answer of the radio to a call. -/
def Move.byRadio : Move → Bool
  | .answer (.deliver _ _) _ => false
  | .answer _ _ => true
  | _ => false

namespace Loopback

variable {history : History} {radio : Loopback}

/-- A loopback radio gave the answers of a history to binds, commands and acknowledgments.  It may
be set up anew at any time, and die. -/
inductive Attends : Loopback → History → Prop
  | fresh : Attends .fresh []
  | refuses {history : History} {radio : Loopback} (count : Nat) (attends : radio.Attends history) :
      Attends { radio with refusals := count } history
  | failsSends {history : History} {radio : Loopback} (fails : Bool)
      (attends : radio.Attends history) : Attends { radio with failSends := fails } history
  | dies {history : History} {radio : Loopback} (attends : radio.Attends history) :
      Attends radio.kill.2 history
  | connects {history : History} {radio : Loopback} {m : Moment} {cookie : Epoch} {use : BindUse}
      (attends : radio.Attends history)
      (answers : m.move = .answer (.bind cookie use) (radio.connect cookie).1) :
      Attends (radio.connect cookie).2 (m :: history)
  | sends {history : History} {radio : Loopback} {m : Moment} {live : LiveLink} {serial : Serial}
      {kind : RequestKind} {payload : Payload} (attends : radio.Attends history)
      (answers : m.move = .answer (.send live serial kind payload)
        (radio.send live.handle serial kind payload).1) :
      Attends (radio.send live.handle serial kind payload).2 (m :: history)
  | acknowledges {history : History} {radio : Loopback} {m : Moment} {live : LiveLink}
      (attends : radio.Attends history)
      (answers : m.move = .answer (.sendAck live) (radio.sendAck live.handle).1) :
      Attends (radio.sendAck live.handle).2 (m :: history)
  | rests {history : History} {radio : Loopback} {m : Moment} (attends : radio.Attends history)
      (other : m.move.byRadio = false) : Attends radio (m :: history)

theorem localAcks_connect (radio : Loopback) (cookie : Epoch) :
    (radio.connect cookie).2.localAcks = radio.localAcks := by
  simp only [connect]
  split <;> rfl

theorem localAcks_send (radio : Loopback) (handle : Handle) (serial : Serial) (kind : RequestKind)
    (payload : Payload) :
    (radio.send handle serial kind payload).2.localAcks = radio.localAcks := by
  unfold send
  split <;> rfl

theorem localAcks_kill (radio : Loopback) : radio.kill.2.localAcks = radio.localAcks := by
  unfold kill
  split <;> rfl

/-- The radio counts the acknowledgments that it takes. -/
theorem localAcks_sendAck (radio : Loopback) (live : LiveLink) :
    (radio.sendAck live.handle).2.localAcks = radio.localAcks +
      if (Move.answer (.sendAck live) (radio.sendAck live.handle).1).takesAck then 1 else 0 := by
  unfold sendAck
  split <;> rfl

end Loopback

theorem Move.takesAck_of_not_byRadio {move : Move} (h : move.byRadio = false) :
    move.takesAck = false := by
  unfold takesAck
  split
  · cases h
  · rfl

/-! ## Runs -/

/-- How far the acknowledgment of a frame has come, told by the moment at which the frame came and
those of its errand since then.  It was sent at once, and none was sent later; or the target of the
frame was called, and has not returned yet; or the target has returned, and then it was sent.  A
frame that came without a live link has none to send. -/
inductive Acknowledges (live : Option LiveLink) (m : Moment) (own : History) (e : Engine) : Prop
  | atOnce (nobody : m.delivery? = none) (sent : m.ack? = live) (once : own.acks = [])
  | later {delivery : Delivery} {above : List Suspension} {advance : Option Advance}
      (made : m.made = some (.deliver delivery (.reply live))) (first : own = [])
      (stack : e.stack = above ++ ⟨advance, .deliver delivery (.reply live)⟩ :: m.base)
  | afterwards {delivery : Delivery} (made : m.made = some (.deliver delivery (.reply live)))
      (sent : own.acks = live.toList)

section

variable {c : Config} {seed : Option Int} {entropy : Entropy} {outside : OutsideStore}
  {history later earlier : History} {e : Engine} {m : Moment} {radio : Loopback}

/-- At one moment more, what the radio takes is counted. -/
theorem Run.localAcks_cons (run : Run (Engine.start c seed entropy outside) (m :: history) e)
    (uncut : History.Uncut (m :: history)) {taken : Nat}
    (hcounted : ∀ e, Run (Engine.start c seed entropy outside) history e →
      e.hub.station.counters.localAcks = UInt64.ofNat taken) :
    e.hub.station.counters.localAcks =
      UInt64.ofNat (taken + if m.move.takesAck then 1 else 0) := by
  cases run with
  | @step _ before after move run hstep fresh =>
      have hacks := (run.step hstep fresh).acks uncut (List.mem_cons_self ..)
      rw [hacks.counted, hcounted _ run, UInt64.ofNat_add]
      split <;> rfl

/-- As many acknowledgments are counted as the radio has taken. -/
theorem Run.localAcks_eq (run : Run (Engine.start c seed entropy outside) history e)
    (uncut : history.Uncut) (attends : radio.Attends history) :
    e.hub.station.counters.localAcks = UInt64.ofNat radio.localAcks := by
  induction attends generalizing e with
  | fresh =>
      cases run
      rfl
  | refuses count attends ih => exact ih run uncut
  | failsSends fails attends ih => exact ih run uncut
  | dies attends ih =>
      rw [Loopback.localAcks_kill]
      exact ih run uncut
  | connects attends answers ih =>
      rw [run.localAcks_cons uncut fun e run => ih run (History.uncut_cons.mp uncut).2, answers,
        Loopback.localAcks_connect]
      rfl
  | sends attends answers ih =>
      rw [run.localAcks_cons uncut fun e run => ih run (History.uncut_cons.mp uncut).2, answers,
        Loopback.localAcks_send]
      rfl
  | acknowledges attends answers ih =>
      rw [run.localAcks_cons uncut fun e run => ih run (History.uncut_cons.mp uncut).2, answers,
        Loopback.localAcks_sendAck]
  | rests attends other ih =>
      rw [run.localAcks_cons uncut fun e run => ih run (History.uncut_cons.mp uncut).2,
        Move.takesAck_of_not_byRadio other]
      rfl

/-- The acknowledgment of a frame, while its errand is under way and when it has just ended. -/
theorem Run.acknowledges
    (run : Run (Engine.start c seed entropy outside) (later ++ m :: earlier) e)
    (uncut : History.Uncut (later ++ m :: earlier)) {frame : Frame}
    (received : m.move = .call (.receive frame))
    (underway : ∀ n ∈ later, m.base.length < n.before.stack.length) :
    frame.Reaches m.before.hub.station m.after.hub.station m.delivery? ∧
      Acknowledges (m.before.hub.ackLink frame) m (History.over m.base.length later) e := by
  obtain ⟨hrun, hstep⟩ := run.split
  obtain ⟨hnow, hearlier⟩ := History.uncut_cons.mp (List.forall_mem_append.mp uncut).2
  obtain ⟨last, own, hown, herrand, hbase, hstands⟩ := run.errand uncut underway
  have hacks : ∀ n ∈ last :: own, n.Acks :=
    fun n hn => run.acks uncut (History.mem_of_mem_over (hown ▸ hn))
  rw [History.over_concat] at hown
  have hm : m.Acks := run.acks uncut (List.mem_append_right _ (List.mem_cons_self ..))
  obtain ⟨hreaches, hwhom⟩ :=
    m.reaches received hstep hnow (hrun.ackFree hearlier).1.wellFormed
  refine ⟨hreaches, ?_⟩
  rcases herrand.acks hacks with hfirst | ⟨last', own', hall, -, hsent⟩
  · -- Nothing has followed yet.
    rw [hfirst] at hown
    have hnone : History.over m.base.length later = [] := by simpa using hown
    obtain ⟨rfl, -⟩ := List.cons.inj hfirst
    rw [hnone]
    rcases hwhom with hnobody | ⟨delivery, hmade⟩
    · exact .atOnce hnobody ((hm.received received).resolve_right (not_not_intro hnobody)).1 rfl
    · rcases hstands with ⟨above, advance, call, hcall, hstack⟩ | ⟨hcall, -⟩
      · obtain rfl := Option.some.inj (hmade.symm.trans hcall)
        exact .later hmade rfl hstack
      · rw [hmade] at hcall
        cases hcall
  · rw [hall] at hown
    obtain ⟨hlater, -⟩ := List.append_inj' hown rfl
    rw [← hlater] at hsent
    rcases hwhom with hnobody | ⟨delivery, hmade⟩
    · obtain ⟨hack, howed⟩ := (hm.received received).resolve_right (not_not_intro hnobody)
      exact .atOnce hnobody hack (hsent.trans (congrArg Option.toList howed))
    · refine .afterwards hmade (hsent.trans (congrArg Option.toList ?_))
      rw [Moment.owed?, hmade]
      rfl

/-- An acknowledgment that is answered was sent on the live link, or on one whose epoch is over. -/
theorem Run.fits_of_answered (run : Run (Engine.start c seed entropy outside) history e)
    (uncut : history.Uncut) (epochs : history.epochs < UInt64.size) (hmem : m ∈ history)
    {live : LiveLink} {answer : Except LinkFault Unit}
    (answers : m.move = .answer (.sendAck live) answer) : m.before.hub.link.Fits live := by
  obtain ⟨later, earlier, rfl⟩ := List.append_of_mem hmem
  obtain ⟨hrun, hstep⟩ := run.split
  have hearlier := (History.uncut_cons.mp (List.forall_mem_append.mp uncut).2).2
  have hepochs : History.epochs earlier < UInt64.size :=
    Nat.lt_of_le_of_lt ((History.epochs_le_cons m earlier).trans
      (History.epochs_le_append later (m :: earlier))) epochs
  rw [answers] at hstep
  obtain ⟨advance, rest, hstack⟩ := hstep.top_of_answer
  refine hrun.fits hearlier hepochs ⟨advance, .sendAck live⟩ ?_ live (.inl rfl)
  rw [hstack]
  exact List.mem_cons_self ..

/-- **Every frame that asks for it is acknowledged once, on the link it came on.**  What a frame
brings is delivered first; then, if it asks for an acknowledgment and a link was live when it came,
one is sent on that link.  With each acknowledgment one unit of the ack guard is taken, and only the
timer of the latest unit takes units away.  If an acknowledgment fails, that is news of the epoch of
its own link: if that is over nothing happens, and if not the link is still the live one.  As many
acknowledgments are counted as a loopback radio has taken. -/
theorem Run.acknowledged_once (run : Run (Engine.start c seed entropy outside) history e)
    (uncut : history.Uncut) :
    (∀ later m earlier frame, history = later ++ m :: earlier → m.move = .call (.receive frame) →
      (∀ n ∈ later, m.base.length < n.before.stack.length) →
      frame.Reaches m.before.hub.station m.after.hub.station m.delivery? ∧
        Acknowledges (m.before.hub.ackLink frame) m (History.over m.base.length later) e) ∧
    (∀ m ∈ history, m.AckUnits) ∧
    (∀ m ∈ history, ∀ live fault, m.move = .answer (.sendAck live) (Except.error fault) →
      (live.epoch ≠ m.before.hub.link.epoch →
        m.after.hub = m.before.hub ∧ m.after.stack = m.base ∧ m.made = none) ∧
      (live.epoch = m.before.hub.link.epoch → history.epochs < UInt64.size →
        m.before.hub.link.current = some live)) ∧
    ∀ radio : Loopback, radio.Attends history →
      e.hub.station.counters.localAcks = UInt64.ofNat radio.localAcks := by
  refine ⟨?_, fun m hmem => (run.acks uncut hmem).units, ?_, fun radio => run.localAcks_eq uncut⟩
  · rintro later m earlier frame rfl received underway
    exact run.acknowledges uncut received underway
  · intro m hmem live fault hmove
    have hstep := run.step_of_mem hmem
    have hdeath : m.move.death? = some live.epoch := by rw [hmove]; rfl
    refine ⟨hstep.stale hdeath, fun hepoch epochs => ?_⟩
    exact (run.fits_of_answered uncut epochs hmem hmove).current hepoch

end

namespace Engine

/-- The bind for a first request is under way. -/
private def dialing : Engine := plain.call (.submit .getImei .empty ⟨0⟩ none)

private def dial : Outgoing := .bind ⟨1⟩ (.submission ⟨100⟩ .getImei .empty)

private def dialed : Engine := dialing.resume ⟨none, dial⟩ (Except.ok (⟨0⟩ : Handle))

private def order : Outgoing := .send ⟨⟨0⟩, ⟨1⟩⟩ ⟨100⟩ .getImei .empty

private def ordered : Engine := dialed.resume ⟨none, order⟩ (Except.ok ())

/-- The ledger with that request. -/
private def stock : Ledger where
  table := ⟨#[some ⟨⟨100⟩, .getImei, ⟨0⟩, ⟨1001, "com.android.phone"⟩,
    some ⟨.request, 0, ⟨1001, "com.android.phone"⟩⟩, .sent, .zero⟩], [], 4, 1⟩
  index := Std.HashMap.emptyWithCapacity.insert ⟨100⟩ 0
  counter := ⟨⟨101, by decide⟩⟩

private def stocked : Engine :=
  { ordered with hub := { ordered.hub with
      station := { ordered.hub.station with ledger := stock } } }

private theorem ordered_eq : ordered = stocked := by
  have htable : ordered.hub.station.ledger.table = stock.table := by cbv
  have hindex : ordered.hub.station.ledger.index = stock.index := by cbv
  have hcounter : ordered.hub.station.ledger.counter = stock.counter := by cbv
  have hstock : ordered.hub.station.ledger = stock :=
    congr (congr (congrArg Ledger.mk htable) hindex) hcounter
  rw [stocked, ← hstock]

/-- The reply to the first request has come, and its target is called. -/
private def replied : Engine := stocked.call (.receive (.reply ⟨100⟩ 0 .empty true))

/-- The target has reported the death of the link. -/
private def severed : Engine := replied.call (.die ⟨1⟩)

/-- The target asks for another link. -/
private def redialing : Engine := severed.call .connect

private def redial : Outgoing := .bind ⟨3⟩ .connection

private def redialed : Engine := redialing.resume ⟨none, redial⟩ (Except.ok (⟨1⟩ : Handle))

private def delivering : Outgoing := .deliver ⟨⟨0⟩, .ok .empty⟩ (.reply (some ⟨⟨0⟩, ⟨1⟩⟩))

/-- The target has returned. -/
private def informed : Engine := redialed.resume ⟨none, delivering⟩ ()

private def thanks : Outgoing := .sendAck ⟨⟨0⟩, ⟨1⟩⟩

private def thanked : Engine := informed.resume ⟨none, thanks⟩ (Except.ok ())

end Engine

open Engine in
private def arrival : Moment :=
  ⟨stocked, .call (.receive (.reply ⟨100⟩ 0 .empty true)), replied⟩

open Engine in
private def sequel : History :=
  [⟨informed, .answer thanks (Except.ok ()), thanked⟩,
    ⟨redialed, .answer delivering (), informed⟩,
    ⟨redialing, .answer redial (Except.ok (⟨1⟩ : Handle)), redialed⟩,
    ⟨severed, .call .connect, redialing⟩, ⟨replied, .call (.die ⟨1⟩), severed⟩]

open Engine in
private def opening : History :=
  [⟨dialed, .answer order (Except.ok ()), stocked⟩,
    ⟨dialing, .answer dial (Except.ok (⟨0⟩ : Handle)), dialed⟩,
    ⟨plain, .call (.submit .getImei .empty ⟨0⟩ none), dialing⟩]

open Engine in
private theorem run_sequel :
    Run .plain (sequel ++ arrival :: opening) thanked ∧
      History.Uncut (sequel ++ arrival :: opening) := by
  have hdialing : dialing.control = .outside none := by cbv
  have hdialed : dialed.control = .outside none := by cbv
  have hstocked : stocked.control = .outside (some (.submitted ⟨100⟩)) := by cbv
  have hreplied : replied.control = .outside none := by cbv
  have hsevered : severed.control = .outside (some .handled) := by cbv
  have hredialing : redialing.control = .outside none := by cbv
  have hredialed : redialed.control = .outside (some (.connected (.ok ⟨3⟩))) := by cbv
  have hinformed : informed.control = .outside none := by cbv
  have hthanked : thanked.control = .outside (some .handled) := by cbv
  have uncut : History.Uncut (sequel ++ arrival :: opening) := by
    simp only [sequel, opening, arrival, List.cons_append, List.nil_append, History.uncut_cons]
    exact ⟨not_isCut _ hthanked (by simp), not_isCut _ hinformed (by simp),
      not_isCut _ hredialed (by simp), not_isCut _ hredialing (by simp),
      not_isCut _ hsevered (by simp), not_isCut _ hreplied (by simp),
      not_isCut _ hstocked (by simp), not_isCut _ hdialed (by simp),
      not_isCut _ hdialing (by simp), by simp [History.Uncut]⟩
  have started : Run .plain [] .plain := .start
  have waiting := started.call (.submit .getImei .empty ⟨0⟩ none) none rfl (by decide)
    (by simp [History.submitted])
  have bound := waiting.answer none dial (Except.ok (⟨0⟩ : Handle)) none hdialing (by cbv)
  have sent : Run .plain (⟨dialed, .answer order (Except.ok ()), ordered⟩ :: _) ordered :=
    bound.answer none order (Except.ok ()) none hdialed (by cbv)
  rw [ordered_eq] at sent
  have came := sent.call (.receive (.reply ⟨100⟩ 0 .empty true)) _ hstocked trivial
    (by simp [Move.submitted])
  have died := came.call (.die ⟨1⟩) none hreplied trivial (by simp [Move.submitted])
  have again := died.call .connect _ hsevered trivial (by simp [Move.submitted])
  have rebound := again.answer none redial (Except.ok (⟨1⟩ : Handle)) none hredialing (by cbv)
  have returned := rebound.answer none delivering () _ hredialed (by cbv)
  have acknowledged := returned.answer none thanks (Except.ok ()) none hinformed (by cbv)
  exact ⟨acknowledged, uncut⟩

/-- In that run a loopback radio takes one acknowledgment. -/
private theorem attends_sequel :
    ∃ radio : Loopback, radio.Attends (sequel ++ arrival :: opening) ∧ radio.localAcks = 1 := by
  have asked : Loopback.fresh.Attends [opening[2]] := .rests .fresh rfl
  have bound : Loopback.Attends _ (opening[1] :: _) := .connects asked rfl
  have sent : Loopback.Attends _ (opening[0] :: _) := .sends bound rfl
  have came : Loopback.Attends _ (arrival :: _) := .rests sent rfl
  have died : Loopback.Attends _ (sequel[4] :: _) := .rests came rfl
  have again : Loopback.Attends _ (sequel[3] :: _) := .rests died rfl
  have rebound : Loopback.Attends _ (sequel[2] :: _) := .connects again rfl
  have returned : Loopback.Attends _ (sequel[1] :: _) := .rests rebound rfl
  have acknowledged : Loopback.Attends _ (sequel[0] :: _) := .acknowledges returned rfl
  exact ⟨_, acknowledged, rfl⟩

/-- So it is when the target of a reply reports the death of the link and binds another one: the
acknowledgment is sent on the old link, which a loopback radio still takes, and the new link stays
live. -/
theorem acknowledged_once_on_replaced_link :
    ∃ later m earlier e, Run .plain (later ++ m :: earlier) e ∧
      History.Uncut (later ++ m :: earlier) ∧
      m.move = .call (.receive (.reply ⟨100⟩ 0 .empty true)) ∧
      (History.over m.base.length later).acks = [⟨⟨0⟩, ⟨1⟩⟩] ∧
      e.hub.link.current = some ⟨⟨1⟩, ⟨3⟩⟩ ∧ (∀ n ∈ later ++ m :: earlier, n.AckUnits) ∧
      ∃ radio : Loopback, radio.Attends (later ++ m :: earlier) ∧ radio.localAcks = 1 ∧
        e.hub.station.counters.localAcks = 1 := by
  obtain ⟨run, uncut⟩ := run_sequel
  obtain ⟨radio, attends, htaken⟩ := attends_sequel
  obtain ⟨hframes, hunits, -, hcounted⟩ := Run.acknowledged_once run uncut
  have underway : ∀ n ∈ sequel, arrival.base.length < n.before.stack.length := by
    simp only [sequel, List.forall_mem_cons]
    exact ⟨by cbv, by cbv, by cbv, by cbv, by cbv, by simp⟩
  obtain ⟨-, hacknowledged⟩ := hframes sequel arrival opening _ rfl rfl underway
  have hwanted : arrival.before.hub.ackLink (.reply ⟨100⟩ 0 .empty true) = some ⟨⟨0⟩, ⟨1⟩⟩ := by cbv
  have hdelivered : arrival.delivery?.isSome = true := by cbv
  have hlength : Engine.thanked.stack.length = arrival.base.length := by cbv
  have hcounter := hcounted radio attends
  rw [htaken] at hcounter
  refine ⟨sequel, arrival, opening, _, run, uncut, rfl, ?_, by cbv, hunits, radio, attends, htaken,
    hcounter⟩
  rw [hwanted] at hacknowledged
  cases hacknowledged with
  | atOnce nobody sent once =>
      rw [nobody] at hdelivered
      cases hdelivered
  | later made first stack =>
      rw [stack] at hlength
      simp at hlength
      omega
  | afterwards made sent => exact sent

/-- A frame that comes when no time is left for the timer of its unit is cut off: the unit is taken,
and no acknowledgment is sent. -/
theorem unacknowledged_after_cut_frame :
    ∃ m earlier, Run .plain (m :: earlier) m.after ∧
      m.move = .call (.receive (.indication .newSms .empty true)) ∧
      m.before.hub.link.current = some ⟨⟨0⟩, ⟨1⟩⟩ ∧ m.after.stack = [] ∧
      m.before.hub.station.governor.ack.count = 0 ∧ m.after.hub.station.governor.ack.count = 1 ∧
      History.acks (m :: earlier) = [] := by
  have started : Run .plain [] .plain := .start
  have waiting := started.call .connect none rfl trivial (by simp [Move.submitted])
  have bound := waiting.answer none (.bind ⟨1⟩ .connection) (Except.ok (⟨0⟩ : Handle)) none rfl rfl
  have advancing := bound.call (.advance (.ofSeconds 18446744073709551615 (by decide)))
    (some (.connected (.ok ⟨1⟩))) rfl trivial (by simp [Move.submitted])
  have advanced := advancing.fire ⟨.ofSeconds 18446744073709551615 (by decide), 0⟩ (by cbv)
  have further := advanced.call (.advance ⟨999000000, by decide⟩) (some (.advanced 0)) (by cbv)
    trivial (by simp [Move.submitted])
  have late := further.fire ⟨⟨18446744073709551615999000000, by decide⟩, 0⟩ (by cbv)
  have cut := late.call (.receive (.indication .newSms .empty true)) (some (.advanced 0)) (by cbv)
    trivial (by simp [Move.submitted])
  exact ⟨_, _, cut, rfl, by cbv, by cbv, by cbv, by cbv, by cbv⟩

end ModemLink
