import ModemLink.Engine
import Mathlib.Data.List.Nodup

/-!
# The link under the calls that wait

Binds may be under way one inside the other, and commands may be on their way on links that have
died since.  What keeps them apart is the epoch: each bind that waits has a cookie of its own, none
of them later than the present epoch.  So at most one of them is the present bind, and a command
whose epoch is the present one is on the live link.

This needs that an epoch does not come back while something of it is under way, so the lemmas about
a new epoch ask that the count of epochs has not come to its end.

* `Link.Anchored` -- the statement about a link and the calls that wait;
* `Anchored.beginBind`, `Anchored.endBind`, `Anchored.confirmDeath` -- what happens to a link keeps
  it.
-/

namespace ModemLink

namespace Epoch

/-- Whether another epoch follows before the count starts over. -/
def HasNext (epoch : Epoch) : Prop := epoch.number.toNat + 1 < UInt64.size

theorem toNat_next {epoch : Epoch} (h : epoch.HasNext) :
    epoch.next.number.toNat = epoch.number.toNat + 1 := by
  simp only [next, UInt64.toNat_add]
  exact Nat.mod_eq_of_lt h

theorem next_ne (epoch : Epoch) : epoch.next ≠ epoch := by
  intro h
  have hnumber : epoch.number + 1 = epoch.number := congrArg Epoch.number h
  grind

end Epoch

namespace Outgoing

/-- The cookie of a bind. -/
def cookie? : Outgoing → Option Epoch
  | .bind cookie _ => some cookie
  | _ => none

/-- The link that a command was put on. -/
def live? : Outgoing → Option LiveLink
  | .send live _ _ _ => some live
  | _ => none

end Outgoing

/-- The handle of a live link is the one it was bound with. -/
theorem Link.current_eq_some {link : Link} {live : LiveLink} (h : link.current = some live) :
    link.phase = .bound ∧ link.handle = some live.handle ∧ live.epoch = link.epoch := by
  unfold Link.current at h
  split at h
  · rename_i handle hphase hhandle
    cases h
    exact ⟨hphase, hhandle, rfl⟩
  · cases h

theorem Link.current_of_phase_ne {link : Link} (h : link.phase ≠ .bound) :
    link.current = none := by
  cases hcurrent : link.current with
  | none => rfl
  | some live => exact absurd (Link.current_eq_some hcurrent).1 h

theorem Link.epoch_endBind (link : Link) (cookie : Epoch) (answer : Except LinkFault Handle) :
    (link.endBind cookie answer).2.epoch = link.epoch := by
  cases answer with
  | ok handle =>
      simp only [Link.endBind]
      split <;> rfl
  | error fault =>
      simp only [Link.endBind]
      split <;> rfl

theorem Link.epoch_confirmDeath {link after : Link} {cookie : Epoch}
    (h : link.confirmDeath cookie = some after) : after.epoch = link.epoch.next := by
  unfold Link.confirmDeath at h
  split at h
  · cases h
    rfl
  · cases h

/-- A bind that succeeds leaves its link live. -/
theorem Link.current_endBind {link : Link} {cookie : Epoch} {answer : Except LinkFault Handle}
    {live : LiveLink} (h : (link.endBind cookie answer).1 = .ok live) :
    (link.endBind cookie answer).2.current = some live := by
  cases answer with
  | error fault => cases h
  | ok handle =>
      by_cases hepoch : link.epoch = cookie
      · subst hepoch
        simp only [Link.endBind, if_true] at h ⊢
        cases h
        rfl
      · simp [Link.endBind, hepoch] at h

/-- The calls that wait fit the link: each bind has a cookie of its own, no call is of a later
epoch, the bind of the present epoch is under way, a command of the present epoch is on the live
link, and the live link was granted by the radio. -/
structure Link.Anchored (granted : LiveLink → Prop) (calls : List Outgoing) (link : Link) :
    Prop where
  distinct : (calls.filterMap Outgoing.cookie?).Nodup
  binds_le : ∀ call ∈ calls, ∀ cookie ∈ call.cookie?,
    cookie.number.toNat ≤ link.epoch.number.toNat
  sends_le : ∀ call ∈ calls, ∀ live ∈ call.live?,
    live.epoch.number.toNat ≤ link.epoch.number.toNat
  binding : ∀ call ∈ calls, link.epoch ∈ call.cookie? → link.phase = .binding
  sending : ∀ call ∈ calls, ∀ live ∈ call.live?, live.epoch = link.epoch →
    link.current = some live
  granted : ∀ live ∈ link.current, granted live

namespace Link.Anchored

variable {granted granted' : LiveLink → Prop} {calls : List Outgoing} {link : Link}

theorem fresh : Anchored granted [] .fresh :=
  ⟨by simp, by simp, by simp, by simp, by simp, by simp [Link.current, Link.fresh]⟩

theorem mono (h : Anchored granted calls link) (hgranted : ∀ live, granted live → granted' live) :
    Anchored granted' calls link :=
  { h with granted := fun live hlive => hgranted live (h.granted live hlive) }

theorem tail {call : Outgoing} (h : Anchored granted (call :: calls) link) :
    Anchored granted calls link := by
  obtain ⟨hdistinct, hbinds, hsends, hbinding, hsending, hgranted⟩ := h
  rw [List.forall_mem_cons] at hbinds hsends hbinding hsending
  refine ⟨hdistinct.sublist ?_, hbinds.2, hsends.2, hbinding.2, hsending.2, hgranted⟩
  exact (List.sublist_cons_self _ _).filterMap _

/-- Other calls are no business of the link. -/
theorem cons_other {call : Outgoing} (h : Anchored granted calls link)
    (hcookie : call.cookie? = none) (hlive : call.live? = none) :
    Anchored granted (call :: calls) link := by
  refine ⟨?_, ?_, ?_, ?_, ?_, h.granted⟩
  · rw [List.filterMap_cons_none hcookie]
    exact h.distinct
  · rw [List.forall_mem_cons]
    exact ⟨by simp [hcookie], h.binds_le⟩
  · rw [List.forall_mem_cons]
    exact ⟨by simp [hlive], h.sends_le⟩
  · rw [List.forall_mem_cons]
    exact ⟨by simp [hcookie], h.binding⟩
  · rw [List.forall_mem_cons]
    exact ⟨by simp [hlive], h.sending⟩

/-- A command is put on the live link. -/
theorem cons_send {live : LiveLink} {serial : Serial} {kind : RequestKind} {payload : Payload}
    (h : Anchored granted calls link) (hlive : link.current = some live) :
    Anchored granted (.send live serial kind payload :: calls) link := by
  refine ⟨h.distinct, ?_, ?_, ?_, ?_, h.granted⟩
  · rw [List.forall_mem_cons]
    exact ⟨by simp [Outgoing.cookie?], h.binds_le⟩
  · rw [List.forall_mem_cons]
    refine ⟨?_, h.sends_le⟩
    rintro _ ⟨⟩
    exact Nat.le_of_eq (by rw [(current_eq_some hlive).2.2])
  · rw [List.forall_mem_cons]
    exact ⟨by simp [Outgoing.cookie?], h.binding⟩
  · rw [List.forall_mem_cons]
    refine ⟨?_, h.sending⟩
    rintro _ ⟨⟩ -
    exact hlive

/-- Whether an attempt to bind is scheduled makes no difference. -/
theorem retry (h : Anchored granted calls link) (retryArmed : Bool) :
    Anchored granted calls { link with retryArmed } :=
  ⟨h.distinct, h.binds_le, h.sends_le, h.binding, h.sending, h.granted⟩

/-- Nothing that waits is of an epoch that is still to come. -/
theorem new_epoch (h : Anchored granted calls link) (hnext : link.epoch.HasNext) :
    (∀ call ∈ calls, ∀ cookie ∈ call.cookie?, cookie ≠ link.epoch.next) ∧
      ∀ call ∈ calls, ∀ live ∈ call.live?, live.epoch ≠ link.epoch.next := by
  refine ⟨fun call hmem cookie hcookie heq => ?_, fun call hmem live hlive heq => ?_⟩
  · have hle := h.binds_le call hmem cookie hcookie
    rw [heq, Epoch.toNat_next hnext] at hle
    omega
  · have hle := h.sends_le call hmem live hlive
    rw [heq, Epoch.toNat_next hnext] at hle
    omega

/-- A new epoch without a handle leaves nothing of what waits current. -/
theorem advance (h : Anchored granted calls link) (hnext : link.epoch.HasNext) {after : Link}
    (hepoch : after.epoch = link.epoch.next) (hphase : after.phase ≠ .bound) :
    Anchored granted calls after := by
  obtain ⟨hcookies, hlives⟩ := h.new_epoch hnext
  have hle : after.epoch.number.toNat = link.epoch.number.toNat + 1 := by
    rw [hepoch, Epoch.toNat_next hnext]
  refine ⟨h.distinct, fun call hmem cookie hcookie => ?_, fun call hmem live hlive => ?_,
    fun call hmem hcookie => ?_, fun call hmem live hlive heq => ?_, fun live hlive => ?_⟩
  · have := h.binds_le call hmem cookie hcookie
    omega
  · have := h.sends_le call hmem live hlive
    omega
  · exact absurd hepoch (hcookies call hmem _ hcookie)
  · exact absurd (heq.trans hepoch) (hlives call hmem live hlive)
  · rw [current_of_phase_ne hphase] at hlive
    cases hlive

/-- A bind begins. -/
theorem beginBind (h : Anchored granted calls link) (hnext : link.epoch.HasNext) (use : BindUse) :
    Anchored granted (.bind link.epoch.next use :: calls) link.beginBind := by
  have hafter : Anchored granted calls link.beginBind :=
    h.advance hnext rfl (by simp [Link.beginBind])
  refine ⟨?_, ?_, ?_, ?_, ?_, hafter.granted⟩
  · rw [List.filterMap_cons_some (show (Outgoing.bind _ use).cookie? = some _ from rfl),
      List.nodup_cons]
    refine ⟨fun hmem => ?_, h.distinct⟩
    obtain ⟨call, hcall, hcookie⟩ := List.mem_filterMap.mp hmem
    exact (h.new_epoch hnext).1 call hcall _ hcookie rfl
  · rw [List.forall_mem_cons]
    refine ⟨?_, hafter.binds_le⟩
    rintro _ ⟨⟩
    exact Nat.le_refl _
  · rw [List.forall_mem_cons]
    exact ⟨by simp [Outgoing.live?], hafter.sends_le⟩
  · rw [List.forall_mem_cons]
    exact ⟨fun _ => rfl, hafter.binding⟩
  · rw [List.forall_mem_cons]
    exact ⟨by simp [Outgoing.live?], hafter.sending⟩

/-- While the bind of the present epoch waits there is no live link. -/
theorem current_of_bind {use : BindUse}
    (h : Anchored granted (.bind link.epoch use :: calls) link) : link.current = none := by
  refine current_of_phase_ne ?_
  rw [h.binding (.bind link.epoch use) (List.mem_cons_self ..) rfl]
  simp

/-- The end of the present bind, with a handle or without one. -/
theorem settleBind {use : BindUse} (h : Anchored granted (.bind link.epoch use :: calls) link)
    (phase : LinkPhase) (handle : Option Handle)
    (hgranted : ∀ live ∈ Link.current { link with phase, handle }, granted live) :
    Anchored granted calls { link with phase, handle } := by
  refine ⟨h.tail.distinct, h.tail.binds_le, h.tail.sends_le, fun call hmem hcookie => ?_,
    fun call hmem live hlive heq => ?_, hgranted⟩
  · have hdistinct := h.distinct
    rw [List.filterMap_cons_some (show (Outgoing.bind _ use).cookie? = some _ from rfl),
      List.nodup_cons] at hdistinct
    exact absurd (List.mem_filterMap.mpr ⟨call, hmem, hcookie⟩) hdistinct.1
  · have hcurrent := h.tail.sending call hmem live hlive heq
    rw [h.current_of_bind] at hcurrent
    cases hcurrent

/-- A bind ends. -/
theorem endBind {cookie : Epoch} {use : BindUse} {answer : Except LinkFault Handle}
    (h : Anchored granted (.bind cookie use :: calls) link)
    (hgranted : ∀ handle, answer = .ok handle → granted ⟨handle, cookie⟩) :
    Anchored granted calls (link.endBind cookie answer).2 := by
  by_cases hepoch : link.epoch = cookie
  · subst hepoch
    cases answer with
    | ok handle =>
        simp only [Link.endBind, if_true]
        refine h.settleBind .bound (some handle) fun live hlive => ?_
        cases hlive
        exact hgranted handle rfl
    | error fault =>
        simp only [Link.endBind, if_true]
        refine h.settleBind .unbound link.handle fun live hlive => ?_
        cases hlive
  · rw [Link.endBind_of_stale hepoch]
    exact h.tail

/-- The end of a bind does no harm to a live link. -/
theorem current_endBind_of_live {cookie : Epoch} {use : BindUse} {live : LiveLink}
    (h : Anchored granted (.bind cookie use :: calls) link) (hlive : link.current = some live)
    (answer : Except LinkFault Handle) : (link.endBind cookie answer).2.current = some live := by
  by_cases hepoch : link.epoch = cookie
  · subst hepoch
    rw [h.current_of_bind] at hlive
    cases hlive
  · rw [Link.endBind_of_stale hepoch, hlive]

/-- The link dies. -/
theorem confirmDeath {cookie : Epoch} {after : Link} (h : Anchored granted calls link)
    (hnext : link.epoch.HasNext) (hdeath : link.confirmDeath cookie = some after) :
    Anchored granted calls after := by
  unfold Link.confirmDeath at hdeath
  split at hdeath
  · cases hdeath
    exact h.advance hnext rfl (by simp)
  · cases hdeath

end Link.Anchored

end ModemLink
