import ModemLink.Proofs.Deaths
import ModemLink.Proofs.LinkAgreement
import ModemLink.Proofs.Sending

/-!
# Whose death is confirmed

News of a death is believed if it names the present epoch, whatever the link is doing.  While the
link is bound or being bound that is the death of something that exists: the bind of the epoch is
under way, or it gave the handle that is cached.  But an epoch has a number before the first bind,
after a bind that failed, and after a death too, and news that names one of these is believed just
the same.  In any case no epoch dies twice.

* `Engine.Living` -- what there is to die;
* `Engine.Rooted`, `Engine.Step.rooted` -- where the phase of the link comes from;
* `Run.confirms_living_iff` -- when it is something living that is confirmed dead;
* `confirmed_after_failed_bind` -- a death that is confirmed though nothing was ever alive.
-/

namespace ModemLink

instance (m : Moment) : Decidable m.Dies :=
  inferInstanceAs (Decidable (m.move.death? = some m.before.hub.link.epoch))

namespace History

/-- The radio answered the bind of an epoch with a fault. -/
def Failed (history : History) (epoch : Epoch) : Prop :=
  ∃ m ∈ history, ∃ use fault, m.move = .answer (.bind epoch use) (Except.error fault)

/-- The epochs whose death was confirmed. -/
def mourned (history : History) : List Epoch :=
  history.filterMap fun m => if m.Dies then some m.before.hub.link.epoch else none

variable {history : History} {m : Moment} {epoch : Epoch}

theorem Failed.cons (h : history.Failed epoch) (m : Moment) :
    History.Failed (m :: history) epoch := by
  obtain ⟨n, hn, hfailed⟩ := h
  exact ⟨n, List.mem_cons_of_mem _ hn, hfailed⟩

theorem mourned_cons_of_dies (h : m.Dies) :
    mourned (m :: history) = m.before.hub.link.epoch :: history.mourned :=
  List.filterMap_cons_some (if_pos h)

theorem mourned_cons_of_not_dies (h : ¬ m.Dies) : mourned (m :: history) = history.mourned :=
  List.filterMap_cons_none (if_neg h)

theorem mem_mourned_cons (h : epoch ∈ history.mourned) (m : Moment) :
    epoch ∈ mourned (m :: history) := by
  by_cases hdies : m.Dies
  · rw [mourned_cons_of_dies hdies]
    exact List.mem_cons_of_mem _ h
  · rwa [mourned_cons_of_not_dies hdies]

end History

namespace Engine

open Clocked

variable {e after : Engine} {move : Move} {history : History} {epoch : Epoch}

/-- There is something of an epoch that can die: its bind is under way, or gave the handle that is
cached. -/
def Living (history : History) (e : Engine) (epoch : Epoch) : Prop :=
  (∃ suspension ∈ e.stack, suspension.call.cookie? = some epoch) ∨
    ∃ handle, e.hub.link.handle = some handle ∧ history.Granted ⟨handle, epoch⟩

/-- Where the phase of the link comes from: it is bound while a handle is cached, and being bound
while the bind of the present epoch is under way; before that there was no bind at all, or the bind
of the epoch failed, or the epoch began with a death. -/
structure Rooted (history : History) (e : Engine) : Prop where
  cached : e.hub.link.handle.isSome ↔ e.hub.link.phase = .bound
  binding : e.hub.link.phase = .binding →
    ∃ suspension ∈ e.stack, suspension.call.cookie? = some e.hub.link.epoch
  unbound : e.hub.link.phase = .unbound →
    ¬ history.Touched ∨ history.Failed e.hub.link.epoch
  dead : e.hub.link.phase = .dead →
    ∃ dying ∈ history.mourned, dying.next = e.hub.link.epoch

/-- A move that leaves link and binds alone leaves the phase where it came from. -/
theorem Rooted.kept (h : e.Rooted history)
    (link : after.hub.link = { e.hub.link with retryArmed := after.hub.link.retryArmed })
    (binds : ∀ suspension ∈ e.stack, suspension.call.cookie? = some e.hub.link.epoch →
      suspension ∈ after.stack)
    (calm : ¬ ((Moment.mk e move after).Binds ∨ (Moment.mk e move after).Dies)) :
    after.Rooted (⟨e, move, after⟩ :: history) := by
  have hphase : after.hub.link.phase = e.hub.link.phase := by rw [link]
  have hhandle : after.hub.link.handle = e.hub.link.handle := by rw [link]
  have hepoch : after.hub.link.epoch = e.hub.link.epoch := by rw [link]
  refine ⟨?_, fun hbinding => ?_, fun hunbound => ?_, fun hdead => ?_⟩
  · rw [hhandle, hphase]
    exact h.cached
  · obtain ⟨suspension, hmem, hcookie⟩ := h.binding (hphase ▸ hbinding)
    rw [hepoch]
    exact ⟨suspension, binds suspension hmem hcookie, hcookie⟩
  · rw [hepoch, History.touched_cons]
    rcases h.unbound (hphase ▸ hunbound) with huntouched | hfailed
    · exact .inl (not_or.mpr ⟨calm, huntouched⟩)
    · exact .inr (hfailed.cons _)
  · obtain ⟨dying, hmem, hnext⟩ := h.dead (hphase ▸ hdead)
    rw [hepoch]
    exact ⟨dying, History.mem_mourned_cons hmem _, hnext⟩

/-- A move that calls nobody, and is neither news nor an answer, leaves the phase where it came
from. -/
theorem Rooted.still (h : e.Rooted history) (link : after.hub.link = e.hub.link)
    (stack : after.stack = e.stack) (calm : move.disturbs e.hub.link.epoch = false)
    (quiet : (Moment.mk e move after).made = none) :
    after.Rooted (⟨e, move, after⟩ :: history) := by
  refine h.kept (by rw [link]) (fun suspension hmem _ => stack ▸ hmem) ?_
  exact Moment.not_touches calm fun cookie use => by simp [quiet]

/-- A bind has begun and waits. -/
theorem rooted_begun {advance : Option Advance} {use : BindUse} {rest : List Suspension}
    (phase : after.hub.link.phase = .binding) (handle : after.hub.link.handle = none)
    (stack : after.stack = ⟨advance, .bind after.hub.link.epoch use⟩ :: rest) :
    after.Rooted history := by
  refine ⟨by simp [phase, handle], fun _ => ?_, fun hunbound => ?_, fun hdead => ?_⟩
  · rw [stack]
    exact ⟨_, List.mem_cons_self .., rfl⟩
  · rw [phase] at hunbound
    cases hunbound
  · rw [phase] at hdead
    cases hdead

/-- The bind of the present epoch was answered.  There was no handle while it was under way. -/
theorem rooted_ended {retryArmed : Bool} {use : BindUse} {answer : Except LinkFault Handle}
    (move_eq : move = .answer (.bind e.hub.link.epoch use) answer)
    (link : after.hub.link = { (e.hub.link.endBind e.hub.link.epoch answer).2 with retryArmed })
    (empty : e.hub.link.handle = none) : after.Rooted (⟨e, move, after⟩ :: history) := by
  subst move_eq
  cases answer with
  | ok handle =>
      simp only [Link.endBind, if_true] at link
      refine ⟨by rw [link]; simp, fun h => ?_, fun h => ?_, fun h => ?_⟩ <;> rw [link] at h <;>
        cases h
  | error fault =>
      simp only [Link.endBind, if_true] at link
      refine ⟨?_, fun h => ?_, fun _ => .inr ?_, fun h => ?_⟩
      · rw [link]
        simp [empty]
      · rw [link] at h
        cases h
      · rw [link]
        exact ⟨_, List.mem_cons_self .., use, fault, rfl⟩
      · rw [link] at h
        cases h

/-- A death was confirmed. -/
theorem rooted_died {retryArmed : Bool} (dies : (Moment.mk e move after).Dies)
    (link : after.hub.link = { e.hub.link.buried with retryArmed }) :
    after.Rooted (⟨e, move, after⟩ :: history) := by
  refine ⟨?_, fun hbinding => ?_, fun hunbound => ?_, fun _ => ?_⟩
  · rw [link]
    simp [Link.buried]
  · rw [link] at hbinding
    cases hbinding
  · rw [link] at hunbound
    cases hunbound
  · rw [link, History.mourned_cons_of_dies dies]
    exact ⟨_, List.mem_cons_self .., rfl⟩

/-- A turn of the hub leaves the phase where it comes from.  Of the calls that waited only the one
that was answered is gone. -/
theorem Rooted.turn {advance : Option Advance} {progress : Progress} {hub : Hub}
    (h : e.Rooted history) (base : List Suspension) (hplaced : e.Placed history)
    (hturn : e.hub.Turn move progress hub)
    (hafter : after = { e with stack := base }.reach advance progress hub)
    (hmade : (Moment.mk e move after).made = after.calling)
    (hkept : ∀ suspension ∈ e.stack, suspension ∈ base ∨
      ∃ answer, move = .answer suspension.call answer)
    (hanswered : ∀ call answer, move = .answer call answer → ∃ advance, ⟨advance, call⟩ ∈ e.stack) :
    after.Rooted (⟨e, move, after⟩ :: history) := by
  have hhub : after.hub = hub := by rw [hafter, hub_reach]
  have hnobind : progress.binds = false →
      ∀ cookie use, (Moment.mk e move after).made ≠ some (.bind cookie use) := by
    intro hbinds cookie use
    rw [hmade, hafter]
    exact calling_ne_bind hbinds cookie use
  -- A bind that waited still does, unless it is the one that was answered.
  have hwaits : (∀ use answer, move ≠ .answer (.bind e.hub.link.epoch use) answer) →
      ∀ suspension ∈ e.stack, suspension.call.cookie? = some e.hub.link.epoch →
        suspension ∈ after.stack := by
    rintro hother ⟨waiting, call⟩ hmem hcookie
    rcases hkept _ hmem with hbelow | ⟨answer, heq⟩
    · rw [hafter]
      exact mem_stack_reach hbelow
    · cases call with
      | bind cookie use =>
          cases hcookie
          exact absurd heq (hother use answer)
      | _ => cases hcookie
  cases hturn with
  | stays calm rearms link binds =>
      refine h.kept (by rw [hhub, link]) (hwaits ?_) (Moment.not_touches calm (hnobind binds))
      rintro use answer rfl
      exact absurd trivial (Move.not_recovers calm)
  | begins use wanted free rearms link =>
      have hstack : after.stack = ⟨advance, .bind after.hub.link.epoch use⟩ :: base := by
        rw [hhub, link, hafter]
        rfl
      exact rooted_begun (by rw [hhub, link]; rfl) (by rw [hhub, link]; rfl) hstack
  | @ends cookie use answer progress hub rearms recovers binds =>
      by_cases hepoch : e.hub.link.epoch = cookie
      · subst hepoch
        obtain ⟨waiting, hmem⟩ := hanswered _ _ rfl
        have hbinding := hplaced.hub.link.binding _ (List.mem_map_of_mem hmem) rfl
        have hnone := mt h.cached.mp (by rw [hbinding]; simp)
        exact rooted_ended rfl (by rw [hhub, rearms.link]) (by simpa using hnone)
      · rw [Link.endBind_of_stale hepoch] at rearms
        refine h.kept (by rw [hhub, rearms.link]) (hwaits fun other _ heq => ?_)
          (not_or.mpr ⟨fun ⟨cookie, use, hbind⟩ => hnobind binds cookie use hbind, nofun⟩)
        cases heq
        exact hepoch rfl
  | @dies move cookie link progress hub death confirmed rearms recovers binds =>
      obtain rfl : cookie = e.hub.link.epoch := by
        by_contra hne
        rw [Link.confirmDeath_of_ne hne] at confirmed
        cases confirmed
      obtain rfl : e.hub.link.buried = link :=
        Option.some.inj ((Link.confirmDeath_self _).symm.trans confirmed)
      exact rooted_died death (by rw [hhub, rearms.link])
  | @drains delivery rest use progress hub rearms recovers binds =>
      exact h.kept (by rw [hhub, rearms.link]) (hwaits fun _ _ heq => by cases heq)
        (not_or.mpr ⟨fun ⟨cookie, use, hbind⟩ => hnobind binds cookie use hbind, nofun⟩)

/-- Every move leaves the phase where it comes from. -/
theorem Step.rooted (h : e.Rooted history) (hplaced : e.Placed history)
    (hstep : e.Step move after) (huncut : ¬ after.IsCut) :
    after.Rooted (⟨e, move, after⟩ :: history) := by
  rcases hstep.turning_or_lapses huncut with hturning |
    ⟨rfl, advance, timeline, control, due, gone, rfl⟩
  · cases hturning with
    | called control turn =>
        exact h.turn e.stack hplaced turn rfl rfl (fun _ hmem => .inl hmem)
          fun _ _ heq => by cases heq
    | @answered advance call answer rest last progress hub control stack turn =>
        refine h.turn rest hplaced turn rfl rfl (fun suspension hmem => ?_) fun other given heq =>
            ?_
        · rw [stack] at hmem
          rcases List.mem_cons.mp hmem with rfl | hrest
          · exact .inr ⟨answer, rfl⟩
          · exact .inl hrest
        · cases heq
          exact ⟨advance, by rw [stack]; exact List.mem_cons_self ..⟩
    | ran control due other rearms link binds =>
        refine h.kept (by rw [hub_reach, link]) (fun _ hmem _ => mem_stack_reach hmem) ?_
        exact Moment.not_touches rfl (calling_ne_bind binds)
    | spared control due bound binds =>
        refine h.kept (by rw [hub_reach]; rfl) (fun _ hmem _ => mem_stack_reach hmem) ?_
        exact Moment.not_touches rfl (calling_ne_bind binds)
    | attempted control due unbound => exact rooted_begun rfl rfl rfl
    | departs control target => exact h.still rfl rfl rfl rfl
    | arrives control due => exact h.still rfl rfl rfl rfl
    | owned control => exact h.still rfl rfl rfl rfl
    | subscribed control => exact h.still rfl rfl rfl rfl
  · exact h.still rfl rfl rfl rfl

/-- While the phase comes from where it should, something of the present epoch can die exactly if
the link is bound or being bound. -/
theorem Rooted.living_iff (h : e.Rooted history) (hplaced : e.Placed history) :
    e.Living history e.hub.link.epoch ↔
      e.hub.link.phase = .bound ∨ e.hub.link.phase = .binding := by
  constructor
  · rintro (⟨suspension, hmem, hcookie⟩ | ⟨handle, hhandle, -⟩)
    · exact .inr (hplaced.hub.link.binding _ (List.mem_map_of_mem hmem) hcookie)
    · exact .inl (h.cached.mp (by rw [hhandle]; rfl))
  · rintro (hbound | hbinding)
    · obtain ⟨handle, hhandle⟩ := Option.isSome_iff_exists.mp (h.cached.mpr hbound)
      refine .inr ⟨handle, hhandle, hplaced.hub.link.granted _ ?_⟩
      simp [Link.current, hbound, hhandle]
    · exact .inl (h.binding hbinding)

end Engine

section

variable {c : Config} {seed : Option Int} {entropy : Entropy} {outside : OutsideStore}
  {history later earlier : History} {e : Engine} {m : Moment} {cookie : Epoch}

/-- At every moment of a run without overflow, in which the epochs have not started over, the phase
of the link comes from where it should. -/
theorem Run.rooted (run : Run (Engine.start c seed entropy outside) history e)
    (uncut : history.Uncut) (epochs : history.epochs < UInt64.size) : e.Rooted history := by
  induction run with
  | start =>
      refine ⟨by simp [Engine.start, Link.fresh], nofun, fun _ => .inl ?_, nofun⟩
      rintro ⟨m, hm, -⟩
      cases hm
  | @step history e after move run hstep fresh ih =>
      rw [History.uncut_cons] at uncut
      have hepochs := Nat.lt_of_le_of_lt (History.epochs_le_cons _ history) epochs
      exact hstep.rooted (ih uncut.2 hepochs) (run.placed uncut.2 hepochs) uncut.1

/-- The epochs that died are over, and none of them died twice. -/
theorem Run.mourned_lt (run : Run (Engine.start c seed entropy outside) history e)
    (uncut : history.Uncut) (epochs : history.epochs < UInt64.size) :
    (∀ dead ∈ history.mourned, dead.number.toNat < e.hub.link.epoch.number.toNat) ∧
      history.mourned.Nodup := by
  induction run with
  | start => exact ⟨nofun, List.nodup_nil⟩
  | @step history e after move run hstep fresh ih =>
      have hplaced := (run.step hstep fresh).placed uncut epochs
      rw [History.uncut_cons] at uncut
      have hepochs := Nat.lt_of_le_of_lt (History.epochs_le_cons ⟨e, move, after⟩ history) epochs
      obtain ⟨hover, hnodup⟩ := ih uncut.2 hepochs
      have hbefore := (run.placed uncut.2 hepochs).counted
      have hafter := hplaced.counted
      have hcounts := History.epochs_le_cons ⟨e, move, after⟩ history
      by_cases hdies : (Moment.mk e move after).Dies
      · rw [History.mourned_cons_of_dies hdies]
        have hnext : e.hub.link.epoch ≠ after.hub.link.epoch := by
          obtain ⟨_, _, _, _, _, hreach, -, hfails⟩ := hstep.confirmed uncut.1 hdies
          rw [hreach, Engine.hub_reach, hfails.link]
          exact (Epoch.next_ne _).symm
        rw [History.epochs_cons_of_ne hnext] at hafter
        have hlater : e.hub.link.epoch.number.toNat < after.hub.link.epoch.number.toNat := by omega
        refine ⟨List.forall_mem_cons.mpr ⟨hlater, fun dead hdead => ?_⟩,
          List.nodup_cons.mpr ⟨fun hagain => ?_, hnodup⟩⟩
        · exact Nat.lt_trans (hover dead hdead) hlater
        · exact Nat.lt_irrefl _ (hover _ hagain)
      · rw [History.mourned_cons_of_not_dies hdies]
        refine ⟨fun dead hdead => ?_, hnodup⟩
        have hlt := hover dead hdead
        omega

/-- **Whose death is confirmed.**  News of another epoch changes nothing.  News of the present epoch
makes the link dead, begins the next epoch and is counted; no epoch dies twice.  What is confirmed
dead was the bind under way, or the one that gave the cached handle, exactly if the link was bound
or being bound; if not, there was no bind at all, or the bind of the epoch had failed, or the epoch
had begun with a death. -/
theorem Run.confirms_living_iff
    (run : Run (Engine.start c seed entropy outside) (later ++ m :: earlier) e)
    (uncut : History.Uncut (later ++ m :: earlier))
    (epochs : History.epochs (later ++ m :: earlier) < UInt64.size)
    (reported : m.move.death? = some cookie) :
    (cookie ≠ m.before.hub.link.epoch →
      m.after.hub = m.before.hub ∧ m.after.stack = m.base ∧ m.made = none) ∧
    (cookie = m.before.hub.link.epoch →
      m.after.hub.link.phase = .dead ∧ m.after.hub.link.handle = none ∧
      m.after.hub.link.epoch = cookie.next ∧
      m.after.hub.station.counters.deaths = m.before.hub.station.counters.deaths + 1 ∧
      (m.before.Living earlier cookie ↔
        m.before.hub.link.phase = .bound ∨ m.before.hub.link.phase = .binding) ∧
      (m.before.hub.link.phase = .unbound → ¬ earlier.Touched ∨ earlier.Failed cookie) ∧
      (m.before.hub.link.phase = .dead → ∃ dying ∈ earlier.mourned, dying.next = cookie)) ∧
    (History.mourned (later ++ m :: earlier)).Nodup := by
  obtain ⟨hrun, hstep⟩ := run.split
  have huncut := List.forall_mem_append.mp uncut
  obtain ⟨hnow, hearlier⟩ := History.uncut_cons.mp huncut.2
  have hepochs : earlier.epochs < UInt64.size := by
    have hcons := History.epochs_le_cons m earlier
    have happend := History.epochs_le_append later (m :: earlier)
    omega
  have hplaced := hrun.placed hearlier hepochs
  have hrooted := hrun.rooted hearlier hepochs
  refine ⟨hstep.stale reported, ?_, (run.mourned_lt uncut epochs).2⟩
  rintro rfl
  obtain ⟨_, _, _, hub, recorder, hreach, hcounted, hfails⟩ := hstep.confirmed hnow reported
  have hhub : m.after.hub = hub := by rw [hreach, Engine.hub_reach]
  refine ⟨?_, ?_, ?_, ?_, hrooted.living_iff hplaced, hrooted.unbound, hrooted.dead⟩
  · rw [hhub, hfails.link]
    rfl
  · rw [hhub, hfails.link]
    rfl
  · rw [hhub, hfails.link]
    rfl
  · rw [hhub, hfails.counters.1]
    exact congrArg Counters.deaths hcounted

end

/-- A plain engine whose first bind was answered. -/
private def Engine.bindAnswered (answer : Except LinkFault Handle) : Engine :=
  (plain.call .connect).resume ⟨none, .bind ⟨1⟩ .connection⟩ answer

/-- How it came to that. -/
private def firstBind (answer : Except LinkFault Handle) : History :=
  [⟨Engine.plain.call .connect, .answer (.bind ⟨1⟩ .connection) answer, .bindAnswered answer⟩,
    ⟨.plain, .call .connect, Engine.plain.call .connect⟩]

/-- The news that the first bind died. -/
private def obituary (answer : Except LinkFault Handle) : Moment :=
  ⟨.bindAnswered answer, .call (.die ⟨1⟩), (Engine.bindAnswered answer).call (.die ⟨1⟩)⟩

private theorem run_obituary (answer : Except LinkFault Handle) :
    Run .plain (obituary answer :: firstBind answer) (obituary answer).after := by
  have started : Run .plain [] .plain := .start
  have waiting := started.call .connect none rfl trivial (by simp [Move.submitted])
  have ended := waiting.answer none (.bind ⟨1⟩ .connection) answer none rfl rfl
  refine ended.call (.die ⟨1⟩) (some (.connected (answer.map fun _ => ⟨1⟩))) ?_ trivial
    (by simp [Move.submitted])
  cases answer <;> rfl

private theorem uncut_obituary (answer : Except LinkFault Handle) (bound : Returned)
    (before : (Engine.bindAnswered answer).control = .outside (some bound))
    (after : ((Engine.bindAnswered answer).call (.die ⟨1⟩)).control = .outside (some .handled))
    (hbound : ∀ overflow, some bound ≠ some (.cut overflow)) :
    History.Uncut (obituary answer :: firstBind answer) := by
  have hbegun : (Engine.plain.call .connect).control = .outside none := by cbv
  have hfirst : History.Uncut (firstBind answer) := by
    rw [firstBind, History.uncut_cons, History.uncut_cons]
    exact ⟨Engine.not_isCut _ before hbound, Engine.not_isCut _ hbegun (by simp),
      by simp [History.Uncut]⟩
  exact History.uncut_cons.mpr ⟨Engine.not_isCut _ after (by simp), hfirst⟩

/-- So it is for a bind that gave a handle. -/
theorem confirms_living_of_bound :
    ∃ m earlier, Run .plain (m :: earlier) m.after ∧ History.Uncut (m :: earlier) ∧
      History.epochs (m :: earlier) < UInt64.size ∧ m.move.death? = some ⟨1⟩ ∧
      m.before.hub.link.phase = .bound ∧ m.before.Living earlier ⟨1⟩ ∧
      m.after.hub.link.phase = .dead ∧ m.after.hub.link.epoch = ⟨2⟩ := by
  have run : Run .plain ([] ++ obituary (.ok ⟨0⟩) :: firstBind (.ok ⟨0⟩)) _ :=
    run_obituary (.ok ⟨0⟩)
  have uncut : History.Uncut (obituary (.ok ⟨0⟩) :: firstBind (.ok ⟨0⟩)) :=
    uncut_obituary (.ok ⟨0⟩) (.connected (.ok ⟨1⟩)) (by cbv) (by cbv) (by simp)
  have epochs : History.epochs (obituary (.ok ⟨0⟩) :: firstBind (.ok ⟨0⟩)) < UInt64.size :=
    Nat.lt_of_le_of_lt (History.epochs_le _) (by decide)
  have reported : (obituary (.ok ⟨0⟩)).move.death? = some ⟨1⟩ := rfl
  obtain ⟨-, hconfirmed, -⟩ := Run.confirms_living_iff run uncut epochs reported
  obtain ⟨hdead, -, hepoch, -, hliving, -⟩ := hconfirmed rfl
  have hbound : (obituary (.ok ⟨0⟩)).before.hub.link.phase = .bound := rfl
  exact ⟨_, _, run, uncut, epochs, rfl, hbound, hliving.mpr (.inl hbound), hdead, hepoch⟩

/-- A bind that failed is confirmed dead, though it is over and no bind ever gave a handle. -/
theorem confirmed_after_failed_bind :
    ∃ m earlier, Run .plain (m :: earlier) m.after ∧ History.Uncut (m :: earlier) ∧
      History.epochs (m :: earlier) < UInt64.size ∧ m.move.death? = some ⟨1⟩ ∧
      m.before.stack = [] ∧ (∀ live, ¬ History.Granted earlier live) ∧
      ¬ m.before.Living earlier ⟨1⟩ ∧ m.before.hub.link.phase = .unbound ∧
      m.after.hub.link.phase = .dead ∧ m.after.hub.link.epoch = ⟨2⟩ ∧
      m.after.hub.station.counters.deaths = 1 := by
  have nothing : ∀ live, ¬ (firstBind (.error .disconnected)).Granted live := by
    rintro ⟨handle, epoch⟩ ⟨m, hm, use, hgranted⟩
    simp only [firstBind, List.mem_cons, List.not_mem_nil, or_false] at hm
    rcases hm with rfl | rfl <;> cases hgranted
  have uncut := uncut_obituary (.error .disconnected)
    (.connected (.error .disconnected)) (by cbv) (by cbv) (by simp)
  refine ⟨obituary (.error .disconnected), firstBind (.error .disconnected), run_obituary _, uncut,
    Nat.lt_of_le_of_lt (History.epochs_le _) (by decide), rfl, rfl, nothing, ?_, rfl, by cbv,
    by cbv, by cbv⟩
  rintro (⟨suspension, hmem, -⟩ | ⟨handle, hhandle, -⟩)
  · cases hmem
  · cases hhandle

end ModemLink
