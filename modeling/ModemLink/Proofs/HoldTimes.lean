import Mathlib.Data.Nat.Count
import Mathlib.Order.Interval.Finset.Nat
import ModemLink.Proofs.PowerCalls
import ModemLink.Proofs.SafetyValve

/-!
# How long a guard was held

The books of a guard keep a closed sum of stretches of holding, and the beginning of the stretch
that is open.  What they should say is told by readings of the clock alone: each call, and each
timer that runs out during an advance, is a reading from which on the guard counts so many units.
The time held is the number of nanoseconds at which the count was positive.

* `GuardState.Turns` -- all that a call does to the books of a guard, as far as time goes;
* `Tallied.later`, `Tallied.turn` -- the books and the readings agree while time passes, and after
  every call;
* `Station.Metered.passes`, `GuardRun.metered` -- so they do after every timer of an advance, and
  after any calls;
* `GuardRun.holds_exactly` -- the books show the time held.
-/

namespace ModemLink

/-! ## Readings -/

/-- A reading of the clock, from which on so many units are counted. -/
structure Reading where
  since : Duration
  count : Nat

/-- The units counted at a time, by readings of which the latest is in front. -/
def countAt (log : List Reading) (time : Nat) : Nat :=
  match log.find? fun reading => decide (reading.since.nanos ≤ time) with
  | some reading => reading.count
  | none => 0

/-- The number of nanoseconds before `now` at which units were counted. -/
def heldTime (log : List Reading) (now : Nat) : Nat :=
  Nat.count (fun time => 0 < countAt log time) now

/-- No reading is of the future. -/
def Past (log : List Reading) (now : Nat) : Prop := ∀ reading ∈ log, reading.since.nanos ≤ now

section Readings

variable {log : List Reading} {reading : Reading} {now after time : Nat}

theorem Past.later (h : Past log now) (hle : now ≤ after) : Past log after :=
  fun reading hmem => Nat.le_trans (h reading hmem) hle

theorem countAt_cons_of_le (h : reading.since.nanos ≤ time) :
    countAt (reading :: log) time = reading.count := by
  simp [countAt, h]

theorem countAt_cons_of_lt (h : time < reading.since.nanos) :
    countAt (reading :: log) time = countAt log time := by
  simp [countAt, Nat.not_le.mpr h]

/-- From the latest reading on the count stands. -/
theorem Past.countAt_eq (h : Past log now) (hle : now ≤ time) :
    countAt log time = countAt log now := by
  cases log with
  | nil => rfl
  | cons latest rest =>
      have hlatest := h latest (List.mem_cons_self ..)
      rw [countAt_cons_of_le hlatest, countAt_cons_of_le (Nat.le_trans hlatest hle)]

theorem heldTime_le : heldTime log now ≤ now := Nat.count_le _

@[simp] theorem heldTime_nil : heldTime [] now = 0 :=
  Nat.count_iff_forall_not.mpr fun _ _ => Nat.lt_irrefl 0

/-- A new reading says nothing of the time before it. -/
theorem heldTime_cons (h : now ≤ reading.since.nanos) :
    heldTime (reading :: log) now = heldTime log now := by
  unfold heldTime
  rw [Nat.count_eq_card_filter_range, Nat.count_eq_card_filter_range]
  congr 1
  refine Finset.filter_congr fun time htime => ?_
  rw [countAt_cons_of_lt (Nat.lt_of_lt_of_le (Finset.mem_range.mp htime) h)]

/-- While time passes it counts as held, if units are counted at all. -/
theorem Past.heldTime_eq (h : Past log now) (hle : now ≤ after) :
    heldTime log after = heldTime log now + if 0 < countAt log now then after - now else 0 := by
  obtain ⟨length, rfl⟩ := Nat.exists_eq_add_of_le hle
  have hstands (time : Nat) : countAt log (now + time) = countAt log now :=
    h.countAt_eq (Nat.le_add_right ..)
  unfold heldTime
  rw [Nat.count_add, Nat.add_sub_cancel_left]
  congr 1
  split
  · rename_i hpositive
    exact Nat.count_iff_forall.mpr fun time _ => by rw [hstands]; exact hpositive
  · rename_i hnone
    exact Nat.count_iff_forall_not.mpr fun time _ => by rw [hstands]; exact hnone

theorem heldTime_mono (hle : now ≤ after) : heldTime log now ≤ heldTime log after :=
  Nat.count_monotone _ hle

theorem heldTime_append {newer : List Reading}
    (h : ∀ reading ∈ newer, now ≤ reading.since.nanos) :
    heldTime (newer ++ log) now = heldTime log now := by
  induction newer with
  | nil => rfl
  | cons reading rest ih =>
      rw [List.cons_append, heldTime_cons (h reading (List.mem_cons_self ..))]
      exact ih fun other hmem => h other (List.mem_cons_of_mem _ hmem)

end Readings

/-! ## The books of one guard -/

namespace GuardState

variable {state changed : GuardState} {guard : Guard} {now : Duration}

/-- The nanoseconds that the guard has been held, as its books show them. -/
def shownHeld (state : GuardState) (now : Duration) : Nat :=
  state.heldTotal.nanos + (state.heldSince.map fun since => (now.elapsed since).nanos).getD 0

theorem heldUpTo_eq_ok_iff {total : Duration} :
    state.heldUpTo now = .ok total ↔ total.nanos = state.shownHeld now := by
  unfold heldUpTo shownHeld
  cases state.heldSince with
  | some since => exact Duration.add?_eq_ok_iff
  | none =>
      simp only [Except.ok.injEq, Option.map_none, Option.getD_none, Nat.add_zero]
      rw [eq_comm, Duration.ext_iff]

/-- A view shows the time that the guard has been held. -/
theorem view_of_heldUpTo {total : Duration} (guard : Guard)
    (h : state.heldUpTo now = .ok total) :
    ∃ view, state.view guard now = .ok view ∧ view.heldTotal = total := by
  unfold view
  rw [h]
  exact ⟨_, rfl, rfl⟩

/-- The end of a stretch of holding puts all that was held into the closed sum. -/
theorem total_of_close {after : GuardState} {calls : List PowerCall}
    (h : state.close guard now = (after, calls, none)) :
    ∃ total : Duration, total.nanos = state.shownHeld now ∧
      after = { state with attributed := [], heldSince := none, heldTotal := total } := by
  unfold close at h
  split at h
  · rename_i total htotal
    cases h
    exact ⟨total, heldUpTo_eq_ok_iff.mp htotal, rfl⟩
  · cases h

/-- All that a call does to the books of a guard, as far as time goes. -/
inductive Turns (now : Duration) (state : GuardState) : GuardState → Prop where
  | kept : Turns now state state
  | taken (guard : Guard) (source : WorkSource) :
      Turns now state (state.acquire guard source now).1
  | dropped {changed : GuardState} (before : 0 < state.count) (after : 0 < changed.count)
      (since : changed.heldSince = state.heldSince) (total : changed.heldTotal = state.heldTotal) :
      Turns now state changed
  | closed {changed : GuardState} (before : 0 < state.count) (after : changed.count = 0)
      (since : changed.heldSince = none) (total : changed.heldTotal.nanos = state.shownHeld now) :
      Turns now state changed

end GuardState

/-! ## Books and readings -/

/-- The books of a guard say what the readings say: the units that are counted, a stretch that is
open exactly while there are some, and the time held. -/
structure Tallied (log : List Reading) (state : GuardState) (now : Duration) : Prop where
  past : Past log now.nanos
  counts : countAt log now.nanos = state.count
  idle : state.heldSince = none ↔ state.count = 0
  stretch : ∀ since, state.heldSince = some since → since.nanos ≤ now.nanos
  exact : state.shownHeld now = heldTime log now.nanos

namespace Tallied

variable {log : List Reading} {state changed : GuardState} {now after : Duration}

theorem fresh : Tallied [] .fresh .zero :=
  ⟨by simp [Past], rfl, by simp [GuardState.fresh], by simp [GuardState.fresh], rfl⟩

/-- The time that the books show is in range. -/
theorem view {governor : Governor} {guard : Guard}
    (h : Tallied log (governor.books guard) now) :
    ∃ view, governor.view guard now = .ok view ∧
      view.heldTotal.nanos = heldTime log now.nanos := by
  have hle : (governor.books guard).shownHeld now ≤ Duration.maxNanos :=
    h.exact ▸ Nat.le_trans heldTime_le now.nanos_le
  have htotal : (governor.books guard).heldUpTo now = .ok ⟨_, hle⟩ :=
    GuardState.heldUpTo_eq_ok_iff.mpr rfl
  obtain ⟨view, hview, hshown⟩ := GuardState.view_of_heldUpTo guard htotal
  exact ⟨view, hview, (congrArg Duration.nanos hshown).trans h.exact⟩

/-- A stretch is open exactly while units are counted. -/
theorem countAt_pos_iff (h : Tallied log state now) :
    0 < countAt log now.nanos ↔ ∃ since, state.heldSince = some since := by
  rw [h.counts, ← Option.ne_none_iff_exists', Nat.pos_iff_ne_zero]
  exact not_congr h.idle.symm

/-- Books and readings agree while time passes. -/
theorem later (h : Tallied log state now) (hle : now.nanos ≤ after.nanos) :
    Tallied log state after := by
  refine ⟨h.past.later hle, (h.past.countAt_eq hle).trans h.counts, h.idle,
    fun since hsince => Nat.le_trans (h.stretch since hsince) hle, ?_⟩
  rw [h.past.heldTime_eq hle, ← h.exact]
  cases hsince : state.heldSince with
  | none =>
      have hidle : ¬ 0 < countAt log now.nanos := by
        rw [h.countAt_pos_iff, hsince]
        simp
      simp only [GuardState.shownHeld, hsince, if_neg hidle, Option.map_none, Nat.add_zero]
  | some since =>
      -- The open stretch has grown by the time that has passed.
      have hheld : 0 < countAt log now.nanos := h.countAt_pos_iff.mpr ⟨since, hsince⟩
      have hpast := h.stretch since hsince
      simp only [GuardState.shownHeld, hsince, if_pos hheld, Option.map_some, Option.getD_some,
        Duration.nanos_elapsed]
      omega

/-- A call that leaves the time shown as it is, and opens no stretch but one that begins now. -/
theorem read (h : Tallied log state now) (hidle : changed.heldSince = none ↔ changed.count = 0)
    (hsince : ∀ since, changed.heldSince = some since → since = now ∨
      state.heldSince = some since)
    (hshown : changed.shownHeld now = state.shownHeld now) :
    Tallied (⟨now, changed.count⟩ :: log) changed now := by
  refine ⟨?_, countAt_cons_of_le (Nat.le_refl _), hidle, fun since hopened => ?_, ?_⟩
  · intro reading hmem
    rcases List.mem_cons.mp hmem with rfl | hold
    · exact Nat.le_refl _
    · exact h.past reading hold
  · rcases hsince since hopened with rfl | hold
    · exact Nat.le_refl _
    · exact h.stretch since hold
  · rw [heldTime_cons (Nat.le_refl _), hshown]
    exact h.exact

/-- Books and readings agree after every call. -/
theorem turn (h : Tallied log state now) (hturns : state.Turns now changed) :
    Tallied (⟨now, changed.count⟩ :: log) changed now := by
  cases hturns with
  | kept => exact h.read h.idle (fun _ hsince => .inr hsince) rfl
  | taken guard source =>
      by_cases hfirst : state.count = 0
      · have hopened : (state.acquire guard source now).1.heldSince = some now := if_pos hfirst
        have hclosed : state.heldSince = none := h.idle.mpr hfirst
        refine h.read ?_ (fun since hsince => .inl ?_) ?_
        · rw [hopened]
          exact iff_of_false (Option.some_ne_none now) (Nat.succ_ne_zero state.count)
        · rw [hopened] at hsince
          exact (Option.some.inj hsince).symm
        · have helapsed : (now.elapsed now).nanos = 0 := by
            rw [Duration.nanos_elapsed, Nat.sub_self]
          rw [GuardState.shownHeld, GuardState.shownHeld, hopened, hclosed, Option.map_some,
            Option.getD_some, helapsed]
          rfl
      · have hsame : (state.acquire guard source now).1.heldSince = state.heldSince :=
          if_neg hfirst
        refine h.read ?_ (fun since hsince => .inr (hsame.symm.trans hsince)) ?_
        · rw [hsame, h.idle]
          simp [GuardState.acquire, hfirst]
        · rw [GuardState.shownHeld, hsame]
          rfl
  | dropped before after since total =>
      refine h.read ?_ (fun other hsince => .inr (since.symm.trans hsince)) ?_
      · rw [since, h.idle]
        omega
      · rw [GuardState.shownHeld, since, total]
        rfl
  | closed before after since total =>
      refine h.read (iff_of_true since after) (fun other hsince => ?_) ?_
      · rw [since] at hsince
        cases hsince
      · rw [GuardState.shownHeld, since]
        exact total

end Tallied

/-! ## Every guard -/

namespace Governor

open GuardState

variable {governor after : Governor} {guard : Guard} {ticket : Ticket} {now : Duration}
  {sequence : Nat}

theorem count_eq_books (governor : Governor) (guard : Guard) :
    governor.count guard = (governor.books guard).count := by
  cases guard <;> rfl

theorem books_update_self {state : GuardState} (h : governor.state? guard = some state)
    (changed : GuardState) (calls : List PowerCall) :
    (governor.update guard changed calls).books guard = changed := by
  rw [books, state?_update_self h, Option.getD_some]

/-- What is done to the books of one guard is not done to those of another. -/
theorem turns_update {own : Guard} {state changed : GuardState}
    (h : governor.state? own = some state) (hturns : state.Turns now changed)
    (calls : List PowerCall) (guard : Guard) :
    (governor.books guard).Turns now ((governor.update own changed calls).books guard) := by
  by_cases hguard : own = guard
  · subst hguard
    rw [books_update_self h, books, h, Option.getD_some]
    exact hturns
  · rw [books, books, state?_update_of_ne hguard]
    exact .kept

theorem turns_acquire (governor : Governor) (own : Guard) (source : WorkSource) (now : Duration)
    (guard : Guard) :
    (governor.books guard).Turns now ((governor.acquire own source now).2.books guard) := by
  cases hstate : governor.state? own with
  | none =>
      simp only [acquire, hstate]
      exact .kept
  | some state =>
      rw [acquire_of_state hstate]
      exact turns_update hstate (.taken own source) _ guard

theorem turns_release {good : Bool} (h : release ticket now governor = .ok good after)
    (guard : Guard) : (governor.books guard).Turns now (after.books guard) := by
  unfold release at h
  dsimp only at h
  split at h
  · cases h
    exact .kept
  rename_i state hstate
  split at h
  · cases h
    exact .kept
  split at h
  · cases h
    exact .kept
  rename_i hcount
  have hheld : 0 < state.count := Nat.pos_of_ne_zero hcount
  split at h
  · rename_i hlast
    split at h
    · rename_i hclose
      cases h
      obtain ⟨total, htotal, rfl⟩ := total_of_close hclose
      exact turns_update hstate (.closed hheld hlast rfl htotal) _ guard
    · cases h
  · rename_i hmore
    cases h
    have hdropped : state.Turns now { state with
        count := state.count - 1
        attributed := dropUnit ticket.source state.attributed } :=
      .dropped hheld (Nat.pos_of_ne_zero hmore) rfl rfl
    exact turns_update hstate hdropped _ guard

theorem turns_expire {own : Guard} {cleared : Bool}
    (h : expire own sequence now governor = .ok cleared after) (guard : Guard) :
    (governor.books guard).Turns now (after.books guard) := by
  unfold expire at h
  split at h
  · cases h
    exact .kept
  rename_i state hstate
  split at h
  · cases h
    exact .kept
  split at h
  · cases h
    exact .kept
  rename_i hcount
  dsimp only at h
  split at h
  · rename_i hclose
    cases h
    obtain ⟨total, htotal, rfl⟩ := total_of_close hclose
    exact turns_update hstate (.closed (Nat.pos_of_ne_zero hcount) rfl rfl htotal) _ guard
  · cases h

end Governor

/-! ## Readings of a run -/

/-- A timer that runs out is a reading of its deadline. -/
def Station.Firing.reading (guard : Guard) (firing : Firing) : Reading :=
  ⟨firing.before.now, firing.after.governor.count guard⟩

/-- The readings of a call, the latest in front.  An advance changes what is counted only where a
timer runs out. -/
def GuardMoment.readings (guard : Guard) (m : GuardMoment) : List Reading :=
  match m.call with
  | .advance _ _ => (m.firings.map (·.reading guard)).reverse
  | _ => [⟨m.before.now, m.after.governor.count guard⟩]

/-- The readings of a history that has its latest call in front. -/
def readings (history : List GuardMoment) (guard : Guard) : List Reading :=
  history.flatMap (·.readings guard)

namespace Station

open Clocked

/-- Books and readings agree for every guard, and only units have timers. -/
structure Metered (logs : Guard → List Reading) (s : Station) : Prop where
  ordered : s.timeline.Ordered
  tasks : ∀ timer ∈ s.timeline.queue, ∃ guard sequence, timer.task = .expiry guard sequence
  plain : s.clock = id
  tallied : ∀ guard, Tallied (logs guard) (s.governor.books guard) s.now

namespace Metered

variable {logs : Guard → List Reading} {s t : Station}

theorem start (settings : StationSettings) (spare : Nat) (seed : Option Int) (entropy : Entropy)
    (outside : OutsideStore) :
    Metered (fun _ => []) (Station.start settings spare seed entropy outside) := by
  refine ⟨Timeline.ordered_start, fun timer hmem => absurd hmem List.not_mem_nil, rfl,
    fun guard => ?_⟩
  cases guard <;> exact .fresh

theorem acquire (h : Metered logs s) {own : Guard} {source : WorkSource} {issued : Option Ticket}
    (hrun : Station.acquire own source s = .ok issued t) :
    Metered (fun guard => ⟨s.now, t.governor.count guard⟩ :: logs guard) t := by
  have hturns (guard : Guard) := Governor.turns_acquire s.governor own source s.reading guard
  rw [reading_eq_now h.plain] at hturns
  simp only [Governor.count_eq_books]
  rcases acquire_eq_ok hrun with ⟨-, -, rfl⟩ | ⟨state, timeline, hstate, -, hschedule, rfl⟩
  · exact ⟨h.ordered, h.tasks, h.plain, fun guard => (h.tallied guard).turn .kept⟩
  rw [reading_eq_now h.plain]
  rw [Governor.acquire_of_state hstate] at hturns
  have hordered := h.ordered.schedule hschedule
  obtain ⟨deadline, -, rfl⟩ := Timeline.schedule_eq_ok hschedule
  refine ⟨hordered, fun timer hmem => ?_, h.plain,
    fun guard => (h.tallied guard).turn (hturns guard)⟩
  rcases List.mem_cons.mp ((Timeline.perm_enqueue _ _).mem_iff.mp hmem) with rfl | hold
  · exact ⟨_, _, rfl⟩
  · exact h.tasks timer hold

theorem release (h : Metered logs s) {ticket : Ticket} {good : Bool}
    (hrun : Station.release ticket s = .ok good t) :
    Metered (fun guard => ⟨s.now, t.governor.count guard⟩ :: logs guard) t := by
  have hreleased : wp (Station.release ticket) (fun _ t =>
      Metered (fun guard => ⟨s.now, t.governor.count guard⟩ :: logs guard) t)
      (fun _ => True) s := by
    refine wp_release (fun good governor hrelease => ?_) fun _ => trivial
    simp only [Governor.count_eq_books]
    rw [reading_eq_now h.plain] at hrelease
    exact ⟨h.ordered, h.tasks, h.plain, fun guard =>
      (h.tallied guard).turn (Governor.turns_release hrelease guard)⟩
  exact (wp_of_ok hrun).mp hreleased

/-- A timer that runs out is a reading of the clock. -/
theorem fire {target : Duration} {task : Task} {timeline : Timeline Task} {epoch : Epoch}
    {delivery : Option Delivery} (h : Metered logs s)
    (hpop : s.timeline.popDue? target = some (task, timeline))
    (hrun : runTask epoch task { s with timeline } = .ok delivery t) :
    Metered (fun guard => ⟨timeline.now, t.governor.count guard⟩ :: logs guard) t := by
  obtain ⟨hordered, hpassed, -⟩ := h.ordered.popDue hpop
  obtain ⟨first, rest, hqueue, rfl, -, htimeline⟩ := Timeline.popDue?_eq_some hpop
  obtain ⟨own, sequence, htask⟩ := h.tasks first (by rw [hqueue]; exact List.mem_cons_self ..)
  have htasks : ∀ timer ∈ timeline.queue,
      ∃ guard sequence, timer.task = .expiry guard sequence := by
    intro timer hmem
    rw [htimeline] at hmem
    exact h.tasks timer (by rw [hqueue]; exact List.mem_cons_of_mem _ hmem)
  rw [htask] at hrun
  have hexpired : wp (runTask epoch (.expiry own sequence)) (fun _ t =>
      Metered (fun guard => ⟨timeline.now, t.governor.count guard⟩ :: logs guard) t)
      (fun _ => True) { s with timeline } := by
    simp only [runTask, wp_bind]
    refine wp_expire (fun cleared governor recorder hexpire _ => ?_) fun _ _ => trivial
    simp only [wp_pure, Governor.count_eq_books]
    have hreading : Station.reading { s with timeline } = timeline.now := reading_eq_now h.plain
    rw [hreading] at hexpire
    exact ⟨hordered, htasks, h.plain, fun guard =>
      ((h.tallied guard).later hpassed).turn (Governor.turns_expire hexpire guard)⟩
  exact (wp_of_ok hrun).mp hexpired

/-- Books and readings agree after an advance, every timer of which is a reading. -/
theorem passes {target : Duration} {epoch : Epoch} {firings : List Firing} (h : Metered logs s)
    (hpasses : Passes epoch target s firings t) (hle : s.now.nanos ≤ target.nanos) :
    Metered (fun guard => (firings.map (·.reading guard)).reverse ++ logs guard) t := by
  induction hpasses generalizing logs with
  | done hnone =>
      exact ⟨h.ordered.setNow hnone, h.tasks, h.plain, fun guard => (h.tallied guard).later hle⟩
  | @fire s t u task timeline delivery firings hpop hrun _ ih =>
      have hsame : t.now = timeline.now := congrArg Timeline.now (runTask_timeline hrun)
      obtain ⟨-, -, hdue⟩ := h.ordered.popDue hpop
      have hrest := ih (h.fire hpop hrun) (by rw [hsame]; exact hdue)
      simp only [List.map_cons, List.reverse_cons, List.append_assoc, List.singleton_append]
      exact hrest

end Metered

end Station

open Station Clocked

/-- While a call is made the clock does not go back, and no reading is earlier than the call. -/
theorem GuardMoment.Happens.forth {m : GuardMoment} (h : m.Happens)
    (hordered : m.before.timeline.Ordered) :
    m.after.timeline.Ordered ∧ m.before.now.nanos ≤ m.after.now.nanos ∧
      ∀ guard, ∀ reading ∈ m.readings guard, m.before.now.nanos ≤ reading.since.nanos := by
  cases h with
  | @acquire s t own source issued hrun =>
      have hsame (guard : Guard) :
          ∀ reading ∈ (GuardMoment.mk s (.acquire own source) issued [] t).readings guard,
            s.now.nanos ≤ reading.since.nanos := by
        intro reading hmem
        rw [List.mem_singleton.mp hmem]
      rcases acquire_eq_ok hrun with ⟨-, -, rfl⟩ | ⟨state, timeline, -, -, hschedule, rfl⟩
      · exact ⟨hordered, Nat.le_refl _, hsame⟩
      · have hordered' := hordered.schedule hschedule
        obtain ⟨deadline, -, rfl⟩ := Timeline.schedule_eq_ok hschedule
        exact ⟨hordered', Nat.le_refl _, hsame⟩
  | @release s t ticket good hrun =>
      have hkept : wp (Station.release ticket) (fun _ t => t.timeline = s.timeline)
          (fun _ => True) s := wp_release (fun _ _ _ => rfl) fun _ => trivial
      have htimeline : t.timeline = s.timeline := (wp_of_ok hrun).mp hkept
      refine ⟨htimeline ▸ hordered, Nat.le_of_eq ?_, fun guard reading hmem => ?_⟩
      · exact congrArg (fun timeline : Timeline Task => timeline.now.nanos) htimeline.symm
      · rw [List.mem_singleton.mp hmem]
  | @advance s epoch length firings _ hlapses =>
      obtain ⟨target, hsum, hpasses⟩ := hlapses
      have htarget := Duration.add?_eq_ok_iff.mp hsum
      obtain ⟨hfirings, last, hlast, hordered', hnone, hafter⟩ :=
        hpasses.keeps (fun t => s.now.nanos ≤ t.now.nanos)
          (fun firing => s.now.nanos ≤ firing.before.now.nanos) hordered (Nat.le_refl _)
          fun {_ _ _ timeline _} hordered hpast hpop hrun => by
            obtain ⟨-, hpassed, -⟩ := hordered.popDue hpop
            have hle : s.now.nanos ≤ timeline.now.nanos := Nat.le_trans hpast hpassed
            refine ⟨hle, ?_⟩
            unfold Station.now
            rw [runTask_timeline hrun]
            exact hle
      dsimp only at hafter ⊢
      rw [hafter]
      refine ⟨hordered'.setNow hnone, ?_, fun guard reading hmem => ?_⟩
      · exact htarget ▸ Nat.le_add_right _ _
      · obtain ⟨firing, hfiring, rfl⟩ := List.mem_map.mp (List.mem_reverse.mp hmem)
        exact hfirings firing hfiring

/-- A unit that is taken is the latest one of its guard. -/
theorem latestTaken_acquire (s t : Station) (own : Guard) (source : WorkSource)
    (issued : Option Ticket) (history : List GuardMoment) :
    latestTaken (⟨s, .acquire own source, issued, [], t⟩ :: history) =
      fun guard => if guard = own then some s.now else latestTaken history guard := by
  funext guard
  rw [latestTaken_cons]
  unfold GuardMoment.takes?
  by_cases hown : guard = own <;> simp [hown]

/-- Whatever the timeouts are, a call leaves every guard tied to its timers, and every timer that
clears a guard is on time. -/
theorem GuardMoment.Happens.guarded {m : GuardMoment} {settings : StationSettings}
    {history : List GuardMoment} (h : m.Happens)
    (hguarded : Guarded settings (latestTaken history) m.before)
    (hordered : m.before.timeline.Ordered) :
    Guarded settings (latestTaken (m :: history)) m.after ∧
      ∀ firing ∈ m.firings, ∀ guard,
        firing.OnTime (settings.timeout guard) (latestTaken history guard) guard := by
  cases h with
  | acquire hrun =>
      rw [latestTaken_acquire]
      exact ⟨hguarded.acquire hrun, fun _ hmem => absurd hmem List.not_mem_nil⟩
  | release hrun => exact ⟨hguarded.release hrun, fun _ hmem => absurd hmem List.not_mem_nil⟩
  | advance _ hlapses =>
      obtain ⟨target, -, hpasses⟩ := hlapses
      obtain ⟨hontime, last, hlast, -, -, hafter⟩ :=
        hpasses.keeps (Guarded settings (latestTaken history))
          (fun firing => ∀ guard,
            firing.OnTime (settings.timeout guard) (latestTaken history guard) guard)
          hordered hguarded fun _ hguarded hpop hrun => hguarded.fire hpop hrun
      refine ⟨?_, hontime⟩
      dsimp only at hafter ⊢
      rw [hafter]
      exact ⟨hlast.kept, hlast.tasks, fun guard state hstate =>
        ⟨(hlast.valve guard state hstate).known, (hlast.valve guard state hstate).due,
          (hlast.valve guard state hstate).armed⟩⟩

namespace GuardRun

variable {settings : StationSettings} {spare : Nat} {seed : Option Int} {entropy : Entropy}
  {outside : OutsideStore} {history : List GuardMoment} {s : Station}

/-- Books and readings agree after every call. -/
theorem metered (run : GuardRun (.start settings spare seed entropy outside) history s) :
    s.Metered (readings history) := by
  induction run with
  | start => exact .start settings spare seed entropy outside
  | @step history m _ hmoment ih =>
      cases hmoment with
      | acquire hacquire => exact ih.acquire hacquire
      | release hrelease => exact ih.release hrelease
      | advance _ hlapses =>
          obtain ⟨target, hsum, hpasses⟩ := hlapses
          have htarget := Duration.add?_eq_ok_iff.mp hsum
          exact ih.passes hpasses (htarget ▸ Nat.le_add_right _ _)

/-- Every guard is tied to its timers after every call, whatever the timeouts are. -/
theorem guarded (run : GuardRun (.start settings spare seed entropy outside) history s) :
    Guarded settings (latestTaken history) s := by
  induction run with
  | start => exact (Watched.start settings spare seed entropy outside).guarded
  | step hrun hmoment ih => exact (hmoment.guarded ih hrun.metered.ordered).1

/-- In a run from a station whose timers are in order the clock does not go back, and every reading
is later than the start. -/
theorem forth {start : Station} (run : GuardRun start history s)
    (hordered : start.timeline.Ordered) :
    s.timeline.Ordered ∧ start.now.nanos ≤ s.now.nanos ∧
      ∀ guard, ∀ reading ∈ readings history guard, start.now.nanos ≤ reading.since.nanos := by
  induction run with
  | start => exact ⟨hordered, Nat.le_refl _, fun _ _ hmem => absurd hmem List.not_mem_nil⟩
  | @step history m _ hmoment ih =>
      obtain ⟨hbefore, hpast, hreadings⟩ := ih
      obtain ⟨hafter, hpassed, hread⟩ := hmoment.forth hbefore
      refine ⟨hafter, Nat.le_trans hpast hpassed, fun guard reading hmem => ?_⟩
      rcases List.mem_append.mp hmem with hnew | hold
      · exact Nat.le_trans hpast (hread guard reading hnew)
      · exact hreadings guard reading hold

/-- No less time was held than at any earlier moment of a run. -/
theorem heldTime_mono {later earlier : List GuardMoment} {m : GuardMoment}
    (run : GuardRun (.start settings spare seed entropy outside) (later ++ m :: earlier) s)
    (guard : Guard) :
    heldTime (readings earlier guard) m.before.now.nanos ≤
      heldTime (readings (later ++ m :: earlier) guard) s.now.nanos := by
  obtain ⟨hearlier, hmoment, hlater⟩ := run.split
  obtain ⟨hordered, hpassed, hread⟩ := hmoment.forth hearlier.metered.ordered
  obtain ⟨-, hpassed', hread'⟩ := hlater.forth hordered
  -- What was read since says nothing about the time before.
  have hnewer : ∀ reading ∈ readings later guard ++ m.readings guard,
      m.before.now.nanos ≤ reading.since.nanos := by
    intro reading hmem
    rcases List.mem_append.mp hmem with hnew | hfirst
    · exact Nat.le_trans hpassed (hread' guard reading hnew)
    · exact hread guard reading hfirst
  have hreadings : readings (later ++ m :: earlier) guard =
      (readings later guard ++ m.readings guard) ++ readings earlier guard := by
    simp only [readings, List.flatMap_append, List.flatMap_cons, List.append_assoc]
  calc heldTime (readings earlier guard) m.before.now.nanos
      = heldTime ((readings later guard ++ m.readings guard) ++ readings earlier guard)
          m.before.now.nanos := (heldTime_append hnewer).symm
    _ ≤ heldTime ((readings later guard ++ m.readings guard) ++ readings earlier guard)
          s.now.nanos := ModemLink.heldTime_mono (Nat.le_trans hpassed hpassed')
    _ = heldTime (readings (later ++ m :: earlier) guard) s.now.nanos := by rw [hreadings]

/-- The view of a guard shows the time held. -/
theorem guardView (run : GuardRun (.start settings spare seed entropy outside) history s)
    (guard : Guard) :
    ∃ view, Station.guardView guard s = .ok view s ∧
      view.heldTotal.nanos = heldTime (readings history guard) s.now.nanos := by
  obtain ⟨view, hview, hshown⟩ := (run.metered.tallied guard).view
  rw [← reading_eq_now run.metered.plain] at hview
  exact ⟨view, by simp only [Station.guardView, hview], hshown⟩

/-- **Time held.**  Between two calls, after any mix of calls with any tickets, a guard can be
viewed, and the held time that it shows is exactly the time for which units of the guard were
counted, by the readings of the calls and of the timers that ran out.  It is no longer than the
clock has run, and no shorter than at any earlier time between two calls.  A timer that cleared the
guard is read the timeout after the latest unit was taken, wherever the advance ended in which it
ran out. -/
theorem holds_exactly (run : GuardRun (.start settings spare seed entropy outside) history s)
    (guard : Guard) :
    ∃ view, Station.guardView guard s = .ok view s ∧
      view.heldTotal.nanos = heldTime (readings history guard) s.now.nanos ∧
      view.heldTotal.nanos ≤ s.now.nanos ∧
      ∀ later m earlier, history = later ++ m :: earlier →
        (∃ old, Station.guardView guard m.before = .ok old m.before ∧
          old.heldTotal.nanos ≤ view.heldTotal.nanos) ∧
        ∀ firing ∈ m.firings,
          firing.after.governor.state? guard ≠ firing.before.governor.state? guard →
          ∃ taken, latestTaken earlier guard = some taken ∧
            firing.before.now.nanos = taken.nanos + (settings.timeout guard).nanos := by
  obtain ⟨view, hview, hexact⟩ := run.guardView guard
  refine ⟨view, hview, hexact, hexact ▸ heldTime_le, ?_⟩
  rintro later m earlier rfl
  obtain ⟨hearlier, hmoment, -⟩ := run.split
  obtain ⟨old, hold, hexact'⟩ := hearlier.guardView guard
  refine ⟨⟨old, hold, ?_⟩, fun firing hmem hcleared => ?_⟩
  · rw [hexact, hexact']
    exact run.heldTime_mono guard
  · obtain ⟨-, hontime⟩ := hmoment.guarded hearlier.guarded hearlier.metered.ordered
    obtain ⟨htaken, -⟩ := (hontime firing hmem guard).resolve_left hcleared
    exact htaken

/-- Any ticket may be given back, unless an overflow cuts it off. -/
theorem release {start t : Station} (run : GuardRun start history s) (ticket : Ticket) {good : Bool}
    (hcall : Station.release ticket s = .ok good t) :
    GuardRun start (⟨s, .release ticket, none, [], t⟩ :: history) t :=
  run.step (.release hcall)

end GuardRun

/-- A unit is taken at the start of the clock and another after 1 s.  With a timeout of 2 s the
guard is cleared after 3 s, in an advance to 6 s; then it has been held for 3 s, and the first
ticket is refused. -/
theorem holds_exactly_of_cleared_guard :
    ∃ history s, GuardRun .guarded history s ∧ s.now.nanos = 6000000000 ∧
      heldTime (readings history .request) s.now.nanos = 3000000000 := by
  have started : GuardRun .guarded [] .guarded := .start
  have first := started.acquire .request .phone rfl
  obtain ⟨none, waiting⟩ := first.advance .start (.ofMillis 1000) rfl
  have second := waiting.acquire .request .phone rfl
  obtain ⟨due, cleared⟩ := second.advance .start (.ofMillis 5000) rfl
  have stale := cleared.release ⟨.request, 0, .phone⟩ rfl
  obtain ⟨view, hview, hexact, -⟩ := GuardRun.holds_exactly stale .request
  refine ⟨_, _, stale, rfl, ?_⟩
  have hshown : view.heldTotal = .ofMillis 3000 := by
    injection hview with hview
    rw [← hview]
    rfl
  rw [← hexact, hshown]
  rfl

end ModemLink
