import ModemLink.Proofs.Firings
import ModemLink.Proofs.GuardBooks

/-!
# The timers of a guard

Each unit of a guard starts a timer, and none of these timers is ever taken back.  The timer of the
latest unit is the one that counts: it carries the present sequence number of the guard, and all the
others are stale when they run out.  It is due the timeout after the latest unit was taken, however
often the guard was given back or cleared in between.

* `Governor.state?_release`, `Governor.state?_expire` -- what a ticket and a timer do to the books
  of a guard, as far as its count, its sequence number and its generation are concerned;
* `Station.Valve` -- what ties the books of a guard to its timers;
* `Guarded.acquire`, `Guarded.release`, `Guarded.fire` -- every call, and every timer of an advance,
  keeps that for all guards; a timer that clears a guard is on time.
-/

namespace ModemLink

/-- How long after its latest unit a guard may be held. -/
def StationSettings.timeout (settings : StationSettings) (guard : Guard) : Duration :=
  match guard with
  | .ack => settings.ackTimeout
  | _ => settings.requestTimeout

namespace Governor

/-! ## The books of one guard -/

variable {governor after : Governor} {guard other : Guard} {state : GuardState}
  {calls : List PowerCall} {ticket : Ticket} {source : WorkSource} {now : Duration}
  {sequence : Nat}

/-- Which guards have books does not depend on the governor. -/
theorem exists_state (h : governor.state? guard = some state) (other : Governor) :
    ∃ before, other.state? guard = some before := by
  cases guard with
  | unguarded => cases h
  | request => exact ⟨_, rfl⟩
  | ack => exact ⟨_, rfl⟩

theorem state?_update_self (h : governor.state? guard = some state) (changed : GuardState)
    (calls : List PowerCall) :
    (governor.update guard changed calls).state? guard = some changed := by
  cases guard with
  | unguarded => cases h
  | request => rfl
  | ack => rfl

theorem state?_update_of_ne (hne : other ≠ guard) (changed : GuardState) (calls : List PowerCall) :
    (governor.update other changed calls).state? guard = governor.state? guard := by
  cases other <;> cases guard <;> first | rfl | exact absurd rfl hne

/-- A unit of a guard comes with the present generation and the next sequence number. -/
theorem acquire_of_state (h : governor.state? guard = some state) :
    governor.acquire guard source now =
      (some ⟨⟨guard, state.generation, source⟩, state.sequence + 1⟩,
        governor.update guard (state.acquire guard source now).1
          (state.acquire guard source now).2) := by
  simp [acquire, h, GuardState.acquire]

/-- A ticket of another guard leaves the books alone. -/
theorem state?_release_of_ne {good : Bool} (hne : ticket.guard ≠ guard)
    (hrelease : release ticket now governor = .ok good after) :
    after.state? guard = governor.state? guard := by
  unfold release at hrelease
  dsimp only at hrelease
  split at hrelease
  · cases hrelease
    rfl
  split at hrelease
  · cases hrelease
    rfl
  split at hrelease
  · cases hrelease
    rfl
  split at hrelease
  · split at hrelease <;> cases hrelease
    exact state?_update_of_ne hne _ _
  · cases hrelease
    exact state?_update_of_ne hne _ _

/-- The last unit, as any other, leaves the sequence number and the generation alone. -/
theorem state?_release {good : Bool} (h : governor.state? guard = some state)
    (hrelease : release ticket now governor = .ok good after) :
    ∃ changed, after.state? guard = some changed ∧ changed.count ≤ state.count ∧
      changed.sequence = state.sequence ∧ changed.generation = state.generation := by
  by_cases hguard : ticket.guard = guard
  · subst hguard
    simp only [release, h] at hrelease
    split at hrelease
    · cases hrelease
      exact ⟨state, h, Nat.le_refl _, rfl, rfl⟩
    split at hrelease
    · cases hrelease
      exact ⟨state, h, Nat.le_refl _, rfl, rfl⟩
    split at hrelease
    · split at hrelease
      · rename_i hclose
        cases hrelease
        obtain ⟨heldTotal, rfl, -⟩ := GuardState.close_of_none hclose
        exact ⟨_, state?_update_self h _ _, Nat.sub_le _ _, rfl, rfl⟩
      · cases hrelease
    · cases hrelease
      exact ⟨_, state?_update_self h _ _, Nat.sub_le _ _, rfl, rfl⟩
  · exact ⟨state, (state?_release_of_ne hguard hrelease).trans h, Nat.le_refl _, rfl, rfl⟩

/-- What a clearing does to the books of a guard. -/
structure Clears (state cleared : GuardState) : Prop where
  held : 0 < state.count
  count : cleared.count = 0
  sequence : cleared.sequence = state.sequence
  generation : cleared.generation = state.generation + 1

/-- A timer that runs out clears the guard if it is the timer of the latest unit and the guard is
held.  Otherwise it leaves the books of the guard alone. -/
theorem state?_expire {cleared : Bool} (h : governor.state? guard = some state)
    (hexpire : expire guard sequence now governor = .ok cleared after) :
    (after.state? guard = some state ∧ (sequence = state.sequence → state.count = 0)) ∨
      sequence = state.sequence ∧
        ∃ changed, after.state? guard = some changed ∧ Clears state changed := by
  simp only [expire, h] at hexpire
  split at hexpire
  · rename_i hstale
    cases hexpire
    exact .inl ⟨h, fun heq => absurd heq.symm hstale⟩
  rename_i hlatest
  split at hexpire
  · rename_i hcount
    cases hexpire
    exact .inl ⟨h, fun _ => hcount⟩
  rename_i hcount
  split at hexpire
  · rename_i hclose
    cases hexpire
    obtain ⟨heldTotal, rfl, -⟩ := GuardState.close_of_none hclose
    refine .inr ⟨(not_not.mp hlatest).symm, _, state?_update_self h _ _, ?_⟩
    exact ⟨Nat.pos_of_ne_zero hcount, rfl, rfl, rfl⟩
  · cases hexpire

/-- The timers of another guard leave the books alone. -/
theorem state?_expire_of_ne {cleared : Bool} (hne : other ≠ guard)
    (hexpire : expire other sequence now governor = .ok cleared after) :
    after.state? guard = governor.state? guard := by
  unfold expire at hexpire
  split at hexpire
  · cases hexpire
    rfl
  split at hexpire
  · cases hexpire
    rfl
  split at hexpire
  · cases hexpire
    rfl
  dsimp only at hexpire
  split at hexpire <;> cases hexpire
  exact state?_update_of_ne hne _ _

end Governor

namespace Station

open Clocked

/-! ## The timers of one guard -/

/-- The timers of a guard know no later unit than its books do.  Those of the latest unit are due
the timeout after it was taken; and while units are out, there is one. -/
structure Valve (timeout : Duration) (guard : Guard) (latest : Option Duration)
    (state : GuardState) (timeline : Timeline Task) : Prop where
  known : ∀ timer ∈ timeline.queue, ∀ sequence, timer.task = .expiry guard sequence →
    sequence ≤ state.sequence
  due : ∀ timer ∈ timeline.queue, timer.task = .expiry guard state.sequence →
    ∃ taken, latest = some taken ∧ timer.deadline.nanos = taken.nanos + timeout.nanos
  armed : 0 < state.count → ∃ timer ∈ timeline.queue, timer.task = .expiry guard state.sequence

namespace Valve

variable {timeout delay target : Duration} {guard : Guard} {latest : Option Duration}
  {state changed : GuardState} {timeline after : Timeline Task} {task : Task}

theorem fresh : Valve timeout guard none .fresh (.start : Timeline Task) :=
  ⟨fun _ hmem => absurd hmem List.not_mem_nil, fun _ hmem => absurd hmem List.not_mem_nil,
    fun hpos => absurd hpos (Nat.lt_irrefl 0)⟩

/-- A unit that is taken is the latest one, and its timer is there. -/
theorem acquire (h : Valve timeout guard latest state timeline) {source : WorkSource}
    {reading : Duration}
    (hschedule : timeline.schedule timeout (.expiry guard (state.sequence + 1)) = .ok after) :
    Valve timeout guard (some timeline.now) (state.acquire guard source reading).1 after := by
  obtain ⟨deadline, hdeadline, rfl⟩ := Timeline.schedule_eq_ok hschedule
  have hnew : ∀ timer ∈ Timeline.enqueue
      ⟨deadline, timeline.nextOrder, .expiry guard (state.sequence + 1)⟩ timeline.queue,
      timer = ⟨deadline, timeline.nextOrder, .expiry guard (state.sequence + 1)⟩ ∨
        timer ∈ timeline.queue := fun timer hmem =>
    List.mem_cons.mp ((Timeline.perm_enqueue _ _).mem_iff.mp hmem)
  refine ⟨fun timer hmem sequence htask => ?_, fun timer hmem htask => ?_, fun _ => ?_⟩
  · change sequence ≤ state.sequence + 1
    rcases hnew timer hmem with rfl | hold
    · injection htask with _ hsequence
      omega
    · exact Nat.le_succ_of_le (h.known timer hold sequence htask)
  · change timer.task = .expiry guard (state.sequence + 1) at htask
    rcases hnew timer hmem with rfl | hold
    · exact ⟨timeline.now, rfl, hdeadline⟩
    · have hle := h.known timer hold _ htask
      omega
  · exact ⟨_, (Timeline.perm_enqueue _ _).mem_iff.mpr (List.mem_cons_self ..), rfl⟩

/-- A timer that is put beside those of the guard is none of its business. -/
theorem schedule_of_ne (h : Valve timeout guard latest state timeline)
    (hne : ∀ sequence, task ≠ .expiry guard sequence)
    (hschedule : timeline.schedule delay task = .ok after) :
    Valve timeout guard latest state after := by
  obtain ⟨deadline, -, rfl⟩ := Timeline.schedule_eq_ok hschedule
  have hold : ∀ timer ∈ Timeline.enqueue ⟨deadline, timeline.nextOrder, task⟩ timeline.queue,
      ∀ sequence, timer.task = .expiry guard sequence → timer ∈ timeline.queue := by
    intro timer hmem sequence htask
    rcases List.mem_cons.mp ((Timeline.perm_enqueue _ _).mem_iff.mp hmem) with rfl | hmem
    · exact absurd htask (hne sequence)
    · exact hmem
  refine ⟨fun timer hmem sequence htask => ?_, fun timer hmem htask => ?_, fun hpos => ?_⟩
  · exact h.known timer (hold timer hmem sequence htask) sequence htask
  · exact h.due timer (hold timer hmem _ htask) htask
  · obtain ⟨timer, hmem, htask⟩ := h.armed hpos
    exact ⟨timer, (Timeline.perm_enqueue _ _).mem_iff.mpr (List.mem_cons_of_mem _ hmem), htask⟩

/-- Units that are given back leave the timers alone. -/
theorem of_count_le (h : Valve timeout guard latest state timeline)
    (hcount : changed.count ≤ state.count) (hsequence : changed.sequence = state.sequence) :
    Valve timeout guard latest changed timeline := by
  refine ⟨?_, ?_, fun hpos => ?_⟩
  · rw [hsequence]
    exact h.known
  · rw [hsequence]
    exact h.due
  · rw [hsequence]
    exact h.armed (Nat.lt_of_lt_of_le hpos hcount)

/-- A timer that is taken off is missed only if it is the one that counts. -/
theorem popDue (h : Valve timeout guard latest state timeline)
    (hcount : changed.count ≤ state.count) (hsequence : changed.sequence = state.sequence)
    (hmissed : task = .expiry guard state.sequence → changed.count = 0)
    (hpop : timeline.popDue? target = some (task, after)) :
    Valve timeout guard latest changed after := by
  obtain ⟨first, rest, hqueue, rfl, -, rfl⟩ := Timeline.popDue?_eq_some hpop
  have hrest : ∀ timer ∈ rest, timer ∈ timeline.queue := by
    intro timer hmem
    rw [hqueue]
    exact List.mem_cons_of_mem _ hmem
  refine ⟨fun timer hmem => ?_, fun timer hmem => ?_, fun hpos => ?_⟩
  · rw [hsequence]
    exact h.known timer (hrest timer hmem)
  · rw [hsequence]
    exact h.due timer (hrest timer hmem)
  · obtain ⟨timer, hmem, htask⟩ := h.armed (Nat.lt_of_lt_of_le hpos hcount)
    rw [hqueue] at hmem
    rcases List.mem_cons.mp hmem with rfl | hmem
    · have hnone := hmissed htask
      omega
    · exact ⟨timer, hmem, by rw [hsequence]; exact htask⟩

end Valve

/-! ## Every guard of a station -/

variable {settings : StationSettings} {latest : Guard → Option Duration} {s t : Station}

/-- The timers of a station are timers of units, and each guard is tied to its own. -/
structure Guarded (settings : StationSettings) (latest : Guard → Option Duration) (s : Station) :
    Prop where
  kept : s.settings = settings
  tasks : ∀ timer ∈ s.timeline.queue, ∃ guard sequence, timer.task = .expiry guard sequence
  valve : ∀ guard state, s.governor.state? guard = some state →
    Valve (settings.timeout guard) guard (latest guard) state s.timeline

/-- What taking a unit does to a station. -/
theorem acquire_eq_ok {guard : Guard} {source : WorkSource} {ticket : Option Ticket}
    (h : acquire guard source s = .ok ticket t) :
    (s.governor.state? guard = none ∧ ticket = none ∧ t = s) ∨
      ∃ state timeline, s.governor.state? guard = some state ∧
        ticket = some ⟨guard, state.generation, source⟩ ∧
        s.timeline.schedule (s.settings.timeout guard) (.expiry guard (state.sequence + 1)) =
          .ok timeline ∧
        t = { s with
          governor := s.governor.update guard (state.acquire guard source s.reading).1
            (state.acquire guard source s.reading).2
          timeline } := by
  cases hstate : s.governor.state? guard with
  | none =>
      simp only [acquire, Governor.acquire, hstate] at h
      cases h
      exact .inl ⟨rfl, rfl, rfl⟩
  | some state =>
      simp only [acquire, Governor.acquire_of_state hstate] at h
      split at h
      · rename_i hrun
        cases h
        have hrun' : schedule (s.settings.timeout guard) (.expiry guard (state.sequence + 1)) _ =
          .ok () t := hrun
        unfold schedule at hrun'
        split at hrun'
        · rename_i timeline hschedule
          cases hrun'
          exact .inr ⟨state, timeline, rfl, rfl, hschedule, rfl⟩
        · cases hrun'
      · cases h

namespace Guarded

variable {guard : Guard} {source : WorkSource} {ticket : Ticket} {issued : Option Ticket}
  {target : Duration} {task : Task} {timeline : Timeline Task} {epoch : Epoch}
  {delivery : Option Delivery}

/-- A guard that is taken has a new latest unit; the others keep theirs. -/
theorem acquire (h : Guarded settings latest s)
    (hrun : Station.acquire guard source s = .ok issued t) :
    Guarded settings (fun other => if other = guard then some s.now else latest other) t := by
  rcases acquire_eq_ok hrun with ⟨hnone, -, rfl⟩ | ⟨state, timeline, hstate, -, hschedule, rfl⟩
  · refine ⟨h.kept, h.tasks, fun other state hstate => ?_⟩
    have hne : other ≠ guard := by
      rintro rfl
      rw [hnone] at hstate
      cases hstate
    rw [if_neg hne]
    exact h.valve other state hstate
  rw [h.kept] at hschedule
  refine ⟨h.kept, ?_, fun other changed hchanged => ?_⟩
  · obtain ⟨deadline, -, rfl⟩ := Timeline.schedule_eq_ok hschedule
    intro timer hmem
    rcases List.mem_cons.mp ((Timeline.perm_enqueue _ _).mem_iff.mp hmem) with rfl | hold
    · exact ⟨_, _, rfl⟩
    · exact h.tasks timer hold
  · change (s.governor.update guard _ _).state? other = some changed at hchanged
    by_cases hother : other = guard
    · subst hother
      rw [Governor.state?_update_self hstate] at hchanged
      cases hchanged
      rw [if_pos rfl]
      exact (h.valve other state hstate).acquire hschedule
    · rw [Governor.state?_update_of_ne (Ne.symm hother)] at hchanged
      rw [if_neg hother]
      refine (h.valve other changed hchanged).schedule_of_ne (fun sequence heq => ?_) hschedule
      injection heq with hsame
      exact hother hsame.symm

/-- A ticket that is given back touches no timer. -/
theorem release {good : Bool} (h : Guarded settings latest s)
    (hrun : Station.release ticket s = .ok good t) : Guarded settings latest t := by
  have hreleased : wp (Station.release ticket) (fun _ t => Guarded settings latest t)
      (fun _ => True) s := by
    refine wp_release (fun good governor hrelease => ?_) fun _ => trivial
    refine ⟨h.kept, h.tasks, fun guard changed hchanged => ?_⟩
    obtain ⟨state, hstate⟩ := Governor.exists_state hchanged s.governor
    obtain ⟨after, hafter, hcount, hsequence, -⟩ := Governor.state?_release hstate hrelease
    change governor.state? guard = some changed at hchanged
    rw [hafter] at hchanged
    cases hchanged
    exact (h.valve guard state hstate).of_count_le hcount hsequence
  exact (wp_of_ok hrun).mp hreleased

/-- When the timer of a unit runs out each guard keeps its books, or they are cleared, the timeout
after its latest unit was taken.  In either case it stays tied to its timers. -/
theorem expire {own : Guard} {sequence : Nat} {cleared : Bool} {governor : Governor}
    {reading : Duration} (h : Guarded settings latest s)
    (hpop : s.timeline.popDue? target = some (.expiry own sequence, timeline))
    (hexpire : Governor.expire own sequence reading s.governor = .ok cleared governor)
    {state : GuardState} (hstate : s.governor.state? guard = some state) :
    ∃ changed, governor.state? guard = some changed ∧
      Valve (settings.timeout guard) guard (latest guard) changed timeline ∧
      (changed = state ∨ (∃ taken, latest guard = some taken ∧
        timeline.now.nanos = taken.nanos + (settings.timeout guard).nanos) ∧
        Governor.Clears state changed) := by
  have hvalve := h.valve guard state hstate
  by_cases hguard : own = guard
  · subst hguard
    rcases Governor.state?_expire hstate hexpire with
      ⟨hsame, hidle⟩ | ⟨rfl, changed, hafter, hclears⟩
    · refine ⟨state, hsame, ?_, .inl rfl⟩
      refine hvalve.popDue (Nat.le_refl _) rfl (fun hlatest => ?_) hpop
      injection hlatest with _ hsequence
      exact hidle hsequence
    · obtain ⟨first, rest, hqueue, hfirst, -, htimeline⟩ := Timeline.popDue?_eq_some hpop
      have hmem : first ∈ s.timeline.queue := by
        rw [hqueue]
        exact List.mem_cons_self ..
      have hnow : first.deadline = timeline.now := by rw [htimeline]
      obtain ⟨taken, htaken, hdue⟩ := hvalve.due first hmem hfirst
      rw [hnow] at hdue
      have hle : changed.count ≤ state.count := by
        rw [hclears.count]
        exact Nat.zero_le _
      exact ⟨changed, hafter, hvalve.popDue hle hclears.sequence (fun _ => hclears.count) hpop,
        .inr ⟨⟨taken, htaken, hdue⟩, hclears⟩⟩
  · refine ⟨state, (Governor.state?_expire_of_ne hguard hexpire).trans hstate, ?_, .inl rfl⟩
    refine hvalve.popDue (Nat.le_refl _) rfl (fun hlatest => ?_) hpop
    injection hlatest with hown
    exact absurd hown hguard

end Guarded

/-- The books of a guard after a task, against those before: the same, or cleared the timeout after
the latest unit was taken. -/
def Firing.OnTime (timeout : Duration) (latest : Option Duration) (guard : Guard)
    (firing : Firing) : Prop :=
  firing.after.governor.state? guard = firing.before.governor.state? guard ∨
    (∃ taken, latest = some taken ∧
      firing.before.now.nanos = taken.nanos + timeout.nanos) ∧
    ∃ state cleared, firing.before.governor.state? guard = some state ∧
      firing.after.governor.state? guard = some cleared ∧ Governor.Clears state cleared

/-- A timer that runs out leaves the books of every guard as they are, or clears one on time. -/
theorem Guarded.fire {target : Duration} {task : Task} {timeline : Timeline Task} {epoch : Epoch}
    {delivery : Option Delivery} (h : Guarded settings latest s)
    (hpop : s.timeline.popDue? target = some (task, timeline))
    (hrun : runTask epoch task { s with timeline } = .ok delivery t) :
    (∀ guard, Firing.OnTime (settings.timeout guard) (latest guard) guard
      ⟨task, { s with timeline }, t⟩) ∧ Guarded settings latest t := by
  obtain ⟨first, rest, hqueue, hfirst, -, htimeline⟩ := Timeline.popDue?_eq_some hpop
  have hqueued : ∀ timer, timer = first ∨ timer ∈ timeline.queue → timer ∈ s.timeline.queue := by
    intro timer htimer
    rw [htimeline] at htimer
    rw [hqueue]
    exact List.mem_cons.mpr htimer
  obtain ⟨own, sequence, htask⟩ := h.tasks first (hqueued first (.inl rfl))
  rw [hfirst] at htask
  subst htask
  have hexpired : wp (runTask epoch (.expiry own sequence))
      (fun _ t => ∃ cleared governor recorder,
        Governor.expire own sequence (s.clock timeline.now) s.governor = .ok cleared governor ∧
          t = { s with timeline, governor, recorder }) (fun _ => True) { s with timeline } := by
    simp only [runTask, wp_bind]
    exact wp_expire (fun cleared governor recorder hexpire _ =>
      ⟨cleared, governor, recorder, hexpire, rfl⟩) fun _ _ => trivial
  obtain ⟨cleared, governor, recorder, hexpire, rfl⟩ := (wp_of_ok hrun).mp hexpired
  refine ⟨fun guard => ?_, h.kept, fun timer htimer => h.tasks timer (hqueued timer (.inr htimer)),
    fun guard changed hchanged => ?_⟩
  · cases hstate : s.governor.state? guard with
    | none =>
        cases guard with
        | unguarded => exact .inl rfl
        | request => cases hstate
        | ack => cases hstate
    | some state =>
        obtain ⟨changed, hchanged, -, rfl | ⟨htaken, hclears⟩⟩ := h.expire hpop hexpire hstate
        · exact .inl (hchanged.trans hstate.symm)
        · exact .inr ⟨htaken, state, changed, hstate, hchanged, hclears⟩
  · obtain ⟨state, hstate⟩ := Governor.exists_state hchanged s.governor
    obtain ⟨after, hafter, hvalve, -⟩ := h.expire hpop hexpire hstate
    change governor.state? guard = some changed at hchanged
    rw [hafter] at hchanged
    cases hchanged
    exact hvalve

end Station

end ModemLink
