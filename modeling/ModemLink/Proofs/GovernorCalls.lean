import ModemLink.Proofs.OutstandingUnits

/-!
# Calls to the governor with any ticket

Whoever calls the governor may give back what it likes: a ticket that was never issued, one that was
given back before, or one that a clearing has made worthless.  The books hold against all of that.
A guard never counts more units than its sources stand for, and while it counts none it stands for
nobody.  If only issued tickets are given back, and none more often than it was issued, the books
are exact.

The clock is never read earlier than before, so a guard is held no longer than the clock has run,
and the length of time that it was held cannot leave the range.

* `GuardState.Change` -- all that a call may do to the books of the guard it is about;
* `GuardState.Sound.change`, `GuardState.HeldWithin.change` -- what every change keeps;
* `Station.Steady.moment`, `Station.Steady.fair` -- what every call keeps, and how it treats
  tickets;
* `GovernorRun.accounted` -- what the books say after any calls, and after honest ones;
* `count_without_ticket` -- a call that is cut off leaves a unit that nobody has the ticket of.
-/

namespace ModemLink

namespace GuardState

variable {state changed : GuardState} {guard : Guard} {now : Duration} {calls : List PowerCall}

/-! ## Time -/

/-- A guard was held no longer than the clock has run. -/
structure HeldWithin (state : GuardState) (now : Duration) : Prop where
  past : ∀ since, state.heldSince = some since → since ≤ now
  total : state.heldTotal.nanos ≤ (state.heldSince.getD now).nanos

theorem HeldWithin.later {later : Duration} (h : state.HeldWithin now) (hle : now ≤ later) :
    state.HeldWithin later := by
  refine ⟨fun since hsince => Nat.le_trans (h.past since hsince) hle, ?_⟩
  have htotal := h.total
  cases hsince : state.heldSince with
  | none =>
      rw [hsince] at htotal
      exact Nat.le_trans htotal hle
  | some since =>
      rw [hsince] at htotal
      exact htotal

/-- So the time that a guard was held is in range. -/
theorem HeldWithin.heldUpTo (h : state.HeldWithin now) :
    ∃ total, state.heldUpTo now = .ok total ∧ total.nanos ≤ now.nanos := by
  have htotal := h.total
  cases hsince : state.heldSince with
  | none =>
      rw [hsince] at htotal
      exact ⟨state.heldTotal, by simp only [GuardState.heldUpTo, hsince], htotal⟩
  | some since =>
      rw [hsince] at htotal
      have hpast : since.nanos ≤ now.nanos := h.past since hsince
      change state.heldTotal.nanos ≤ since.nanos at htotal
      have hsum : state.heldTotal.nanos + (now.elapsed since).nanos ≤ now.nanos := by
        rw [Duration.nanos_elapsed]
        omega
      refine ⟨⟨_, Nat.le_trans hsum now.nanos_le⟩, ?_, hsum⟩
      simp only [GuardState.heldUpTo, hsince]
      exact Duration.add?_eq_ok_iff.mpr rfl

/-- The end of a stretch of holding is not cut off. -/
theorem HeldWithin.close (h : state.HeldWithin now) (guard : Guard) :
    ∃ heldTotal, heldTotal.nanos ≤ now.nanos ∧
      state.close guard now =
        ({ state with attributed := [], heldSince := none, heldTotal },
          [.attribute guard [], .release guard], none) := by
  obtain ⟨total, htotal, hle⟩ := h.heldUpTo
  exact ⟨total, hle, by simp only [GuardState.close, htotal]⟩

/-! ## Changes of the books -/

/-- All that a call may do to the books of the guard it is about, with the calls that it makes to
the power manager. -/
inductive Change (guard : Guard) (now : Duration) (state : GuardState) :
    GuardState → List PowerCall → Prop
  | kept : Change guard now state state []
  | taken (source : WorkSource) :
      Change guard now state (state.acquire guard source now).1 (state.acquire guard source now).2
  | dropped (source : WorkSource) (more : 1 < state.count) :
      Change guard now state
        { state with count := state.count - 1, attributed := dropUnit source state.attributed }
        (if state.unitsOf source = 1 then
          [.attribute guard ((dropUnit source state.attributed).map (·.1))] else [])
  | closed {changed : GuardState} (held : 0 < state.count) (count : changed.count = 0)
      (attributed : changed.attributed = []) (since : changed.heldSince = none)
      (total : changed.heldTotal.nanos ≤ now.nanos) :
      Change guard now state changed [.attribute guard [], .release guard]

/-- What the books of a guard say whatever tickets are given back: every source has a unit at least,
the units of the sources are no fewer than the guard counts, and while it counts none there are no
sources. -/
structure Sound (state : GuardState) : Prop where
  rows : Rows state.attributed
  covered : state.count ≤ (charges state.attributed).card
  idle : state.count = 0 → state.attributed = []

theorem sound_fresh : fresh.Sound := ⟨rows_nil, Nat.le_refl _, fun _ => rfl⟩

/-- To take a unit off the rows takes off one unit at most. -/
theorem card_charges_dropUnit (h : Rows state.attributed) (source : WorkSource) :
    (charges state.attributed).card ≤ (charges (dropUnit source state.attributed)).card + 1 := by
  rw [charges_dropUnit h.positive, ← Multiset.card_cons source]
  exact Multiset.card_le_card (Multiset.le_cons_erase _ _)

/-- A guard that counts units stands for somebody. -/
theorem Sound.attributed_ne_nil (h : state.Sound) (hpos : 0 < state.count) :
    state.attributed ≠ [] := by
  intro hnone
  have hcovered := h.covered
  rw [hnone] at hcovered
  simp at hcovered
  omega

/-- Every change keeps the books sound. -/
theorem Sound.change (h : state.Sound) (hchange : Change guard now state changed calls) :
    changed.Sound := by
  cases hchange with
  | kept => exact h
  | taken source =>
      refine ⟨h.rows.addUnit source, ?_, fun hnone => ?_⟩
      · change state.count + 1 ≤ (charges (addUnit source state.attributed)).card
        rw [charges_addUnit, Multiset.card_cons]
        exact Nat.succ_le_succ h.covered
      · cases hnone
  | dropped source more =>
      refine ⟨h.rows.dropUnit source, ?_, fun hnone => ?_⟩
      · have hcovered := h.covered
        have hcard := card_charges_dropUnit h.rows source
        change state.count - 1 ≤ (charges (dropUnit source state.attributed)).card
        omega
      · change state.count - 1 = 0 at hnone
        omega
  | closed held count attributed since total =>
      refine ⟨?_, ?_, fun _ => attributed⟩
      · rw [attributed]
        exact rows_nil
      · rw [count]
        exact Nat.zero_le _

/-- Every change keeps within the time that has passed. -/
theorem HeldWithin.change (h : state.HeldWithin now)
    (hchange : Change guard now state changed calls) : changed.HeldWithin now := by
  cases hchange with
  | kept => exact h
  | taken source =>
      by_cases hfirst : state.count = 0
      · have hsince : (state.acquire guard source now).1.heldSince = some now := if_pos hfirst
        refine ⟨fun since hsome => ?_, ?_⟩
        · rw [hsince] at hsome
          cases hsome
          exact Nat.le_refl _
        · rw [hsince]
          change state.heldTotal.nanos ≤ now.nanos
          have htotal := h.total
          cases hold : state.heldSince with
          | none =>
              rw [hold] at htotal
              exact htotal
          | some since =>
              rw [hold] at htotal
              exact Nat.le_trans htotal (h.past since hold)
      · have hsince : (state.acquire guard source now).1.heldSince = state.heldSince :=
          if_neg hfirst
        refine ⟨?_, ?_⟩ <;> rw [hsince]
        · exact h.past
        · exact h.total
  | dropped source more => exact ⟨h.past, h.total⟩
  | closed held count attributed since total =>
      refine ⟨fun other hother => ?_, ?_⟩
      · rw [since] at hother
        cases hother
      · rw [since]
        exact total

/-- A unit goes off the books: one of the guard, and one of its source, if that had any.  The last
one takes all sources with it. -/
structure GivenBack (source : WorkSource) (state changed : GuardState) : Prop where
  count : changed.count + 1 = state.count
  charged : 0 < changed.count →
    charges changed.attributed = (charges state.attributed).erase source

end GuardState

namespace Governor

variable {governor after : Governor} {guard other : Guard} {now : Duration}

/-- The books of one guard have changed, and the others are as they were. -/
def Changed (guard : Guard) (now : Duration) (governor after : Governor) : Prop :=
  after = governor ∨ ∃ state changed calls, governor.state? guard = some state ∧
    GuardState.Change guard now state changed calls ∧ after = governor.update guard changed calls

theorem Changed.of_ne (h : governor.Changed guard now after) (hne : guard ≠ other) :
    after.state? other = governor.state? other := by
  rcases h with rfl | ⟨state, changed, calls, -, -, rfl⟩
  · rfl
  · exact state?_update_of_ne hne _ _

/-- What every change keeps is kept by the books of every guard. -/
theorem Changed.keeps {p : GuardState → Prop} (h : governor.Changed guard now after)
    (hall : ∀ other state, governor.state? other = some state → p state)
    (hkeeps : ∀ state changed calls, p state → GuardState.Change guard now state changed calls →
      p changed) :
    ∀ other state, after.state? other = some state → p state := by
  rcases h with rfl | ⟨state, changed, calls, hstate, hchange, rfl⟩
  · exact hall
  · intro other found hfound
    by_cases hother : guard = other
    · subst hother
      rw [state?_update_self hstate] at hfound
      cases hfound
      exact hkeeps state changed calls (hall guard state hstate) hchange
    · rw [state?_update_of_ne hother] at hfound
      exact hall other found hfound

theorem changed_acquire (governor : Governor) (guard : Guard) (source : WorkSource)
    (now : Duration) : governor.Changed guard now (governor.acquire guard source now).2 := by
  cases hstate : governor.state? guard with
  | none =>
      refine .inl ?_
      simp only [acquire, hstate]
  | some state =>
      refine .inr ⟨state, _, _, hstate, .taken source, ?_⟩
      rw [acquire_of_state hstate]

/-- What giving a ticket back comes to: it is refused, or it takes a unit off the books. -/
inductive Released (governor : Governor) (ticket : Ticket) : Bool → Governor → Prop
  | refused : Released governor ticket false governor
  | taken {state changed : GuardState} {calls : List PowerCall} {now : Duration}
      (before : governor.state? ticket.guard = some state)
      (change : GuardState.Change ticket.guard now state changed calls)
      (given : GuardState.GivenBack ticket.source state changed) :
      Released governor ticket true (governor.update ticket.guard changed calls)

/-- While a guard was held no longer than the clock has run, every ticket gets an answer. -/
theorem release_answers {ticket : Ticket}
    (hrows : ∀ state, governor.state? ticket.guard = some state → state.Sound)
    (hheld : ∀ state, governor.state? ticket.guard = some state → state.HeldWithin now) :
    ∃ good after, release ticket now governor = .ok good after ∧
      governor.Changed ticket.guard now after ∧ governor.Released ticket good after := by
  cases hstate : governor.state? ticket.guard with
  | none => exact ⟨false, governor, by simp only [release, hstate], .inl rfl, .refused⟩
  | some state =>
      simp only [release, hstate]
      split
      · exact ⟨false, governor, rfl, .inl rfl, .refused⟩
      split
      · exact ⟨false, governor, rfl, .inl rfl, .refused⟩
      rename_i hcount
      split
      · rename_i hlast
        have hheld' : GuardState.HeldWithin
            { state with
              count := state.count - 1
              attributed := GuardState.dropUnit ticket.source state.attributed } now :=
          ⟨(hheld state hstate).past, (hheld state hstate).total⟩
        obtain ⟨heldTotal, hle, hclose⟩ := hheld'.close ticket.guard
        rw [hclose]
        have hchange : GuardState.Change ticket.guard now state
            { state with count := state.count - 1, attributed := [], heldSince := none, heldTotal }
            [.attribute ticket.guard [], .release ticket.guard] :=
          .closed (Nat.pos_of_ne_zero hcount) hlast rfl rfl hle
        refine ⟨true, _, rfl, .inr ⟨state, _, _, hstate, hchange, rfl⟩,
          .taken hstate hchange ⟨?_, fun hpos => ?_⟩⟩
        · change state.count - 1 + 1 = state.count
          omega
        · exact absurd hlast (Nat.ne_of_gt hpos)
      · rename_i hmore
        have hcount' : 1 < state.count := by
          change ¬ state.count - 1 = 0 at hmore
          omega
        have hchange : GuardState.Change ticket.guard now state _ _ :=
            .dropped ticket.source hcount'
        refine ⟨true, _, rfl, .inr ⟨state, _, _, hstate, hchange, rfl⟩,
          .taken hstate hchange ⟨?_, fun _ => ?_⟩⟩
        · change state.count - 1 + 1 = state.count
          omega
        · exact GuardState.charges_dropUnit (hrows state hstate).rows.positive ticket.source

/-- While a guard was held no longer than the clock has run, every timer of it runs out. -/
theorem expire_answers (sequence : Nat)
    (hheld : ∀ state, governor.state? guard = some state → state.HeldWithin now) :
    ∃ cleared after, expire guard sequence now governor = .ok cleared after ∧
      governor.Changed guard now after := by
  cases hstate : governor.state? guard with
  | none => exact ⟨false, governor, by simp only [expire, hstate], .inl rfl⟩
  | some state =>
      simp only [expire, hstate]
      split
      · exact ⟨false, governor, rfl, .inl rfl⟩
      split
      · exact ⟨false, governor, rfl, .inl rfl⟩
      rename_i hcount
      have hheld' : GuardState.HeldWithin
          { state with
            count := 0
            generation := state.generation + 1
            expirations := state.expirations + 1 } now :=
        ⟨(hheld state hstate).past, (hheld state hstate).total⟩
      obtain ⟨heldTotal, hle, hclose⟩ := hheld'.close guard
      rw [hclose]
      exact ⟨true, _, rfl, .inr ⟨state, _, _, hstate,
        .closed (Nat.pos_of_ne_zero hcount) rfl rfl rfl hle, rfl⟩⟩

end Governor

/-! ## Calls -/

/-- A call to the governor of a station. -/
inductive GovernorCall where
  | acquire (guard : Guard) (source : WorkSource)
  | release (ticket : Ticket)
  | expire (guard : Guard) (sequence : Nat)

/-- What a call to the governor is answered with. -/
inductive GovernorAnswer where
  | issued (ticket : Option Ticket)
  | released (good : Bool)
  | expired

/-- A call that was made: the station before and after it, and the answer, if no overflow cut the
call off. -/
structure GovernorMoment where
  before : Station
  call : GovernorCall
  answer : Option GovernorAnswer
  after : Station

namespace GovernorCall

/-- The guard that a call is about. -/
def guard : GovernorCall → Guard
  | .acquire guard _ => guard
  | .release ticket => ticket.guard
  | .expire guard _ => guard

/-- What a call does. -/
def act : GovernorCall → Clocked Station GovernorAnswer
  | .acquire guard source => do return .issued (← Station.acquire guard source)
  | .release ticket => do return .released (← Station.release ticket)
  | .expire guard sequence => do
    Station.expire guard sequence
    return .expired

/-- A call made at a station. -/
def moment (call : GovernorCall) (s : Station) : GovernorMoment :=
  match call.act s with
  | .ok answer after => ⟨s, call, some answer, after⟩
  | .error _ after => ⟨s, call, none, after⟩

@[simp] theorem before_moment (call : GovernorCall) (s : Station) :
    (call.moment s).before = s := by
  unfold moment
  split <;> rfl

@[simp] theorem call_moment (call : GovernorCall) (s : Station) : (call.moment s).call = call := by
  unfold moment
  split <;> rfl

/-- A call is answered or cut off. -/
theorem moment_of_wp {call : GovernorCall} {s : Station} {post : GovernorAnswer → Station → Prop}
    {cut : Station → Prop} (h : Clocked.wp call.act post cut s) :
    (∃ answer, (call.moment s).answer = some answer ∧ post answer (call.moment s).after) ∨
      (call.moment s).answer = none ∧ cut (call.moment s).after := by
  unfold moment
  cases hrun : call.act s with
  | ok answer after => exact .inl ⟨answer, rfl, (Clocked.wp_of_ok hrun).mp h⟩
  | error overflow after => exact .inr ⟨rfl, (Clocked.wp_of_error hrun).mp h⟩

end GovernorCall

namespace GovernorMoment

/-- What may be said of a call by itself.  It leaves the other guard alone; and a ticket is
answered: it is refused and changes nothing, or it takes a unit off the books of its guard. -/
structure Fair (m : GovernorMoment) : Prop where
  others : ∀ guard, m.call.guard ≠ guard →
    m.after.governor.state? guard = m.before.governor.state? guard
  released : ∀ ticket, m.call = .release ticket →
    ∃ good, m.answer = some (.released good) ∧
      (good = false → m.after.governor = m.before.governor) ∧
      (good = true → ∃ state changed, m.before.governor.state? ticket.guard = some state ∧
        m.after.governor.state? ticket.guard = some changed ∧
        GuardState.GivenBack ticket.source state changed)

end GovernorMoment

namespace Station

open Clocked

/-- The books of all guards are sound, and none was held longer than the clock has run. -/
structure Steady (s : Station) : Prop where
  sound : ∀ guard state, s.governor.state? guard = some state → state.Sound
  held : ∀ guard state, s.governor.state? guard = some state → state.HeldWithin s.reading
  plain : s.clock = id

/-- The clock of two stations is the same, and so is the time. -/
structure SameTime (s t : Station) : Prop where
  now : t.now = s.now
  clock : t.clock = s.clock

variable {s : Station}

theorem SameTime.reading {t : Station} (h : s.SameTime t) : t.reading = s.reading := by
  rw [Station.reading, Station.reading, h.now, h.clock]

theorem steady_start (settings : StationSettings) (spare : Nat) (seed : Option Int)
    (entropy : Entropy) (outside : OutsideStore) :
    (Station.start settings spare seed entropy outside).Steady := by
  have hfresh : ∀ guard state,
      (Station.start settings spare seed entropy outside).governor.state? guard = some state →
        state = .fresh := by
    intro guard state hstate
    cases guard <;> cases hstate <;> rfl
  refine ⟨fun guard state hstate => ?_, fun guard state hstate => ?_, rfl⟩
  · rw [hfresh guard state hstate]
    exact GuardState.sound_fresh
  · rw [hfresh guard state hstate]
    exact ⟨fun since hsince => (by cases hsince), Nat.zero_le _⟩

/-- The clock goes on, and timers come and go. -/
theorem Steady.later (h : s.Steady) {timeline : Timeline Task} (hle : s.now ≤ timeline.now) :
    Steady { s with timeline } := by
  have hreading : Station.reading { s with timeline } = timeline.now := reading_eq_now h.plain
  refine ⟨h.sound, fun guard state hstate => ?_, h.plain⟩
  rw [hreading]
  exact (reading_eq_now h.plain ▸ h.held guard state hstate).later hle

/-- A change of the books of one guard keeps a station steady. -/
theorem Steady.changed {guard : Guard} {after : Station} (h : s.Steady)
    (hchanged : s.governor.Changed guard s.reading after.governor) (hsame : s.SameTime after) :
    after.Steady := by
  refine ⟨hchanged.keeps h.sound fun _ _ _ hsound => hsound.change, ?_,
    hsame.clock.trans h.plain⟩
  rw [hsame.reading]
  exact hchanged.keeps h.held fun _ _ _ hheld => hheld.change

/-- Whether or not the timer of a unit finds a place, the unit is taken. -/
theorem wp_acquire_governor (guard : Guard) (source : WorkSource) (s : Station) :
    wp (acquire guard source)
      (fun issued t => issued = (s.governor.acquire guard source s.reading).1.map (·.ticket) ∧
        t.governor = (s.governor.acquire guard source s.reading).2 ∧ s.SameTime t)
      (fun t => t.governor = (s.governor.acquire guard source s.reading).2 ∧ s.SameTime t) s := by
  refine wp_intro (fun issued t hrun => ?_) fun overflow t hrun => ?_
  · rcases acquire_eq_ok hrun with ⟨hnone, rfl, rfl⟩ | ⟨state, timeline, hstate, rfl, hschedule,
      rfl⟩
    · have hnothing : t.governor.acquire guard source t.reading = (none, t.governor) := by
        simp only [Governor.acquire, hnone]
      rw [hnothing]
      exact ⟨rfl, rfl, rfl, rfl⟩
    · obtain ⟨deadline, -, rfl⟩ := Timeline.schedule_eq_ok hschedule
      rw [Governor.acquire_of_state hstate]
      exact ⟨rfl, rfl, rfl, rfl⟩
  · cases hacquire : s.governor.acquire guard source s.reading with
    | mk grant governor =>
        cases grant with
        | none =>
            simp only [acquire, hacquire] at hrun
            cases hrun
        | some grant =>
            simp only [acquire, hacquire] at hrun
            split at hrun <;> rename_i hscheduled <;> cases hrun
            unfold schedule at hscheduled
            split at hscheduled <;> cases hscheduled
            exact ⟨rfl, rfl, rfl⟩

/-- A unit is taken, whether or not the call is cut off. -/
theorem moment_acquire (guard : Guard) (source : WorkSource) (s : Station) :
    ((GovernorCall.acquire guard source).moment s).after.governor =
        (s.governor.acquire guard source s.reading).2 ∧
      s.SameTime ((GovernorCall.acquire guard source).moment s).after ∧
      (((GovernorCall.acquire guard source).moment s).answer = none ∨
        ((GovernorCall.acquire guard source).moment s).answer =
          some (.issued ((s.governor.acquire guard source s.reading).1.map (·.ticket)))) := by
  have hact : wp (GovernorCall.act (.acquire guard source))
      (fun answer t =>
        answer = .issued ((s.governor.acquire guard source s.reading).1.map (·.ticket)) ∧
          t.governor = (s.governor.acquire guard source s.reading).2 ∧ s.SameTime t)
      (fun t => t.governor = (s.governor.acquire guard source s.reading).2 ∧ s.SameTime t) s := by
    simp only [GovernorCall.act, wp_bind]
    refine (wp_acquire_governor guard source s).mono (fun issued t hacquired => ?_) fun _ hcut =>
        hcut
    obtain ⟨rfl, hgovernor, hnow⟩ := hacquired
    exact ⟨rfl, hgovernor, hnow⟩
  rcases GovernorCall.moment_of_wp hact with
    ⟨answer, hanswer, rfl, hgovernor, hnow⟩ | ⟨hcut, hgovernor, hnow⟩
  · exact ⟨hgovernor, hnow, .inr hanswer⟩
  · exact ⟨hgovernor, hnow, .inl hcut⟩

/-- A ticket that is given back is answered. -/
theorem Steady.moment_release (h : s.Steady) (ticket : Ticket) :
    ∃ good governor, Governor.release ticket s.reading s.governor = .ok good governor ∧
      s.governor.Changed ticket.guard s.reading governor ∧
          s.governor.Released ticket good governor ∧
      (GovernorCall.release ticket).moment s =
        ⟨s, .release ticket, some (.released good), { s with governor }⟩ := by
  obtain ⟨good, governor, hrelease, hchanged, hreleased⟩ :=
    Governor.release_answers (h.sound ticket.guard) (h.held ticket.guard)
  have hown : Station.release ticket s = .ok good { s with governor } := by
    simp only [Station.release, within, hrelease]
  have hact : GovernorCall.act (.release ticket) s = .ok (.released good) { s with governor } := by
    rw [GovernorCall.act, bind_of_ok hown]
    rfl
  refine ⟨good, governor, hrelease, hchanged, hreleased, ?_⟩
  rw [GovernorCall.moment, hact]

/-- A timer runs out, whether or not that can be entered. -/
theorem Steady.moment_expire (h : s.Steady) (guard : Guard) (sequence : Nat) :
    ∃ cleared governor, Governor.expire guard sequence s.reading s.governor = .ok cleared governor ∧
      s.governor.Changed guard s.reading governor ∧
      ((GovernorCall.expire guard sequence).moment s).after.governor = governor ∧
      s.SameTime ((GovernorCall.expire guard sequence).moment s).after ∧
      (((GovernorCall.expire guard sequence).moment s).answer = none ∨
        ((GovernorCall.expire guard sequence).moment s).answer = some .expired) := by
  obtain ⟨cleared, governor, hexpire, hchanged⟩ :=
    Governor.expire_answers sequence (h.held guard)
  have hact : wp (GovernorCall.act (.expire guard sequence))
      (fun answer t => answer = .expired ∧ t.governor = governor ∧ s.SameTime t)
      (fun t => t.governor = governor ∧ s.SameTime t) s := by
    simp only [GovernorCall.act, expire, wp_bind, wp_get, wp_within]
    rw [wp_of_ok hexpire]
    split
    · exact wp_record (fun _ _ => ⟨rfl, rfl, rfl, rfl⟩) fun _ => ⟨rfl, rfl, rfl⟩
    · exact ⟨rfl, rfl, rfl, rfl⟩
  refine ⟨cleared, governor, hexpire, hchanged, ?_⟩
  rcases GovernorCall.moment_of_wp hact with
    ⟨answer, hanswer, rfl, hgovernor, hnow⟩ | ⟨hcut, hgovernor, hnow⟩
  · exact ⟨hgovernor, hnow, .inr hanswer⟩
  · exact ⟨hgovernor, hnow, .inl hcut⟩

/-- Every call changes the books of the guard it is about and leaves the clock alone, whether it is
answered or cut off. -/
theorem Steady.changed_moment (h : s.Steady) (call : GovernorCall) :
    s.governor.Changed call.guard s.reading (call.moment s).after.governor ∧
      s.SameTime (call.moment s).after := by
  cases call with
  | acquire guard source =>
      obtain ⟨hgovernor, hnow, -⟩ := moment_acquire guard source s
      rw [hgovernor]
      exact ⟨s.governor.changed_acquire guard source s.reading, hnow⟩
  | release ticket =>
      obtain ⟨good, governor, -, hchanged, -, hmoment⟩ := h.moment_release ticket
      rw [hmoment]
      exact ⟨hchanged, rfl, rfl⟩
  | expire guard sequence =>
      obtain ⟨cleared, governor, -, hchanged, hgovernor, hnow, -⟩ := h.moment_expire guard sequence
      rw [hgovernor]
      exact ⟨hchanged, hnow⟩

/-- Every call keeps a station steady. -/
theorem Steady.moment (h : s.Steady) (call : GovernorCall) : (call.moment s).after.Steady := by
  obtain ⟨hchanged, hsame⟩ := h.changed_moment call
  exact h.changed hchanged hsame

/-- Every call leaves the other guard alone and treats its ticket fairly. -/
theorem Steady.fair (h : s.Steady) (call : GovernorCall) : (call.moment s).Fair := by
  refine ⟨fun guard hne => ?_, fun ticket hcall => ?_⟩
  · rw [GovernorCall.call_moment] at hne
    rw [GovernorCall.before_moment]
    exact (h.changed_moment call).1.of_ne hne
  · rw [GovernorCall.call_moment] at hcall
    subst hcall
    obtain ⟨good, governor, -, -, hreleased, hmoment⟩ := h.moment_release ticket
    rw [hmoment]
    refine ⟨good, rfl, fun hrefused => ?_, fun htaken => ?_⟩
    · cases hreleased with
      | refused => rfl
      | taken before change given => cases hrefused
    · cases hreleased with
      | refused => cases htaken
      | taken before change given =>
          exact ⟨_, _, before, Governor.state?_update_self before _ _, given⟩

end Station

/-! ## Runs -/

/-- The calls made to a governor, the latest in front. -/
abbrev GovernorHistory := List GovernorMoment

/-- The calls made since a station was started, and the station after them.  Between two calls the
clock goes on, and timers come and go. -/
inductive GovernorRun (start : Station) : GovernorHistory → Station → Prop
  | start : GovernorRun start [] start
  | step {history : GovernorHistory} {s : Station} (run : GovernorRun start history s)
      (timeline : Timeline Task) (later : s.now ≤ timeline.now) (call : GovernorCall) :
      GovernorRun start (call.moment { s with timeline } :: history)
        (call.moment { s with timeline }).after

namespace GovernorMoment

/-- The ticket that a call issued, if it issued one. -/
def issued (m : GovernorMoment) : Multiset Ticket :=
  match m.answer with
  | some (.issued (some ticket)) => {ticket}
  | _ => 0

/-- The ticket that a call gave back, if it gave one back. -/
def returned (m : GovernorMoment) : Multiset Ticket :=
  match m.call with
  | .release ticket => {ticket}
  | _ => 0

end GovernorMoment

namespace GovernorHistory

/-- The tickets that were issued and not given back since. -/
def outstanding : GovernorHistory → Multiset Ticket
  | [] => 0
  | m :: earlier => m.issued + (outstanding earlier - m.returned)

/-- Only tickets that are out were given back: issued ones, none more often than it was issued. -/
def Honest : GovernorHistory → Prop
  | [] => True
  | m :: earlier => m.returned ≤ outstanding earlier ∧ Honest earlier

/-- No call was cut off by an overflow. -/
def Uncut (history : GovernorHistory) : Prop := ∀ m ∈ history, m.answer ≠ none

end GovernorHistory

/-- A call that is answered keeps the books exact: a unit that is taken is out, and one that is
given back is out no longer.  A ticket that is out is refused exactly if it is not good any more. -/
theorem Station.Steady.backsAll_moment {s : Station} {units : Multiset Ticket} (h : s.Steady)
    (hbacks : s.governor.BacksAll units) (call : GovernorCall)
    (hanswered : (call.moment s).answer ≠ none) (hout : (call.moment s).returned ≤ units) :
    (call.moment s).after.governor.BacksAll
        ((call.moment s).issued + (units - (call.moment s).returned)) ∧
      ∀ ticket, call = .release ticket →
        (call.moment s).answer = some (.released (s.governor.honours ticket)) := by
  cases call with
  | acquire guard source =>
      refine ⟨?_, fun ticket hcall => by cases hcall⟩
      obtain ⟨hgovernor, -, hcut | hanswer⟩ := Station.moment_acquire guard source s
      · exact absurd hcut hanswered
      have hreturned : ((GovernorCall.acquire guard source).moment s).returned = 0 := by
        rw [GovernorMoment.returned, GovernorCall.call_moment]
      have hissued : ((GovernorCall.acquire guard source).moment s).issued =
          ((s.governor.acquire guard source s.reading).1.map (·.ticket)).elim 0 singleton := by
        rw [GovernorMoment.issued, hanswer]
        cases (s.governor.acquire guard source s.reading).1 <;> rfl
      rw [hgovernor, hreturned, hissued, tsub_zero]
      exact hbacks.acquire guard source s.reading
  | release ticket =>
      obtain ⟨good, governor, hrelease, -, -, hmoment⟩ := h.moment_release ticket
      rw [hmoment] at hout ⊢
      change {ticket} ≤ units at hout
      obtain ⟨others, rfl⟩ := Multiset.exists_cons_of_mem (Multiset.singleton_le.mp hout)
      obtain ⟨hafter, hgood, -⟩ := hbacks.release hrelease
      have hrest : (0 : Multiset Ticket) + (ticket ::ₘ others - {ticket}) = others := by
        rw [zero_add, Multiset.sub_singleton, Multiset.erase_cons_head]
      refine ⟨?_, fun other hcall => ?_⟩
      · change governor.BacksAll (0 + (ticket ::ₘ others - {ticket}))
        rw [hrest]
        exact hafter
      · cases hcall
        rw [hgood]
  | expire guard sequence =>
      refine ⟨?_, fun ticket hcall => by cases hcall⟩
      obtain ⟨cleared, governor, hexpire, -, hgovernor, -, hcut | hanswer⟩ :=
        h.moment_expire guard sequence
      · exact absurd hcut hanswered
      have hreturned : ((GovernorCall.expire guard sequence).moment s).returned = 0 := by
        rw [GovernorMoment.returned, GovernorCall.call_moment]
      have hissued : ((GovernorCall.expire guard sequence).moment s).issued = 0 := by
        rw [GovernorMoment.issued, hanswer]
      rw [hgovernor, hreturned, hissued, tsub_zero, zero_add]
      exact hbacks.expire hexpire

namespace GovernorRun

variable {settings : StationSettings} {spare : Nat} {seed : Option Int} {entropy : Entropy}
  {outside : OutsideStore} {history : GovernorHistory} {s : Station}

/-- Any calls leave a station steady. -/
theorem steady (run : GovernorRun (Station.start settings spare seed entropy outside) history s) :
    s.Steady := by
  induction run with
  | start => exact Station.steady_start settings spare seed entropy outside
  | step run timeline later call ih => exact (ih.later later).moment call

/-- Honest calls leave the books exact. -/
theorem backsAll
    (run : GovernorRun (Station.start settings spare seed entropy outside) history s)
    (honest : history.Honest) (uncut : history.Uncut) :
    s.governor.BacksAll history.outstanding ∧
      ∀ m ∈ history, ∀ ticket, m.call = .release ticket →
        m.answer = some (.released (m.before.governor.honours ticket)) := by
  induction run with
  | start => exact ⟨Governor.backsAll_fresh, by simp⟩
  | @step history s run timeline later call ih =>
      obtain ⟨hbacks, hanswers⟩ := ih honest.2 fun m hm => uncut m (List.mem_cons_of_mem _ hm)
      have hsteady : Station.Steady { s with timeline } := run.steady.later later
      obtain ⟨hafter, hown⟩ :=
        hsteady.backsAll_moment hbacks call (uncut _ (List.mem_cons_self ..)) honest.1
      refine ⟨hafter, fun m hm ticket hcall => ?_⟩
      rcases List.mem_cons.mp hm with rfl | hm
      · rw [GovernorCall.call_moment] at hcall
        rw [hown ticket hcall, GovernorCall.before_moment]
      · exact hanswers m hm ticket hcall

/-- **Governor accounting.**  Whatever tickets are given back, the books of both guards are sound,
no call touches the other guard, and a ticket is refused or takes off a unit that was there.  If
only tickets that are out are given back and no call is cut off, a guard counts exactly its tickets
of the present generation that are out, stands for exactly their sources, and refuses exactly the
tickets of earlier generations. -/
theorem accounted
    (run : GovernorRun (Station.start settings spare seed entropy outside) history s) :
    (∀ guard state, s.governor.state? guard = some state → state.Sound) ∧
    (∀ m ∈ history, m.Fair) ∧
    (history.Honest → history.Uncut →
      (∀ guard state, s.governor.state? guard = some state →
        state.count = (state.standing (Governor.ofGuard guard history.outstanding)).card ∧
        GuardState.charges state.attributed =
          state.standing (Governor.ofGuard guard history.outstanding)) ∧
      ∀ m ∈ history, ∀ ticket, m.call = .release ticket →
        m.answer = some (.released (m.before.governor.honours ticket))) := by
  refine ⟨run.steady.sound, ?_, fun honest uncut => ?_⟩
  · induction run with
    | start => exact fun m hm => absurd hm List.not_mem_nil
    | step run timeline later call ih =>
        intro m hm
        rcases List.mem_cons.mp hm with rfl | hm
        · exact (run.steady.later later).fair call
        · exact ih m hm
  · obtain ⟨hbacks, hanswers⟩ := run.backsAll honest uncut
    refine ⟨fun guard state hstate => ?_, hanswers⟩
    have hguard : guard ≠ .unguarded := by
      rintro rfl
      cases hstate
    obtain ⟨own, hown, hbooks⟩ := hbacks guard hguard
    rw [hstate] at hown
    cases hown
    exact ⟨hbooks.counted, hbooks.charged⟩

/-- A call made at once. -/
theorem call {start : Station} (run : GovernorRun start history s) (call : GovernorCall) :
    GovernorRun start (call.moment s :: history) (call.moment s).after :=
  run.step s.timeline (Nat.le_refl _) call

end GovernorRun

/-- A station of a plain governor: its units run out after two seconds. -/
def Station.guarded : Station :=
  .start ⟨.ofMillis 2000, .ofMillis 2000, .zero, [], .phone⟩ 0 (some 0) ⟨[]⟩ .silent

/-- Two units are taken and the first is given back.  The guard counts the ticket that is out and
stands for its source. -/
theorem accounted_of_two_units :
    ∃ history s, GovernorRun .guarded history s ∧ history.Honest ∧ history.Uncut ∧
      s.governor.request.count = 1 ∧
      GuardState.charges s.governor.request.attributed = {⟨10042, "org.example"⟩} ∧
      ∃ m ∈ history, m.answer = some (.released true) := by
  have started : GovernorRun .guarded [] .guarded := .start
  have both := (started.call (.acquire .request .phone)).call
    (.acquire .request ⟨10042, "org.example"⟩)
  have given := both.call (.release ⟨.request, 0, .phone⟩)
  obtain ⟨history, s, run, honest, uncut, hcount, hsources, m, hm, hcall, hgood⟩ :
      ∃ history s, GovernorRun .guarded history s ∧ history.Honest ∧ history.Uncut ∧
        (s.governor.request.standing (Governor.ofGuard .request history.outstanding)).card = 1 ∧
        s.governor.request.standing (Governor.ofGuard .request history.outstanding) =
          {⟨10042, "org.example"⟩} ∧
        ∃ m ∈ history, m.call = .release ⟨.request, 0, .phone⟩ ∧
          m.before.governor.honours ⟨.request, 0, .phone⟩ = true := by
    refine ⟨_, _, given, ⟨by decide, by decide, by decide, trivial⟩, ?_, by decide, by decide,
      _, List.mem_cons_self .., rfl, by decide⟩
    intro m hm
    simp only [List.mem_cons, List.not_mem_nil, or_false] at hm
    rcases hm with rfl | rfl | rfl <;> exact Option.some_ne_none _
  obtain ⟨-, -, hexact⟩ := GovernorRun.accounted run
  obtain ⟨hbooks, hanswers⟩ := hexact honest uncut
  obtain ⟨hcounted, hcharged⟩ := hbooks .request s.governor.request rfl
  refine ⟨history, s, run, honest, uncut, hcounted.trans hcount, hcharged.trans hsources, m, hm, ?_⟩
  rw [hanswers m hm _ hcall, hgood]

/-- A call that is cut off may leave a unit that nobody has the ticket of: the clock stands so late
that the timer of the unit has no deadline. -/
theorem count_without_ticket :
    ∃ history s, GovernorRun .guarded history s ∧ history.Honest ∧
      GovernorHistory.outstanding history = 0 ∧ s.governor.request.count = 1 := by
  have started : GovernorRun .guarded [] .guarded := .start
  have cut := started.step ⟨⟨18446744073709551615 * 1000000000, by decide⟩, 0, []⟩ (Nat.zero_le _)
    (.acquire .request .phone)
  refine ⟨_, _, cut, ⟨?_, trivial⟩, ?_, ?_⟩
  · rw [GovernorMoment.returned, GovernorCall.call_moment]
    exact Multiset.zero_le _
  · decide +kernel
  · decide +kernel

end ModemLink
