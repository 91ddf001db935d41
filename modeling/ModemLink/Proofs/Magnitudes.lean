import ModemLink.Proofs.Clockwork
import ModemLink.Proofs.GovernorCalls

/-!
# How large the numbers grow

The counts of a guard, the numbers of its units and its generations have no bound in the books, and
neither has the order of a timer.  Registers of 64 bits hold them as long as fewer than 2 ^ 64 units
of a guard were taken and fewer than 2 ^ 64 timers were set: a unit is taken before it is counted,
charged to a source or cleared, and nothing else makes these numbers grow.

* `GuardState.InStep` -- no number of the books runs ahead of the units that were taken;
* `Governor.Took.acquire`, `Governor.Took.release`, `Governor.Took.expire` -- what each call keeps;
* `GovernorRun.took`, `GovernorRun.numbers_fit` -- the books after any calls;
* `Clockwork.Run.orders_fit` -- the orders of the timers after any moves.
-/

namespace ModemLink

/-! ## The books of one guard -/

namespace GuardState

variable {state : GuardState} {guard : Guard} {source : WorkSource} {now : Duration}

/-- No source has more units than all of them. -/
theorem units_le_card_charges {rows : List (WorkSource × Nat)} {row : WorkSource × Nat}
    (h : row ∈ rows) : row.2 ≤ (charges rows).card := by
  induction rows with
  | nil => cases h
  | cons first rest ih =>
      obtain ⟨source, units⟩ := first
      rw [charges_cons, Multiset.card_add, Multiset.card_replicate]
      rcases List.mem_cons.mp h with rfl | hrest
      · exact Nat.le_add_right _ _
      · exact Nat.le_trans (ih hrest) (Nat.le_add_left _ _)

/-- To take a unit off the rows adds none. -/
theorem card_charges_dropUnit_le (source : WorkSource) (rows : List (WorkSource × Nat)) :
    (charges (dropUnit source rows)).card ≤ (charges rows).card := by
  induction rows with
  | nil => exact Nat.le_refl _
  | cons row rest ih =>
      obtain ⟨first, units⟩ := row
      unfold dropUnit
      split
      · split <;> simp
      · simpa using ih

/-- The units of the sources, the units out and the clearings are no more than the units that were
taken: each clearing ends a unit at least. -/
structure InStep (state : GuardState) : Prop where
  charged : (charges state.attributed).card ≤ state.sequence
  spent : state.count + state.generation ≤ state.sequence
  cleared : state.expirations = state.generation

theorem inStep_fresh : fresh.InStep := ⟨Nat.le_refl _, Nat.le_refl _, rfl⟩

theorem InStep.acquire (h : state.InStep) (guard : Guard) (source : WorkSource) (now : Duration) :
    (state.acquire guard source now).1.InStep := by
  refine ⟨?_, ?_, h.cleared⟩
  · change (charges (addUnit source state.attributed)).card ≤ state.sequence + 1
    rw [charges_addUnit, Multiset.card_cons]
    exact Nat.succ_le_succ h.charged
  · change state.count + 1 + state.generation ≤ state.sequence + 1
    have hspent := h.spent
    omega

theorem InStep.drop (h : state.InStep) (source : WorkSource) :
    InStep { state with
      count := state.count - 1
      attributed := dropUnit source state.attributed } := by
  refine ⟨Nat.le_trans (card_charges_dropUnit_le source _) h.charged, ?_, h.cleared⟩
  change state.count - 1 + state.generation ≤ state.sequence
  have hspent := h.spent
  omega

theorem InStep.clear (h : state.InStep) (hheld : state.count ≠ 0) :
    InStep { state with
      count := 0
      generation := state.generation + 1
      expirations := state.expirations + 1 } := by
  refine ⟨h.charged, ?_, congrArg (· + 1) h.cleared⟩
  change 0 + (state.generation + 1) ≤ state.sequence
  have hspent := h.spent
  omega

/-- The end of a stretch of holding changes no number, and strikes the sources. -/
theorem InStep.close {closed : GuardState} {calls : List PowerCall} (h : state.InStep)
    (hclose : state.close guard now = (closed, calls, none)) :
    closed.InStep ∧ closed.sequence = state.sequence := by
  obtain ⟨heldTotal, rfl, -⟩ := close_of_none hclose
  exact ⟨⟨Nat.zero_le _, h.spent, h.cleared⟩, rfl⟩

end GuardState

/-! ## Both guards -/

namespace Governor

variable {governor after : Governor} {guard : Guard} {state changed : GuardState}
  {calls : List PowerCall} {now : Duration} {taken : Guard → Nat}

/-- The books of every guard are in step, and its units are numbered by how many were taken. -/
def Took (governor : Governor) (taken : Guard → Nat) : Prop :=
  ∀ guard state, governor.state? guard = some state →
    state.InStep ∧ state.sequence = taken guard

theorem took_fresh : fresh.Took fun _ => 0 := by
  intro guard state hstate
  have hfresh : state = .fresh := by
    cases guard <;> cases hstate <;> rfl
  rw [hfresh]
  exact ⟨GuardState.inStep_fresh, rfl⟩

/-- New books of one guard leave those of the other as they are. -/
theorem Took.update {more : Guard → Nat} (h : governor.Took taken)
    (hstate : governor.state? guard = some state) (hstep : changed.InStep)
    (hsequence : changed.sequence = more guard)
    (hother : ∀ other, guard ≠ other → more other = taken other) :
    (governor.update guard changed calls).Took more := by
  intro other found hfound
  by_cases hsame : guard = other
  · subst hsame
    rw [state?_update_self hstate] at hfound
    cases hfound
    exact ⟨hstep, hsequence⟩
  · rw [state?_update_of_ne hsame] at hfound
    rw [hother other hsame]
    exact h other found hfound

/-- A unit that is taken is one unit more. -/
theorem Took.acquire {more : Guard → Nat} (h : governor.Took taken) (source : WorkSource)
    (now : Duration)
    (hmore : ∀ other, more other = taken other + if other = guard then 1 else 0) :
    (governor.acquire guard source now).2.Took more := by
  have hother (other : Guard) (hne : guard ≠ other) : more other = taken other := by
    rw [hmore, if_neg (Ne.symm hne), Nat.add_zero]
  cases hstate : governor.state? guard with
  | none =>
      have hnothing : governor.acquire guard source now = (none, governor) := by
        simp only [Governor.acquire, hstate]
      rw [hnothing]
      intro other found hfound
      have hne : guard ≠ other := by
        rintro rfl
        rw [hstate] at hfound
        cases hfound
      rw [hother other hne]
      exact h other found hfound
  | some state =>
      obtain ⟨hstep, hsequence⟩ := h guard state hstate
      rw [acquire_of_state hstate]
      refine h.update hstate (hstep.acquire guard source now) ?_ hother
      rw [hmore, if_pos rfl, ← hsequence]
      rfl

/-- A ticket that is given back takes nothing. -/
theorem Took.release {ticket : Ticket} {good : Bool} (h : governor.Took taken)
    (hrelease : Governor.release ticket now governor = .ok good after) : after.Took taken := by
  cases hstate : governor.state? ticket.guard with
  | none =>
      simp only [Governor.release, hstate] at hrelease
      cases hrelease
      exact h
  | some state =>
      obtain ⟨hstep, hsequence⟩ := h ticket.guard state hstate
      have hdropped := hstep.drop ticket.source
      simp only [Governor.release, hstate] at hrelease
      split at hrelease
      · cases hrelease
        exact h
      split at hrelease
      · cases hrelease
        exact h
      split at hrelease
      · split at hrelease
        · rename_i hclose
          cases hrelease
          obtain ⟨hclosed, hkept⟩ := hdropped.close hclose
          exact h.update hstate hclosed (hkept.trans hsequence) fun _ _ => rfl
        · cases hrelease
      · cases hrelease
        exact h.update hstate hdropped hsequence fun _ _ => rfl

/-- A timer that runs out takes nothing. -/
theorem Took.expire {sequence : Nat} {cleared : Bool} (h : governor.Took taken)
    (hexpire : Governor.expire guard sequence now governor = .ok cleared after) :
    after.Took taken := by
  cases hstate : governor.state? guard with
  | none =>
      simp only [Governor.expire, hstate] at hexpire
      cases hexpire
      exact h
  | some state =>
      obtain ⟨hstep, hsequence⟩ := h guard state hstate
      simp only [Governor.expire, hstate] at hexpire
      split at hexpire
      · cases hexpire
        exact h
      split at hexpire
      · cases hexpire
        exact h
      rename_i hheld
      split at hexpire
      · rename_i hclose
        cases hexpire
        obtain ⟨hclosed, hkept⟩ := (hstep.clear hheld).close hclose
        exact h.update hstate hclosed (hkept.trans hsequence) fun _ _ => rfl
      · cases hexpire

end Governor

/-! ## Calls to the governor -/

/-- Whether a call takes a unit of a guard. -/
def GovernorMoment.takes (m : GovernorMoment) (guard : Guard) : Bool :=
  match m.call with
  | .acquire other _ => guard = other
  | _ => false

/-- How many units of a guard were taken. -/
def GovernorHistory.taken (history : GovernorHistory) (guard : Guard) : Nat :=
  history.countP (·.takes guard)

/-- A call that takes no unit is not counted. -/
theorem GovernorHistory.taken_cons_of_not_takes {m : GovernorMoment} (history : GovernorHistory)
    (h : ∀ guard, m.takes guard = false) :
    GovernorHistory.taken (m :: history) = history.taken := by
  funext guard
  exact List.countP_cons_of_neg (Bool.eq_false_iff.mp (h guard))

/-- Every call counts the units that it takes. -/
theorem Station.Steady.took_moment {s : Station} {history : GovernorHistory} (h : s.Steady)
    (htook : s.governor.Took history.taken) (call : GovernorCall) :
    (call.moment s).after.governor.Took (GovernorHistory.taken (call.moment s :: history)) := by
  cases call with
  | acquire guard source =>
      obtain ⟨hgovernor, -, -⟩ := moment_acquire guard source s
      rw [hgovernor]
      refine htook.acquire source s.reading fun other => ?_
      rw [GovernorHistory.taken, List.countP_cons, GovernorMoment.takes, GovernorCall.call_moment]
      simp only [decide_eq_true_eq]
      rfl
  | release ticket =>
      obtain ⟨good, governor, hrelease, -, -, hmoment⟩ := h.moment_release ticket
      have hnone : ∀ guard, ((GovernorCall.release ticket).moment s).takes guard = false :=
        fun guard => by rw [GovernorMoment.takes, GovernorCall.call_moment]
      rw [GovernorHistory.taken_cons_of_not_takes history hnone, hmoment]
      exact htook.release hrelease
  | expire guard sequence =>
      obtain ⟨cleared, governor, hexpire, -, hgovernor, -, -⟩ := h.moment_expire guard sequence
      have hnone : ∀ other, ((GovernorCall.expire guard sequence).moment s).takes other = false :=
        fun other => by rw [GovernorMoment.takes, GovernorCall.call_moment]
      rw [GovernorHistory.taken_cons_of_not_takes history hnone, hgovernor]
      exact htook.expire hexpire

namespace GovernorRun

variable {settings : StationSettings} {spare : Nat} {seed : Option Int} {entropy : Entropy}
  {outside : OutsideStore} {history : GovernorHistory} {s : Station}

/-- After any calls the books of every guard are in step with the units that were taken. -/
theorem took (run : GovernorRun (Station.start settings spare seed entropy outside) history s) :
    s.governor.Took history.taken := by
  induction run with
  | start => exact Governor.took_fresh
  | @step history s run timeline later call ih =>
      have hsteady : Station.Steady { s with timeline } := run.steady.later later
      exact hsteady.took_moment ih call

/-- **The numbers of a guard.**  While fewer than 2 ^ 64 of its units were taken, every number in
its books fits into 64 bits, whatever tickets were given back and whatever timers ran out. -/
theorem numbers_fit
    (run : GovernorRun (Station.start settings spare seed entropy outside) history s)
    {guard : Guard} {state : GuardState} (hstate : s.governor.state? guard = some state)
    (hfew : history.taken guard < 2 ^ 64) :
    state.count < 2 ^ 64 ∧ state.sequence < 2 ^ 64 ∧ state.generation < 2 ^ 64 ∧
      state.expirations < 2 ^ 64 ∧ ∀ row ∈ state.attributed, row.2 < 2 ^ 64 := by
  obtain ⟨⟨hcharged, hspent, hcleared⟩, hsequence⟩ := run.took guard state hstate
  rw [← hsequence] at hfew
  refine ⟨by omega, hfew, by omega, by omega, fun row hrow => ?_⟩
  exact Nat.lt_of_le_of_lt (GuardState.units_le_card_charges hrow)
    (Nat.lt_of_le_of_lt hcharged hfew)

end GovernorRun

/-! ## Timers -/

namespace Clockwork

variable {α : Type}

/-- Whether a move sets a timer. -/
def Moment.sets (m : Moment α) : Bool :=
  match m.move with
  | .schedule _ _ => true
  | _ => false

/-- Timers are numbered by how many were set. -/
theorem Run.nextOrder_eq {first c : Clockwork α} {history : List (Moment α)}
    (run : Run first history c) :
    c.timeline.nextOrder = first.timeline.nextOrder + history.countP (·.sets) := by
  induction run with
  | start => rfl
  | @step history m _ happens ih =>
      rw [List.countP_cons, ← Nat.add_assoc, ← ih]
      cases happens with
      | schedule hschedule =>
          obtain ⟨deadline, -, rfl⟩ := Timeline.schedule_eq_ok hschedule
          rfl
      | run _ hpop =>
          obtain ⟨first, rest, -, -, -, rfl⟩ := Timeline.popDue?_eq_some hpop
          rfl
      | advance _ => rfl
      | done => rfl
      | arrive _ => rfl
      | cut => rfl

/-- While fewer than 2 ^ 64 timers were set, their orders fit into 64 bits, and so does the next. -/
theorem Run.orders_fit {c : Clockwork α} {history : List (Moment α)} (run : Run .start history c)
    (hfew : history.countP (·.sets) < 2 ^ 64) :
    c.timeline.nextOrder < 2 ^ 64 ∧ ∀ timer ∈ c.timeline.queue, timer.order < 2 ^ 64 := by
  have hnext : c.timeline.nextOrder < 2 ^ 64 := by
    rw [run.nextOrder_eq]
    exact (Nat.zero_add _).symm ▸ hfew
  exact ⟨hnext, fun timer hmem =>
    Nat.lt_trans ((run.lined Timeline.lined_start).known timer hmem) hnext⟩

end Clockwork

end ModemLink
