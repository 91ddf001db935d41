import ModemLink.Proofs.GovernorCalls

/-!
# What the power manager is told

The governor calls the power manager at the first unit and at the last one, and whenever its list of
sources changes.  That it never says the same thing twice is decided in three places, each under a
condition of its own; and a ticket that was never issued may take off a unit of any source, or the
last unit while other sources still stand in the books.

What a call says is compared with what the power manager was told last.  As that is what the books
say, a call that goes with a change of the books says something new.

* `PowerTrace.Orderly` -- calls that take turns, change what they set and strike the sources before
  a guard is released;
* `PowerTrace.Shows.change` -- every change of the books of a guard keeps its calls in order;
* `GovernorRun.calls_in_order` -- so does every call to the governor.
-/

namespace ModemLink

/-! ## What changes the list of sources -/

theorem WorkSource.lt_irrefl (source : WorkSource) : ¬ source.lt source = true := by
  intro h
  rcases lt_iff.mp h with huid | ⟨-, hpackage⟩
  · exact UInt32.lt_irrefl _ huid
  · exact String.lt_irrefl _ hpackage

namespace GuardState

variable {state changed : GuardState} {source : WorkSource} {rows : List (WorkSource × Nat)}

/-- Exactly the sources in the list have units. -/
theorem Rows.units_eq_zero_iff (h : Rows rows) (source : WorkSource) :
    (rows.lookup source).getD 0 = 0 ↔ source ∉ rows.map (·.1) := by
  cases hlookup : rows.lookup source with
  | none =>
      simp only [Option.getD_none, true_iff]
      intro hmem
      obtain ⟨row, hrow, hsource⟩ := List.mem_map.mp hmem
      have hother := List.lookup_eq_none_iff.mp hlookup row hrow
      rw [hsource] at hother
      simp at hother
  | some units =>
      obtain ⟨before, after, rfl, -⟩ := List.lookup_eq_some_iff.mp hlookup
      have hpositive := h.positive (source, units) (by simp)
      simp only [Option.getD_some]
      refine iff_of_false (Nat.ne_of_gt hpositive) ?_
      simp

/-- The source of a new unit is in the list. -/
theorem mem_map_addUnit (source : WorkSource) (rows : List (WorkSource × Nat)) :
    source ∈ (addUnit source rows).map (·.1) := by
  induction rows with
  | nil => exact List.mem_cons_self ..
  | cons row rest ih =>
      obtain ⟨first, units⟩ := row
      unfold addUnit
      split
      · rename_i hfirst
        rw [hfirst]
        exact List.mem_cons_self ..
      split
      · exact List.mem_cons_self ..
      · exact List.mem_cons_of_mem _ ih

/-- A unit more for a source that has some leaves the list as it is. -/
theorem Rows.map_addUnit (h : Rows rows) (hmem : source ∈ rows.map (·.1)) :
    (GuardState.addUnit source rows).map (·.1) = rows.map (·.1) := by
  obtain ⟨hsorted, -⟩ := h
  induction rows with
  | nil => exact absurd hmem List.not_mem_nil
  | cons row rest ih =>
      obtain ⟨first, units⟩ := row
      obtain ⟨hfirst, hrest⟩ := List.pairwise_cons.mp hsorted
      unfold GuardState.addUnit
      split
      · rfl
      rename_i hne
      have hmem' : source ∈ rest.map (·.1) := by
        rcases List.mem_cons.mp hmem with heq | hmem
        · exact absurd heq.symm hne
        · exact hmem
      split
      · rename_i hlt
        obtain ⟨later, hlater, rfl⟩ := List.mem_map.mp hmem'
        exact absurd (WorkSource.lt_trans (hfirst later hlater) hlt) (WorkSource.lt_irrefl first)
      · rw [List.map_cons, List.map_cons, ih hmem' hrest]

/-- To take a unit off a source that has not exactly one leaves the list as it is. -/
theorem Rows.map_dropUnit (h : Rows rows) (hunits : (rows.lookup source).getD 0 ≠ 1) :
    (GuardState.dropUnit source rows).map (·.1) = rows.map (·.1) := by
  obtain ⟨-, hpositive⟩ := h
  induction rows with
  | nil => rfl
  | cons row rest ih =>
      obtain ⟨first, units⟩ := row
      unfold GuardState.dropUnit
      split
      · rename_i hfirst
        subst hfirst
        have hpos : 0 < units := hpositive (first, units) (List.mem_cons_self ..)
        have hone : units ≠ 1 := by simpa using hunits
        rw [if_neg (by omega)]
        rfl
      · rename_i hne
        rw [List.lookup_cons, beq_false_of_ne (Ne.symm hne)] at hunits
        rw [List.map_cons, List.map_cons,
          ih hunits fun row hrow => hpositive row (List.mem_cons_of_mem _ hrow)]

/-- The last unit of a source takes it out of the list. -/
theorem Rows.map_dropUnit_ne (h : Rows rows) (hunits : (rows.lookup source).getD 0 = 1) :
    (GuardState.dropUnit source rows).map (·.1) ≠ rows.map (·.1) := by
  obtain ⟨-, hpositive⟩ := h
  induction rows with
  | nil => cases hunits
  | cons row rest ih =>
      obtain ⟨first, units⟩ := row
      unfold GuardState.dropUnit
      split
      · rename_i hfirst
        subst hfirst
        have hone : units = 1 := by simpa using hunits
        rw [if_pos (Nat.le_of_eq hone)]
        intro hsame
        have hlength := congrArg List.length hsame
        simp at hlength
      · rename_i hne
        rw [List.lookup_cons, beq_false_of_ne (Ne.symm hne)] at hunits
        have hrest := ih hunits fun row hrow => hpositive row (List.mem_cons_of_mem _ hrow)
        simpa using hrest

end GuardState

/-! ## Saying something new -/

namespace PowerTrace

variable {α : Type} {trace : PowerTrace} {call : PowerCall} {guard : Guard}

/-- What the calls have said about something, in order. -/
def said (say : PowerCall → Option α) (trace : PowerTrace) : List α :=
  trace.calls.toList.filterMap say

/-- Each call that says something says something else than the one before, and the first something
else than what is believed at the start. -/
def SaysNews (say : PowerCall → Option α) (believed : α) (trace : PowerTrace) : Prop :=
  (believed :: trace.said say).IsChain (· ≠ ·)

theorem said_push (say : PowerCall → Option α) :
    (trace.push call).said say = trace.said say ++ (say call).toList := by
  rw [said, push, Array.toList_push, List.filterMap_append]
  cases hsay : say call <;> simp [said, hsay]

/-- What was said last is what the power manager believes. -/
theorem foldl_eq_getLastD (say : PowerCall → Option α) (believed : α) (calls : List PowerCall) :
    calls.foldl (fun told call => (say call).getD told) believed =
      (calls.filterMap say).getLastD believed := by
  induction calls generalizing believed with
  | nil => rfl
  | cons call rest ih =>
      rw [List.foldl_cons, ih, List.filterMap_cons]
      cases say call with
      | none => rfl
      | some told => exact (List.getLastD_cons ..).symm

theorem isHeld_eq_getLastD :
    trace.isHeld guard = (trace.said (·.holds? guard)).getLastD false := by
  rw [isHeld, ← Array.foldl_toList]
  exact foldl_eq_getLastD _ _ _

theorem attribution_eq_getLastD :
    trace.attribution guard = (trace.said (·.attributes? guard)).getLastD [] := by
  rw [attribution, ← Array.foldl_toList]
  exact foldl_eq_getLastD _ _ _

/-- A call keeps saying news if it says nothing, or not what was said last. -/
theorem SaysNews.push {say : PowerCall → Option α} {believed : α} (h : trace.SaysNews say believed)
    (hnew : ∀ told, say call = some told → (trace.said say).getLastD believed ≠ told) :
    (trace.push call).SaysNews say believed := by
  unfold SaysNews at h ⊢
  rw [said_push]
  cases hsay : say call with
  | none => simpa using h
  | some told =>
      rw [← List.cons_append, List.isChain_append]
      refine ⟨h, List.isChain_singleton told, fun last hlast new hnew' => ?_⟩
      rw [List.getLast?_cons, Option.mem_some] at hlast
      rw [Option.toList_some, List.head?_cons, Option.mem_some] at hnew'
      rw [← hlast, ← hnew']
      simpa [List.getLastD_eq_getLast?] using hnew told hsay

/-! ## Calls in order -/

/-- The calls about a guard take turns in taking and releasing it, the first one takes it; each list
of sources differs from the one before, the first one is not empty; and right before the guard is
released its sources are struck. -/
structure Orderly (trace : PowerTrace) (guard : Guard) : Prop where
  turns : trace.SaysNews (·.holds? guard) false
  changes : trace.SaysNews (·.attributes? guard) []
  struck : ∀ before after, trace.calls.toList = before ++ .release guard :: after →
    before.getLast? = some (.attribute guard [])

theorem orderly_empty : empty.Orderly guard :=
  ⟨List.isChain_singleton _, List.isChain_singleton _, fun before after h => by
    cases before <;> cases h⟩

/-- A call keeps the order if it changes what is believed, and releases nothing while there are
sources. -/
theorem Orderly.push (h : trace.Orderly guard)
    (hholds : ∀ held, call.holds? guard = some held → trace.isHeld guard ≠ held)
    (hattributes : ∀ sources, call.attributes? guard = some sources →
      trace.attribution guard ≠ sources)
    (hstruck : call = .release guard → trace.calls.toList.getLast? = some (.attribute guard [])) :
    (trace.push call).Orderly guard := by
  refine ⟨h.turns.push fun held hheld => ?_, h.changes.push fun sources hsources => ?_, ?_⟩
  · rw [← isHeld_eq_getLastD]
    exact hholds held hheld
  · rw [← attribution_eq_getLastD]
    exact hattributes sources hsources
  · intro before after hsplit
    change (trace.calls.push call).toList = _ at hsplit
    rw [Array.toList_push] at hsplit
    -- the release is the new call, or it stands among the old ones
    rcases List.eq_nil_or_concat after with rfl | ⟨after, last, rfl⟩
    · obtain ⟨hbefore, hcall⟩ := List.append_inj' hsplit rfl
      rw [← hbefore]
      exact hstruck (List.singleton_inj.mp hcall)
    · rw [List.concat_eq_append, ← List.cons_append, ← List.append_assoc] at hsplit
      obtain ⟨hbefore, -⟩ := List.append_inj' hsplit rfl
      exact h.struck before after hbefore

/-- What the power manager was told about a guard is what its books say, and it was told in
order. -/
structure Shows (trace : PowerTrace) (guard : Guard) (state : GuardState) : Prop where
  orderly : trace.Orderly guard
  held : trace.isHeld guard = decide (0 < state.count)
  sources : trace.attribution guard = state.sources

theorem shows_fresh : empty.Shows guard .fresh := ⟨orderly_empty, rfl, rfl⟩

/-- A guard that is taken. -/
theorem Shows.acquire {state changed : GuardState} (h : trace.Shows guard state)
    (hidle : state.count = 0) (hcount : 0 < changed.count)
    (hsources : changed.sources = state.sources) :
    (trace.push (.acquire guard)).Shows guard changed := by
  have hheld : trace.isHeld guard = false := by
    rw [h.held, hidle]
    rfl
  refine ⟨h.orderly.push (fun held hholds => ?_) (fun sources hnone => by cases hnone)
    (fun hrelease => by cases hrelease), ?_, ?_⟩
  · rw [PowerCall.holds?, if_pos rfl] at hholds
    cases hholds
    rw [hheld]
    exact Bool.false_ne_true
  · rw [isHeld_push, PowerCall.holds?, if_pos rfl]
    exact (decide_eq_true hcount).symm
  · rw [attribution_push, hsources]
    exact h.sources

/-- A list of sources that is set. -/
theorem Shows.attribute {state changed : GuardState} (h : trace.Shows guard state)
    (hcount : 0 < changed.count ↔ 0 < state.count) (hsources : state.sources ≠ changed.sources) :
    (trace.push (.attribute guard changed.sources)).Shows guard changed := by
  refine ⟨h.orderly.push (fun held hnone => by cases hnone) (fun sources hattributes => ?_)
    (fun hrelease => by cases hrelease), ?_, ?_⟩
  · rw [PowerCall.attributes?, if_pos rfl] at hattributes
    cases hattributes
    rw [h.sources]
    exact hsources
  · rw [isHeld_push]
    exact h.held.trans (decide_eq_decide.mpr hcount.symm)
  · rw [attribution_push, PowerCall.attributes?, if_pos rfl]
    rfl

/-- Books of which the power manager need not hear. -/
theorem Shows.silent {state changed : GuardState} (h : trace.Shows guard state)
    (hcount : 0 < changed.count ↔ 0 < state.count) (hsources : changed.sources = state.sources) :
    trace.Shows guard changed :=
  ⟨h.orderly, h.held.trans (decide_eq_decide.mpr hcount.symm), h.sources.trans hsources.symm⟩

/-- A guard that is released, its sources struck just before. -/
theorem Shows.close {state changed : GuardState} (h : trace.Shows guard state)
    (hheld : 0 < state.count) (hsources : state.attributed ≠ []) (hcount : changed.count = 0)
    (hnobody : changed.attributed = []) :
    ((trace.push (.attribute guard [])).push (.release guard)).Shows guard changed := by
  have hheld' : trace.isHeld guard = true := by
    rw [h.held]
    exact decide_eq_true hheld
  have hstruck : (trace.push (.attribute guard [])).Orderly guard := by
    refine h.orderly.push (fun held hnone => by cases hnone) (fun sources hattributes => ?_)
      (fun hrelease => by cases hrelease)
    rw [PowerCall.attributes?, if_pos rfl] at hattributes
    cases hattributes
    rw [h.sources]
    intro hnone
    exact hsources (List.map_eq_nil_iff.mp hnone)
  refine ⟨hstruck.push (fun held hholds => ?_) (fun sources hnone => by cases hnone) (fun _ => ?_),
    ?_, ?_⟩
  · rw [PowerCall.holds?, if_pos rfl] at hholds
    cases hholds
    rw [isHeld_push, PowerCall.holds?, Option.getD_none, hheld']
    exact Bool.noConfusion
  · change (trace.calls.push _).toList.getLast? = _
    rw [Array.toList_push, List.getLast?_concat]
  · rw [isHeld_push, PowerCall.holds?, if_pos rfl, hcount]
    rfl
  · rw [attribution_push, attribution_push, GuardState.sources, hnobody]
    simp [PowerCall.attributes?]

/-- A unit that is taken: the guard may be new, and so may its source. -/
theorem Shows.taken {state : GuardState} {now : Duration} (h : trace.Shows guard state)
    (hsound : state.Sound) (source : WorkSource) :
    (trace.append (state.acquire guard source now).2).Shows guard
      (state.acquire guard source now).1 := by
  have hunits := hsound.rows.units_eq_zero_iff source
  have hmore : 0 < (state.acquire guard source now).1.count := Nat.succ_pos _
  have hsources (hnone : state.unitsOf source = 0) :
      state.sources ≠ (state.acquire guard source now).1.sources := by
    intro hsame
    have hmem : source ∈ (state.acquire guard source now).1.sources :=
      GuardState.mem_map_addUnit source state.attributed
    rw [← hsame] at hmem
    exact hunits.mp hnone hmem
  by_cases hfirst : state.count = 0
  · have hnone : state.unitsOf source = 0 := by
      rw [GuardState.unitsOf, hsound.idle hfirst]
      rfl
    have hcalls : (state.acquire guard source now).2 =
        [.acquire guard, .attribute guard (state.acquire guard source now).1.sources] := by
      simp only [GuardState.acquire, hfirst, hnone, if_true]
      rfl
    have htaken : (trace.push (.acquire guard)).Shows guard
        { state with count := state.count + 1 } := h.acquire hfirst (Nat.succ_pos _) rfl
    rw [hcalls]
    exact htaken.attribute (iff_of_true hmore (Nat.succ_pos _)) (hsources hnone)
  · have hcount : 0 < (state.acquire guard source now).1.count ↔ 0 < state.count :=
      iff_of_true hmore (Nat.pos_of_ne_zero hfirst)
    by_cases hnone : state.unitsOf source = 0
    · have hcalls : (state.acquire guard source now).2 =
          [.attribute guard (state.acquire guard source now).1.sources] := by
        simp only [GuardState.acquire, hfirst, hnone, if_true, if_false]
        rfl
      rw [hcalls]
      exact h.attribute hcount (hsources hnone)
    · have hcalls : (state.acquire guard source now).2 = [] := by
        simp only [GuardState.acquire, hfirst, hnone, if_false, List.append_nil]
      rw [hcalls]
      refine h.silent hcount (hsound.rows.map_addUnit ?_)
      exact Classical.not_not.mp fun hmem => hnone (hunits.mpr hmem)

/-- Every change of the books of a guard keeps its calls in order. -/
theorem Shows.change {state changed : GuardState} {now : Duration} {calls : List PowerCall}
    (h : trace.Shows guard state) (hsound : state.Sound)
    (hchange : GuardState.Change guard now state changed calls) :
    (trace.append calls).Shows guard changed := by
  cases hchange with
  | kept => exact h
  | taken source => exact h.taken hsound source
  | dropped source more =>
      have hcount : 0 < state.count - 1 ↔ 0 < state.count := by omega
      by_cases hlast : state.unitsOf source = 1
      · rw [if_pos hlast]
        let dropped : GuardState := { state with
          count := state.count - 1
          attributed := GuardState.dropUnit source state.attributed }
        have hsources : state.sources ≠ dropped.sources := (hsound.rows.map_dropUnit_ne hlast).symm
        exact h.attribute hcount hsources
      · rw [if_neg hlast]
        exact h.silent hcount (hsound.rows.map_dropUnit hlast)
  | closed held count attributed since total =>
      exact h.close held (hsound.attributed_ne_nil held) count attributed

/-- Calls about another guard change nothing. -/
theorem Shows.append_of_other {state : GuardState} {calls : List PowerCall}
    (h : trace.Shows guard state)
    (hother : ∀ call ∈ calls, call.holds? guard = none ∧ call.attributes? guard = none) :
    (trace.append calls).Shows guard state := by
  induction calls generalizing trace with
  | nil => exact h
  | cons call rest ih =>
      obtain ⟨hholds, hattributes⟩ := hother call (List.mem_cons_self ..)
      have hpushed : (trace.push call).Shows guard state := by
        refine ⟨h.orderly.push (fun held hheld => ?_) (fun sources hsources => ?_) ?_, ?_, ?_⟩
        · rw [hholds] at hheld
          cases hheld
        · rw [hattributes] at hsources
          cases hsources
        · rintro rfl
          rw [PowerCall.holds?, if_pos rfl] at hholds
          cases hholds
        · rw [isHeld_push, hholds]
          exact h.held
        · rw [attribution_push, hattributes]
          exact h.sources
      exact ih hpushed fun other hmem => hother other (List.mem_cons_of_mem _ hmem)

end PowerTrace

/-- A change of the books of one guard makes no calls about another. -/
theorem GuardState.Change.of_ne {state changed : GuardState} {guard other : Guard} {now : Duration}
    {calls : List PowerCall} (h : Change guard now state changed calls) (hne : guard ≠ other) :
    ∀ call ∈ calls, call.holds? other = none ∧ call.attributes? other = none := by
  intro call hcall
  have hown : call = .acquire guard ∨ call = .release guard ∨
      ∃ sources, call = .attribute guard sources := by
    cases h with
    | kept => cases hcall
    | taken source =>
        simp only [GuardState.acquire, List.mem_append, List.mem_ite_nil_right,
          List.mem_singleton] at hcall
        rcases hcall with ⟨-, rfl⟩ | ⟨-, rfl⟩
        · exact .inl rfl
        · exact .inr (.inr ⟨_, rfl⟩)
    | dropped source more =>
        simp only [List.mem_ite_nil_right, List.mem_singleton] at hcall
        obtain ⟨-, rfl⟩ := hcall
        exact .inr (.inr ⟨_, rfl⟩)
    | closed held count attributed since total =>
        simp only [List.mem_cons, List.not_mem_nil, or_false] at hcall
        rcases hcall with rfl | rfl
        · exact .inr (.inr ⟨_, rfl⟩)
        · exact .inr (.inl rfl)
  rcases hown with rfl | rfl | ⟨sources, rfl⟩ <;>
    simp [PowerCall.holds?, PowerCall.attributes?, hne]

namespace Governor

variable {governor after : Governor} {guard : Guard} {now : Duration}

/-- The books of a guard; those of no guard are empty. -/
def books (governor : Governor) (guard : Guard) : GuardState :=
  (governor.state? guard).getD .fresh

/-- The power manager was told what the books of all guards say. -/
def Shown (governor : Governor) : Prop :=
  ∀ guard, governor.power.Shows guard (governor.books guard)

theorem shown_fresh : fresh.Shown := by
  intro guard
  cases guard <;> exact PowerTrace.shows_fresh

/-- Every change of the books is told. -/
theorem Shown.changed (h : governor.Shown)
    (hsound : ∀ other state, governor.state? other = some state → state.Sound)
    (hchanged : governor.Changed guard now after) : after.Shown := by
  rcases hchanged with rfl | ⟨state, changed, calls, hstate, hchange, rfl⟩
  · exact h
  intro other
  have hpower : (governor.update guard changed calls).power = governor.power.append calls := by
    cases guard <;> first | rfl | cases hstate
  rw [hpower]
  have hother := h other
  by_cases hsame : guard = other
  · subst hsame
    rw [books, hstate] at hother
    rw [books, state?_update_self hstate]
    exact hother.change (hsound guard state hstate) hchange
  · rw [books, state?_update_of_ne hsame]
    exact hother.append_of_other (hchange.of_ne hsame)

end Governor

namespace GovernorRun

variable {settings : StationSettings} {spare : Nat} {seed : Option Int} {entropy : Entropy}
  {outside : OutsideStore} {history : GovernorHistory} {s : Station}

/-- Any calls leave the power manager with what the books say. -/
theorem shown
    (run : GovernorRun (Station.start settings spare seed entropy outside) history s) :
    s.governor.Shown := by
  induction run with
  | start => exact Governor.shown_fresh
  | @step history s run timeline later call ih =>
      have hsteady : Station.Steady { s with timeline } := run.steady.later later
      exact Governor.Shown.changed ih hsteady.sound (hsteady.changed_moment call).1

/-- **Calls to the power manager.**  After any calls to the governor, whatever tickets were given
back and whatever timers ran out, and also if the timer of the last unit could not be set: the calls
about a guard take turns, each list of sources is news, and sources are struck right before a
release.  The guard is held exactly while units are counted, and on behalf of exactly the sources in
the books, which are in strict order. -/
theorem calls_in_order
    (run : GovernorRun (Station.start settings spare seed entropy outside) history s)
    (guard : Guard) :
    s.governor.power.Orderly guard ∧
      (s.governor.power.isHeld guard = true ↔ 0 < s.governor.count guard) ∧
      s.governor.power.attribution guard = (s.governor.books guard).sources ∧
      (s.governor.books guard).sources.Pairwise fun a b => a.lt b = true := by
  obtain ⟨horderly, hheld, hsources⟩ := run.shown guard
  have hcount : s.governor.count guard = (s.governor.books guard).count := by
    cases guard <;> rfl
  refine ⟨horderly, ?_, hsources, ?_⟩
  · rw [hheld, hcount, decide_eq_true_iff]
  · cases hstate : s.governor.state? guard with
    | none =>
        rw [Governor.books, hstate]
        exact List.Pairwise.nil
    | some state =>
        rw [Governor.books, hstate]
        exact List.pairwise_map.mpr (run.steady.sound guard state hstate).rows.sorted

end GovernorRun

/-- A ticket that was never issued gives back the last unit, which was taken for another source.
The sources are struck and the guard is released all the same. -/
theorem calls_in_order_of_forged_ticket :
    ∃ history s, GovernorRun .guarded history s ∧
      s.governor.power.calls.toList = [.acquire .request, .attribute .request [.phone],
        .attribute .request [], .release .request] ∧
      s.governor.power.Orderly .request ∧ ¬ s.governor.power.isHeld .request = true ∧
      s.governor.power.attribution .request = [] := by
  have started : GovernorRun .guarded [] .guarded := .start
  have forged := (started.call (.acquire .request .phone)).call
    (.release ⟨.request, 0, ⟨10042, "org.example"⟩⟩)
  obtain ⟨horderly, hheld, hsources, -⟩ := GovernorRun.calls_in_order forged .request
  refine ⟨_, _, forged, by decide, horderly, fun htaken => ?_, hsources.trans (by decide)⟩
  exact absurd (hheld.mp htaken) (by decide)

end ModemLink
