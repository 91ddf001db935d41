import Mathlib.Algebra.BigOperators.Group.Multiset.Basic
import Mathlib.Data.Multiset.Filter
import ModemLink.Wakelock.Governor

/-!
# What the books of a guard say about its tickets

A guard counts its units and notes for whom they were taken.  Its tickets are handed around outside;
a forced clearing makes all of them worthless at once.  The books are right if they speak of exactly
the tickets that are still good: `Governor.Backs` says so, for a bag of tickets that are out.

* `charges_addUnit`, `charges_dropUnit` -- the list of sources is a bag of units, to which a unit is
  added and from which one is taken;
* `Governor.Backs.acquire` -- a unit that is taken is backed by its ticket;
* `Governor.Backs.release` -- a ticket that is given back is struck, whether it was still good or
  not;
* `Governor.Backs.expire` -- a clearing keeps the books right, and so does a timer that comes too
  late.
-/

namespace ModemLink

namespace WorkSource

theorem lt_iff {a b : WorkSource} :
    a.lt b = true ↔ a.uid < b.uid ∨ a.uid = b.uid ∧ a.package < b.package := by
  simp [lt]

theorem lt_trans {a b c : WorkSource} (hab : a.lt b = true) (hbc : b.lt c = true) :
    a.lt c = true := by
  rw [lt_iff] at *
  rcases hab with hab | ⟨hab, hab'⟩
  · rcases hbc with hbc | ⟨hbc, -⟩
    · exact .inl (UInt32.lt_trans hab hbc)
    · exact .inl (hbc ▸ hab)
  · rcases hbc with hbc | ⟨hbc, hbc'⟩
    · exact .inl (hab ▸ hbc)
    · exact .inr ⟨hab.trans hbc, String.lt_trans hab' hbc'⟩

/-- Of two different sources one comes first. -/
theorem lt_of_ne_of_not_lt {a b : WorkSource} (hne : a ≠ b) (h : ¬ b.lt a = true) :
    a.lt b = true := by
  rw [lt_iff, not_or, not_and] at h
  rw [lt_iff]
  by_cases huid : a.uid = b.uid
  · refine .inr ⟨huid, ?_⟩
    by_contra hpackage
    have hle : b.package ≤ a.package := String.not_lt.mp hpackage
    have hge : a.package ≤ b.package := String.not_lt.mp (h.2 huid.symm)
    rcases a with ⟨uid, package⟩
    rcases b with ⟨uid', package'⟩
    cases huid
    cases String.le_antisymm hge hle
    exact hne rfl
  · rcases UInt32.lt_or_lt_of_ne huid with hlt | hlt
    · exact .inl hlt
    · exact absurd hlt h.1

end WorkSource

namespace GuardState

/-! ## The list of sources -/

/-- The units that rows of sources stand for, each as its source. -/
def charges (rows : List (WorkSource × Nat)) : Multiset WorkSource :=
  (rows.map fun row => Multiset.replicate row.2 row.1).sum

@[simp] theorem charges_nil : charges [] = 0 := rfl

@[simp] theorem charges_cons (source : WorkSource) (units : Nat)
    (rest : List (WorkSource × Nat)) :
    charges ((source, units) :: rest) = Multiset.replicate units source + charges rest := by
  simp [charges]

/-- Rows in the order of their sources, each with a unit at least. -/
structure Rows (rows : List (WorkSource × Nat)) : Prop where
  sorted : rows.Pairwise fun a b => a.1.lt b.1 = true
  positive : ∀ row ∈ rows, 0 < row.2

theorem rows_nil : Rows [] := ⟨List.Pairwise.nil, by simp⟩

/-- One unit more for a source is one unit more. -/
theorem charges_addUnit (source : WorkSource) (rows : List (WorkSource × Nat)) :
    charges (addUnit source rows) = source ::ₘ charges rows := by
  induction rows with
  | nil => rfl
  | cons row rest ih =>
      obtain ⟨first, units⟩ := row
      unfold addUnit
      split
      · rename_i hfirst
        subst hfirst
        simp [Multiset.replicate_succ]
      split
      · simp
      · simp [ih]

/-- The sources of rows with one unit more are the same, and the source of that unit. -/
theorem mem_addUnit {source : WorkSource} {rows : List (WorkSource × Nat)}
    {row : WorkSource × Nat} (h : row ∈ addUnit source rows) :
    0 < row.2 ∧ row.1 = source ∨ ∃ old ∈ rows, old.1 = row.1 ∧ old.2 ≤ row.2 := by
  induction rows with
  | nil =>
      obtain rfl : row = (source, 1) := by simpa [addUnit] using h
      exact .inl ⟨Nat.one_pos, rfl⟩
  | cons first rest ih =>
      unfold addUnit at h
      split at h
      · rename_i hfirst
        rcases List.mem_cons.mp h with rfl | hrest
        · exact .inl ⟨Nat.succ_pos _, hfirst⟩
        · exact .inr ⟨row, by simp [hrest], rfl, Nat.le_refl _⟩
      split at h
      · rcases List.mem_cons.mp h with rfl | hrest
        · exact .inl ⟨Nat.one_pos, rfl⟩
        · exact .inr ⟨row, hrest, rfl, Nat.le_refl _⟩
      · rcases List.mem_cons.mp h with rfl | hrest
        · exact .inr ⟨_, by simp, rfl, Nat.le_refl _⟩
        · rcases ih hrest with hnew | ⟨old, hold, hrow⟩
          · exact .inl hnew
          · exact .inr ⟨old, by simp [hold], hrow⟩

theorem Rows.addUnit {rows : List (WorkSource × Nat)} (h : Rows rows) (source : WorkSource) :
    Rows (addUnit source rows) := by
  refine ⟨?_, fun row hrow => ?_⟩
  · obtain ⟨hsorted, -⟩ := h
    induction rows with
    | nil => simp [GuardState.addUnit]
    | cons first rest ih =>
        obtain ⟨hfirst, hrest⟩ := List.pairwise_cons.mp hsorted
        unfold GuardState.addUnit
        split
        · exact List.pairwise_cons.mpr ⟨hfirst, hrest⟩
        rename_i hne
        split
        · rename_i hlt
          refine List.pairwise_cons.mpr ⟨fun row hrow => ?_, hsorted⟩
          rcases List.mem_cons.mp hrow with rfl | hrow
          · exact hlt
          · exact WorkSource.lt_trans hlt (hfirst row hrow)
        · rename_i hlt
          refine List.pairwise_cons.mpr ⟨fun row hrow => ?_, ih hrest⟩
          rcases mem_addUnit hrow with ⟨-, hsame⟩ | ⟨old, hold, hsame, -⟩
          · rw [hsame]
            exact WorkSource.lt_of_ne_of_not_lt hne hlt
          · rw [← hsame]
            exact hfirst old hold
  · rcases mem_addUnit hrow with ⟨hpos, -⟩ | ⟨old, hold, -, hle⟩
    · exact hpos
    · exact Nat.lt_of_lt_of_le (h.positive old hold) hle

/-- One unit less for a source is one unit less, if it had one. -/
theorem charges_dropUnit {rows : List (WorkSource × Nat)} (h : ∀ row ∈ rows, 0 < row.2)
    (source : WorkSource) : charges (dropUnit source rows) = (charges rows).erase source := by
  induction rows with
  | nil => rfl
  | cons row rest ih =>
      obtain ⟨first, units⟩ := row
      have hpos : 0 < units := h (first, units) (by simp)
      have hrest := ih fun row hrow => h row (by simp [hrow])
      obtain ⟨more, rfl⟩ : ∃ more, units = more + 1 := ⟨units - 1, by omega⟩
      unfold dropUnit
      split
      · rename_i hfirst
        subst hfirst
        split
        · obtain rfl : more = 0 := by omega
          simp
        · simp [Multiset.replicate_succ]
      · rename_i hfirst
        have hnot : source ∉ Multiset.replicate (more + 1) first := by
          intro hmem
          exact hfirst (Multiset.eq_of_mem_replicate hmem).symm
        rw [charges_cons, charges_cons, hrest, Multiset.erase_add_right_neg _ hnot]

/-- The sources of rows with one unit less are some of those before. -/
theorem mem_dropUnit {source : WorkSource} {rows : List (WorkSource × Nat)}
    {row : WorkSource × Nat} (hpos : ∀ row ∈ rows, 0 < row.2) (h : row ∈ dropUnit source rows) :
    0 < row.2 ∧ ∃ old ∈ rows, old.1 = row.1 := by
  induction rows with
  | nil => simp [dropUnit] at h
  | cons first rest ih =>
      have hrestpos : ∀ row ∈ rest, 0 < row.2 := fun row hrow => hpos row (by simp [hrow])
      unfold dropUnit at h
      split at h
      · split at h
        · exact ⟨hrestpos row h, row, by simp [h], rfl⟩
        · rename_i hunits
          rcases List.mem_cons.mp h with rfl | hrest
          · exact ⟨by simp only; omega, first, by simp, rfl⟩
          · exact ⟨hrestpos row hrest, row, by simp [hrest], rfl⟩
      · rcases List.mem_cons.mp h with rfl | hrest
        · exact ⟨hpos _ (by simp), _, by simp, rfl⟩
        · obtain ⟨hrowpos, old, hold, hsame⟩ := ih hrestpos hrest
          exact ⟨hrowpos, old, by simp [hold], hsame⟩

theorem Rows.dropUnit {rows : List (WorkSource × Nat)} (h : Rows rows) (source : WorkSource) :
    Rows (dropUnit source rows) := by
  refine ⟨?_, fun row hrow => (mem_dropUnit h.positive hrow).1⟩
  obtain ⟨hsorted, hpos⟩ := h
  induction rows with
  | nil => simp [GuardState.dropUnit]
  | cons first rest ih =>
      obtain ⟨hfirst, hrest⟩ := List.pairwise_cons.mp hsorted
      have hrestpos : ∀ row ∈ rest, 0 < row.2 := fun row hrow => hpos row (by simp [hrow])
      unfold GuardState.dropUnit
      split
      · split
        · exact hrest
        · exact List.pairwise_cons.mpr ⟨hfirst, hrest⟩
      · refine List.pairwise_cons.mpr ⟨fun row hrow => ?_, ih hrest hrestpos⟩
        obtain ⟨-, old, hold, hsame⟩ := mem_dropUnit hrestpos hrow
        rw [← hsame]
        exact hfirst old hold

/-- Rows without units are no rows. -/
theorem Rows.eq_nil_of_charges {rows : List (WorkSource × Nat)} (h : Rows rows)
    (hnone : charges rows = 0) : rows = [] := by
  cases rows with
  | nil => rfl
  | cons row rest =>
      obtain ⟨first, units⟩ := row
      have hpos : 0 < units := h.positive (first, units) (by simp)
      have hcard := congrArg Multiset.card hnone
      simp at hcard
      omega

/-! ## One guard and its tickets -/

/-- The sources of those tickets that are of the present generation. -/
def standing (state : GuardState) (tickets : Multiset Ticket) : Multiset WorkSource :=
  (tickets.filter (·.generation = state.generation)).map (·.source)

theorem standing_cons_of_eq (state : GuardState) {ticket : Ticket}
    (h : ticket.generation = state.generation) (tickets : Multiset Ticket) :
    state.standing (ticket ::ₘ tickets) = ticket.source ::ₘ state.standing tickets := by
  simp [standing, h]

theorem standing_cons_of_ne {state : GuardState} {ticket : Ticket}
    (h : ticket.generation ≠ state.generation) (tickets : Multiset Ticket) :
    state.standing (ticket ::ₘ tickets) = state.standing tickets := by
  simp [standing, h]

/-- The books of a guard speak of exactly the tickets that are still good, and so does the power
manager. -/
structure Backs (state : GuardState) (guard : Guard) (power : PowerTrace)
    (tickets : Multiset Ticket) : Prop where
  issued : ∀ ticket ∈ tickets, ticket.guard = guard ∧ ticket.generation ≤ state.generation
  charged : charges state.attributed = state.standing tickets
  counted : state.count = (state.standing tickets).card
  rows : Rows state.attributed
  held : power.isHeld guard = decide (0 < state.count)

/-- A unit that is taken is backed by its ticket. -/
theorem Backs.acquire {state : GuardState} {guard : Guard} {power : PowerTrace}
    {tickets : Multiset Ticket} (h : state.Backs guard power tickets) (source : WorkSource)
    (now : Duration) :
    (state.acquire guard source now).1.Backs guard
      (power.append (state.acquire guard source now).2)
      (⟨guard, state.generation, source⟩ ::ₘ tickets) := by
  have hstanding : (state.acquire guard source now).1.standing
      (⟨guard, state.generation, source⟩ ::ₘ tickets) = source ::ₘ state.standing tickets :=
    (state.acquire guard source now).1.standing_cons_of_eq rfl tickets
  refine ⟨?_, ?_, ?_, h.rows.addUnit source, ?_⟩
  · intro ticket hticket
    rcases Multiset.mem_cons.mp hticket with rfl | hticket
    · exact ⟨rfl, Nat.le_refl _⟩
    · exact h.issued ticket hticket
  · rw [hstanding, ← h.charged]
    exact charges_addUnit source state.attributed
  · rw [hstanding, Multiset.card_cons, ← h.counted]
    rfl
  · have hheld := h.held
    simp only [GuardState.acquire]
    split
    · split <;> simp [PowerTrace.append, PowerCall.holds?]
    · rename_i hcount
      have hpos : 0 < state.count := Nat.pos_of_ne_zero hcount
      rw [decide_eq_true hpos] at hheld
      split <;> simp [PowerTrace.append, PowerCall.holds?, hheld]

/-- A unit that is not the last one goes with its ticket. -/
theorem Backs.drop {state : GuardState} {guard : Guard} {power : PowerTrace} {ticket : Ticket}
    {tickets : Multiset Ticket} (h : state.Backs guard power (ticket ::ₘ tickets))
    (hgood : ticket.generation = state.generation) (hmore : state.count - 1 ≠ 0)
    {calls : List PowerCall} (hcalls : (power.append calls).isHeld guard = power.isHeld guard) :
    Backs
      { state with
        count := state.count - 1
        attributed := dropUnit ticket.source state.attributed }
      guard (power.append calls) tickets := by
  have hcharged := h.charged
  have hcounted := h.counted
  rw [standing_cons_of_eq _ hgood] at hcharged hcounted
  rw [Multiset.card_cons] at hcounted
  refine ⟨fun other hother => h.issued other (Multiset.mem_cons_of_mem hother), ?_, ?_,
    h.rows.dropUnit _, ?_⟩
  · change charges (dropUnit ticket.source state.attributed) = state.standing tickets
    rw [charges_dropUnit h.rows.positive, hcharged, Multiset.erase_cons_head]
  · change state.count - 1 = (state.standing tickets).card
    omega
  · have hpos : 0 < state.count := by omega
    have hpos' : 0 < state.count - 1 := Nat.pos_of_ne_zero hmore
    rw [hcalls, h.held, decide_eq_true hpos]
    exact (decide_eq_true hpos').symm

/-- The end of a stretch of holding leaves nobody to hold for. -/
theorem close_of_none {state after : GuardState} {guard : Guard} {now : Duration}
    {calls : List PowerCall} (h : state.close guard now = (after, calls, none)) :
    ∃ heldTotal,
      after = { state with attributed := [], heldSince := none, heldTotal } ∧
        calls = [.attribute guard [], .release guard] := by
  unfold close at h
  split at h
  · cases h
    exact ⟨_, rfl, rfl⟩
  · cases h

/-- Once no ticket is good any more the stretch of holding is ended. -/
theorem Backs.close {state after : GuardState} {guard : Guard} {now : Duration}
    {calls : List PowerCall} {tickets : Multiset Ticket}
    (hclose : state.close guard now = (after, calls, none))
    (hissued : ∀ ticket ∈ tickets, ticket.guard = guard ∧ ticket.generation ≤ state.generation)
    (hcount : state.count = 0) (hnone : state.standing tickets = 0) (power : PowerTrace) :
    after.Backs guard (power.append calls) tickets := by
  obtain ⟨heldTotal, rfl, rfl⟩ := close_of_none hclose
  refine ⟨hissued, hnone.symm, ?_, rows_nil, ?_⟩
  · change state.count = (state.standing tickets).card
    rw [hcount, hnone, Multiset.card_zero]
  · simp [PowerTrace.append, PowerCall.holds?, hcount]

/-- A clearing makes all tickets worthless. -/
theorem standing_of_lt {state : GuardState} {tickets : Multiset Ticket}
    (h : ∀ ticket ∈ tickets, ticket.generation < state.generation) :
    state.standing tickets = 0 := by
  rw [standing, Multiset.map_eq_zero, Multiset.filter_eq_nil]
  exact fun ticket hticket => Nat.ne_of_lt (h ticket hticket)

end GuardState

namespace PowerTrace

/-- Calls that do not concern a guard leave it as it is. -/
theorem isHeld_append_of_none {guard : Guard} {calls : List PowerCall}
    (h : ∀ call ∈ calls, call.holds? guard = none) (trace : PowerTrace) :
    (trace.append calls).isHeld guard = trace.isHeld guard := by
  induction calls generalizing trace with
  | nil => rfl
  | cons call rest ih =>
      have hcall : (trace.push call).isHeld guard = trace.isHeld guard := by
        rw [isHeld_push, h call (by simp)]
        rfl
      rw [← hcall]
      exact ih (fun other hother => h other (by simp [hother])) _

end PowerTrace

namespace Governor

/-! ## The governor -/

/-- The books of a guard speak of exactly those of the tickets that are still good. -/
def Backs (governor : Governor) (guard : Guard) (tickets : Multiset Ticket) : Prop :=
  ∃ state, governor.state? guard = some state ∧ state.Backs guard governor.power tickets

theorem backs_fresh {guard : Guard} (h : guard ≠ .unguarded) : fresh.Backs guard 0 := by
  refine ⟨.fresh, ?_, by simp, rfl, rfl, GuardState.rows_nil, rfl⟩
  cases guard <;> first | rfl | exact absurd rfl h

theorem Backs.update_self {governor : Governor} {guard : Guard} {state old : GuardState}
    {calls : List PowerCall} {tickets : Multiset Ticket} (hold : governor.state? guard = some old)
    (h : state.Backs guard (governor.power.append calls) tickets) :
    (governor.update guard state calls).Backs guard tickets := by
  refine ⟨state, ?_, ?_⟩
  · cases guard with
    | unguarded => cases hold
    | request => rfl
    | ack => rfl
  · cases guard with
    | unguarded => cases hold
    | request => exact h
    | ack => exact h

/-- What happens to another guard is none of this one's business. -/
theorem Backs.update_of_ne {governor : Governor} {guard other : Guard} {tickets : Multiset Ticket}
    (h : governor.Backs guard tickets) (hne : other ≠ guard) (state : GuardState)
    {calls : List PowerCall} (hcalls : ∀ call ∈ calls, call.holds? guard = none) :
    (governor.update other state calls).Backs guard tickets := by
  obtain ⟨own, hown, hbacks⟩ := h
  refine ⟨own, ?_, hbacks.issued, hbacks.charged, hbacks.counted, hbacks.rows, ?_⟩
  · rw [← hown]
    cases guard <;> cases other <;> first | rfl | exact absurd rfl hne
  · rw [← hbacks.held]
    cases other with
    | unguarded => rfl
    | request => exact PowerTrace.isHeld_append_of_none hcalls _
    | ack => exact PowerTrace.isHeld_append_of_none hcalls _

/-- A unit that is taken comes with a ticket of its guard, and the books speak of it. -/
theorem Backs.acquire {governor : Governor} {guard : Guard} {tickets : Multiset Ticket}
    (h : governor.Backs guard tickets) (source : WorkSource) (now : Duration) :
    ∃ grant, (governor.acquire guard source now).1 = some grant ∧
      (governor.acquire guard source now).2.Backs guard (grant.ticket ::ₘ tickets) := by
  obtain ⟨state, hstate, hbacks⟩ := h
  simp only [Governor.acquire, hstate]
  exact ⟨_, rfl, Backs.update_self hstate (hbacks.acquire source now)⟩

/-- The units of another guard are none of this one's business. -/
theorem Backs.acquire_of_ne {governor : Governor} {guard other : Guard}
    {tickets : Multiset Ticket} (h : governor.Backs guard tickets) (hne : other ≠ guard)
    (source : WorkSource) (now : Duration) :
    (governor.acquire other source now).2.Backs guard tickets := by
  unfold Governor.acquire
  split
  · exact h
  · refine h.update_of_ne hne _ ?_
    intro call hcall
    simp only [GuardState.acquire, List.mem_append] at hcall
    rcases hcall with hcall | hcall <;> split at hcall <;> simp at hcall
    · simp [hcall, PowerCall.holds?, hne]
    · simp [hcall, PowerCall.holds?]

/-- A ticket that is given back is struck.  If it was still good its unit goes with it. -/
theorem Backs.release {governor after : Governor} {guard : Guard} {ticket : Ticket}
    {tickets : Multiset Ticket} {now : Duration} {good : Bool}
    (h : governor.Backs guard (ticket ::ₘ tickets))
    (hrelease : Governor.release ticket now governor = .ok good after) :
    after.Backs guard tickets := by
  obtain ⟨state, hstate, hbacks⟩ := h
  obtain ⟨rfl, -⟩ := hbacks.issued ticket (Multiset.mem_cons_self _ _)
  have hissued : ∀ other ∈ tickets,
      other.guard = ticket.guard ∧ other.generation ≤ state.generation :=
    fun other hother => hbacks.issued other (Multiset.mem_cons_of_mem hother)
  simp only [Governor.release, hstate] at hrelease
  split at hrelease
  · -- a clearing has made the ticket worthless
    rename_i hgeneration
    cases hrelease
    have hcharged := hbacks.charged
    have hcounted := hbacks.counted
    rw [GuardState.standing_cons_of_ne hgeneration] at hcharged hcounted
    exact ⟨state, hstate, hissued, hcharged, hcounted, hbacks.rows, hbacks.held⟩
  rename_i hgeneration
  have hgood := not_not.mp hgeneration
  have hcounted := hbacks.counted
  rw [GuardState.standing_cons_of_eq _ hgood, Multiset.card_cons] at hcounted
  split at hrelease
  · omega
  split at hrelease
  · -- the last unit of the guard
    rename_i hlast
    have hnone : state.standing tickets = 0 := by
      rw [← Multiset.card_eq_zero]
      omega
    split at hrelease
    · rename_i hclose
      cases hrelease
      exact Backs.update_self hstate (GuardState.Backs.close hclose hissued hlast hnone _)
    · cases hrelease
  · rename_i hcount
    cases hrelease
    refine Backs.update_self hstate (hbacks.drop hgood hcount ?_)
    split <;> simp [PowerTrace.append, PowerCall.holds?]

/-- A timer that runs out keeps the books right: either it comes too late to matter, or it clears
the guard and no ticket is good any more. -/
theorem Backs.expire {governor after : Governor} {guard : Guard} {tickets : Multiset Ticket}
    {sequence : Nat} {now : Duration} {cleared : Bool} (h : governor.Backs guard tickets)
    (hexpire : Governor.expire guard sequence now governor = .ok cleared after) :
    after.Backs guard tickets := by
  obtain ⟨state, hstate, hbacks⟩ := h
  simp only [Governor.expire, hstate] at hexpire
  split at hexpire
  · cases hexpire
    exact ⟨state, hstate, hbacks⟩
  split at hexpire
  · cases hexpire
    exact ⟨state, hstate, hbacks⟩
  split at hexpire
  · rename_i hclose
    cases hexpire
    refine Backs.update_self hstate (GuardState.Backs.close hclose ?_ rfl ?_ _)
    · intro ticket hticket
      obtain ⟨hguard, hle⟩ := hbacks.issued ticket hticket
      exact ⟨hguard, Nat.le_succ_of_le hle⟩
    · refine GuardState.standing_of_lt fun ticket hticket => ?_
      exact Nat.lt_succ_of_le (hbacks.issued ticket hticket).2
  · cases hexpire

/-- The timers of another guard are none of this one's business. -/
theorem Backs.expire_of_ne {governor after : Governor} {guard other : Guard}
    {tickets : Multiset Ticket} {sequence : Nat} {now : Duration} {cleared : Bool}
    (h : governor.Backs guard tickets) (hne : other ≠ guard)
    (hexpire : Governor.expire other sequence now governor = .ok cleared after) :
    after.Backs guard tickets := by
  unfold Governor.expire at hexpire
  split at hexpire
  · cases hexpire
    exact h
  split at hexpire
  · cases hexpire
    exact h
  split at hexpire
  · cases hexpire
    exact h
  dsimp only at hexpire
  split at hexpire
  · rename_i hclose
    obtain ⟨heldTotal, rfl, rfl⟩ := GuardState.close_of_none hclose
    cases hexpire
    refine h.update_of_ne hne _ ?_
    intro call hcall
    rcases List.mem_pair.mp hcall with rfl | rfl
    · rfl
    · simp [PowerCall.holds?, hne]
  · cases hexpire

end Governor

end ModemLink
