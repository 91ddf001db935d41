import ModemLink.Proofs.Accounts
import ModemLink.Proofs.UnitTimers

/-!
# Units that are out

Tickets of both guards are out at the same time, some with requests, some with nobody who will ever
give them back.  A governor that owes them has books that speak of exactly those that are still
good.  So a ticket of the present generation is never refused, and every unit that leaves the count
of a guard leaves it with the ticket that was given back.

* `Governor.honours`, `Governor.worth` -- whether a ticket is still good, and for how much;
* `Governor.BacksAll.acquire`, `Governor.BacksAll.release`, `Governor.BacksAll.expire` -- what may
  happen to the units that are out;
* `Governor.Owes` -- the same, with units that nobody gives back.
-/

namespace ModemLink

namespace Governor

variable {governor after : Governor} {guard other : Guard} {ticket : Ticket}
  {units : Multiset Ticket} {tickets : Multiset Ticket} {now : Duration}

/-- A ticket is of the present generation of its guard. -/
def honours (governor : Governor) (ticket : Ticket) : Bool :=
  (governor.state? ticket.guard).any (·.generation == ticket.generation)

/-- The units of a guard that are given back with a ticket. -/
def worth (governor : Governor) (guard : Guard) : Option Ticket → Nat
  | none => 0
  | some ticket => if ticket.guard = guard ∧ governor.honours ticket then 1 else 0

/-- The tickets of a guard. -/
def ofGuard (guard : Guard) (units : Multiset Ticket) : Multiset Ticket :=
  units.filter (·.guard = guard)

theorem ofGuard_cons_self (ticket : Ticket) (units : Multiset Ticket) :
    ofGuard ticket.guard (ticket ::ₘ units) = ticket ::ₘ ofGuard ticket.guard units :=
  Multiset.filter_cons_of_pos _ rfl

theorem ofGuard_cons_of_ne (hne : ticket.guard ≠ guard) (units : Multiset Ticket) :
    ofGuard guard (ticket ::ₘ units) = ofGuard guard units :=
  Multiset.filter_cons_of_neg _ hne

/-- Work without a guard has no ticket that is good. -/
theorem honours_unguarded (h : ticket.guard = .unguarded) : governor.honours ticket = false := by
  rw [honours, h]
  rfl

theorem honours_of_state {state : GuardState} (h : governor.state? ticket.guard = some state) :
    governor.honours ticket = (state.generation == ticket.generation) := by
  rw [honours, h]
  rfl

theorem count_of_state {state : GuardState} (h : governor.state? guard = some state) :
    governor.count guard = state.count := by
  rw [count, h]

/-- A unit that is taken is one more unit of its guard. -/
theorem count_acquire (governor : Governor) (guard other : Guard) (source : WorkSource)
    (now : Duration) :
    (governor.acquire guard source now).2.count other =
      governor.count other + if guard = other ∧ other ≠ .unguarded then 1 else 0 := by
  cases guard <;> cases other <;> rfl

/-- To take a unit makes no ticket better or worse. -/
theorem honours_acquire (governor : Governor) (guard : Guard) (source : WorkSource)
    (now : Duration) (ticket : Ticket) :
    (governor.acquire guard source now).2.honours ticket = governor.honours ticket := by
  unfold honours
  cases guard <;> cases ticket.guard <;> rfl

/-- Giving a ticket back makes no other ticket better or worse. -/
theorem honours_release {good : Bool} (h : release ticket now governor = .ok good after)
    (other : Ticket) : after.honours other = governor.honours other := by
  cases hstate : governor.state? other.guard with
  | none =>
      have hunguarded : other.guard = .unguarded := by
        cases hguard : other.guard <;> rw [hguard] at hstate <;> first | rfl | cases hstate
      rw [honours_unguarded hunguarded, honours_unguarded hunguarded]
  | some state =>
      obtain ⟨changed, hchanged, -, -, hgeneration⟩ := state?_release hstate h
      rw [honours_of_state hstate, honours_of_state hchanged, hgeneration]

theorem Returned.honours {unit : Option Ticket} (h : governor.Returned now unit after)
    (other : Ticket) : after.honours other = governor.honours other := by
  cases unit with
  | none =>
      obtain rfl : after = governor := h
      rfl
  | some ticket =>
      obtain ⟨good, hrelease⟩ := h
      exact honours_release hrelease other

/-- The tickets of another guard are none of this one's business. -/
theorem Backs.release_of_ne {good : Bool} (h : governor.Backs guard tickets)
    (hne : ticket.guard ≠ guard)
    (hrelease : Governor.release ticket now governor = .ok good after) :
    after.Backs guard tickets := by
  unfold Governor.release at hrelease
  dsimp only at hrelease
  split at hrelease
  · cases hrelease
    exact h
  split at hrelease
  · cases hrelease
    exact h
  split at hrelease
  · cases hrelease
    exact h
  split at hrelease
  · split at hrelease
    · rename_i hclose
      obtain ⟨heldTotal, rfl, rfl⟩ := GuardState.close_of_none hclose
      cases hrelease
      refine h.update_of_ne hne _ fun call hcall => ?_
      rcases List.mem_pair.mp hcall with rfl | rfl
      · rfl
      · simp [PowerCall.holds?, hne]
    · cases hrelease
  · cases hrelease
    refine h.update_of_ne hne _ fun call hcall => ?_
    split at hcall
    · obtain rfl := List.mem_singleton.mp hcall
      rfl
    · cases hcall

/-- A ticket that is given back is refused exactly if it is not good any more, and what it is worth
goes off the count of its guard. -/
theorem Backs.release_own {good : Bool} (h : governor.Backs ticket.guard (ticket ::ₘ tickets))
    (hrelease : Governor.release ticket now governor = .ok good after) :
    good = governor.honours ticket ∧
      governor.count ticket.guard =
        after.count ticket.guard + governor.worth ticket.guard (some ticket) := by
  obtain ⟨state', hstate', hafter⟩ := h.release hrelease
  obtain ⟨state, hstate, hbacks⟩ := h
  obtain ⟨changed, hchanged, -, -, hgeneration⟩ := state?_release hstate hrelease
  rw [hstate'] at hchanged
  cases hchanged
  have hcounted := hbacks.counted
  have hcounted' := hafter.counted
  have hsame : state'.standing tickets = state.standing tickets := by
    rw [GuardState.standing, GuardState.standing, hgeneration]
  rw [hsame] at hcounted'
  rw [count_of_state hstate, count_of_state hstate', worth, honours_of_state hstate]
  by_cases hgood : ticket.generation = state.generation
  · rw [GuardState.standing_cons_of_eq _ hgood, Multiset.card_cons] at hcounted
    have hpos : state.count ≠ 0 := by omega
    refine ⟨?_, ?_⟩
    · simp only [Governor.release, hstate, hgood, ne_eq, not_true_eq_false, if_false, hpos]
        at hrelease
      split at hrelease
      · split at hrelease <;> cases hrelease
        simp [hgood]
      · cases hrelease
        simp [hgood]
    · simp only [hgood, beq_self_eq_true, and_self, if_true]
      omega
  · rw [GuardState.standing_cons_of_ne hgood] at hcounted
    have hne : ¬ state.generation = ticket.generation := fun heq => hgood heq.symm
    refine ⟨?_, ?_⟩
    · simp only [Governor.release, hstate, ne_eq, hgood, not_false_eq_true, if_true] at hrelease
      cases hrelease
      simp [hne]
    · simp only [beq_iff_eq, hne, and_false, if_false]
      omega

/-! ## Both guards -/

/-- The books of both guards speak of exactly those of the units that are still good. -/
def BacksAll (governor : Governor) (units : Multiset Ticket) : Prop :=
  ∀ guard, guard ≠ .unguarded → governor.Backs guard (ofGuard guard units)

theorem backsAll_fresh : fresh.BacksAll 0 := fun _ hguard => backs_fresh hguard

namespace BacksAll

/-- A unit that is taken is out, and it is good. -/
theorem acquire (h : governor.BacksAll units) (guard : Guard) (source : WorkSource)
    (now : Duration) :
    (governor.acquire guard source now).2.BacksAll
      (((governor.acquire guard source now).1.map (·.ticket)).elim 0 singleton + units) := by
  intro own hown
  by_cases hguard : guard = own
  · subst hguard
    obtain ⟨grant, hgrant, hbacks⟩ := (h guard hown).acquire source now
    have hticket : grant.ticket.guard = guard := by
      obtain ⟨state, -, hstate⟩ := hbacks
      exact (hstate.issued _ (Multiset.mem_cons_self _ _)).1
    rw [hgrant]
    change Backs _ _ (ofGuard guard ({grant.ticket} + units))
    rw [Multiset.singleton_add, ← hticket, ofGuard_cons_self, hticket]
    exact hbacks
  · have hother := (h own hown).acquire_of_ne hguard source now
    cases hgrant : (governor.acquire guard source now).1 with
    | none =>
        change Backs _ _ (ofGuard own (0 + units))
        rwa [zero_add]
    | some grant =>
        have hticket : grant.ticket.guard = guard := by
          unfold Governor.acquire at hgrant
          split at hgrant <;> cases hgrant
          rfl
        change Backs _ _ (ofGuard own ({grant.ticket} + units))
        rw [Multiset.singleton_add, ofGuard_cons_of_ne (by rwa [hticket])]
        exact hother

/-- A ticket that is given back is out no longer.  It is refused exactly if it is not good any more,
and no guard loses more units than it is worth. -/
theorem release {good : Bool} (h : governor.BacksAll (ticket ::ₘ units))
    (hrelease : Governor.release ticket now governor = .ok good after) :
    after.BacksAll units ∧ good = governor.honours ticket ∧
      ∀ guard, governor.count guard = after.count guard + governor.worth guard (some ticket) := by
  have hother : ∀ guard, ticket.guard ≠ guard →
      governor.count guard = after.count guard + governor.worth guard (some ticket) := by
    intro guard hne
    rw [count, count, state?_release_of_ne hne hrelease, worth, if_neg (fun heq => hne heq.1)]
    rfl
  have hrest : ∀ guard, guard ≠ .unguarded → ticket.guard ≠ guard →
      after.Backs guard (ofGuard guard units) := by
    intro guard hguard hne
    have hbacks := h guard hguard
    rw [ofGuard_cons_of_ne hne] at hbacks
    exact hbacks.release_of_ne hne hrelease
  by_cases hticket : ticket.guard = .unguarded
  · have hnone : governor.state? ticket.guard = none := by rw [hticket]; rfl
    have hrefused : good = false ∧ after = governor := by
      simp only [Governor.release, hnone] at hrelease
      cases hrelease
      exact ⟨rfl, rfl⟩
    refine ⟨fun guard hguard => hrest guard hguard (fun heq => hguard (heq ▸ hticket)), ?_,
      fun guard => ?_⟩
    · rw [honours_unguarded hticket, hrefused.1]
    · rw [worth, honours_unguarded hticket, if_neg (by simp), hrefused.2]
      rfl
  · have hbacks := h ticket.guard hticket
    rw [ofGuard_cons_self] at hbacks
    obtain ⟨hgood, hcount⟩ := hbacks.release_own hrelease
    refine ⟨fun guard hguard => ?_, hgood, fun guard => ?_⟩
    · by_cases hne : ticket.guard = guard
      · subst hne
        exact hbacks.release hrelease
      · exact hrest guard hguard hne
    · by_cases hne : ticket.guard = guard
      · subst hne
        exact hcount
      · exact hother guard hne

/-- A timer that runs out changes nothing about which units are out: either it comes too late to
matter, or no unit of its guard is good any more. -/
theorem expire {sequence : Nat} {cleared : Bool} (h : governor.BacksAll units)
    (hexpire : Governor.expire guard sequence now governor = .ok cleared after) :
    after.BacksAll units := by
  intro own hown
  by_cases hguard : guard = own
  · subst hguard
    exact (h guard hown).expire hexpire
  · exact (h own hown).expire_of_ne hguard hexpire

end BacksAll

/-- The books of both guards speak of exactly those of the units that are still good, and of some
that nobody gives back. -/
def Owes (governor : Governor) (units : Multiset Ticket) : Prop :=
  ∃ kept : Multiset Ticket, ∀ guard, guard ≠ .unguarded →
    governor.Backs guard (ofGuard guard (units + kept))

theorem owes_fresh : fresh.Owes 0 := ⟨0, backsAll_fresh⟩

namespace Owes

/-- A unit that is taken is out, and it is good. -/
theorem acquire (h : governor.Owes units) (guard : Guard) (source : WorkSource) (now : Duration) :
    (governor.acquire guard source now).2.Owes
      (((governor.acquire guard source now).1.map (·.ticket)).elim 0 singleton + units) := by
  obtain ⟨kept, hkept⟩ := h
  have hall := BacksAll.acquire hkept guard source now
  rw [← add_assoc] at hall
  exact ⟨kept, hall⟩

/-- A unit that nobody gives back is not among those that are out. -/
theorem acquire_kept (h : governor.Owes units) (guard : Guard) (source : WorkSource)
    (now : Duration) : (governor.acquire guard source now).2.Owes units := by
  obtain ⟨kept, hkept⟩ := h.acquire guard source now
  refine ⟨((governor.acquire guard source now).1.map (·.ticket)).elim 0 singleton + kept, ?_⟩
  intro own hown
  rw [← add_assoc, add_comm units]
  exact hkept own hown

/-- A ticket that is given back is out no longer.  It is refused exactly if it is not good any more,
and no guard loses more units than it is worth. -/
theorem release {good : Bool} (h : governor.Owes (ticket ::ₘ units))
    (hrelease : Governor.release ticket now governor = .ok good after) :
    after.Owes units ∧ good = governor.honours ticket ∧
      ∀ guard, governor.count guard = after.count guard + governor.worth guard (some ticket) := by
  obtain ⟨kept, hkept⟩ := h
  have hall : governor.BacksAll (ticket ::ₘ (units + kept)) := by
    rw [← Multiset.cons_add]
    exact hkept
  obtain ⟨hafter, hgood, hcount⟩ := hall.release hrelease
  exact ⟨⟨kept, hafter⟩, hgood, hcount⟩

/-- A settled request is one whose unit is not out any more. -/
theorem returned {request : PendingRequest} {requests : Multiset PendingRequest}
    (h : governor.Owes (ModemLink.tickets (request ::ₘ requests)))
    (hreturned : governor.Returned now request.ticket after) :
    after.Owes (ModemLink.tickets requests) ∧
      ∀ guard, governor.count guard = after.count guard + governor.worth guard request.ticket := by
  cases hticket : request.ticket with
  | none =>
      rw [ModemLink.tickets, Multiset.filterMap_cons_none _ _ hticket] at h
      rw [hticket] at hreturned
      obtain rfl : after = governor := hreturned
      exact ⟨h, fun _ => rfl⟩
  | some ticket =>
      rw [ModemLink.tickets, Multiset.filterMap_cons_some _ _ _ hticket] at h
      rw [hticket] at hreturned
      obtain ⟨good, hrelease⟩ := hreturned
      obtain ⟨howes, -, hcount⟩ := h.release hrelease
      exact ⟨howes, hcount⟩

/-- A timer that runs out changes nothing about what is owed. -/
theorem expire {sequence : Nat} {cleared : Bool} (h : governor.Owes units)
    (hexpire : Governor.expire guard sequence now governor = .ok cleared after) :
    after.Owes units := by
  obtain ⟨kept, hkept⟩ := h
  exact ⟨kept, BacksAll.expire hkept hexpire⟩

end Owes

end Governor

end ModemLink
