import Mathlib.Data.List.Nodup
import ModemLink.Ledger
import ModemLink.Proofs.SlotTable

/-!
# The ledger as a map from serials to requests

The ledger finds a request through an index of places into a slot table whose values move about.
Seen from outside none of that shows: the ledger is a bag of requests with different serials.

* `WellFormed` -- the index names exactly the places in use, each under the serial of its request;
* `WellFormed.enroll`, `WellFormed.perm_requests_enroll` -- an admission adds one request, under a
  serial that no other one has, as long as some serial is free;
* `WellFormed.complete_of_mem`, `WellFormed.complete_of_none` -- a completion takes out the request
  of its serial and no other;
* `WellFormed.acknowledged` -- an acknowledgment exchanges a request for the same one without its
  ticket;
* `perm_fst_drain` -- a drain hands every request out.
-/

namespace ModemLink

open scoped List

namespace SerialCounter

/-- The counter after so many serials were handed out. -/
def after (counter : SerialCounter) (steps : Nat) : SerialCounter :=
  ⟨⟨(counter.upcoming.val + steps) % Serial.space, Nat.mod_lt _ (by decide)⟩⟩

theorem after_zero (counter : SerialCounter) : counter.after 0 = counter := by
  rcases counter with ⟨⟨n, hn⟩⟩
  simp [after, Nat.mod_eq_of_lt hn]

theorem after_next (counter : SerialCounter) (steps : Nat) :
    counter.next.after steps = counter.after (steps + 1) := by
  simp only [after, val_next, Nat.mod_add_mod]
  congr 3
  omega

theorem next_after (counter : SerialCounter) (steps : Nat) :
    (counter.after steps).next = counter.after (steps + 1) := by
  simp only [next, after, Nat.mod_add_mod, Nat.add_assoc]

/-- Fewer steps than there are serials never meet a serial twice. -/
theorem peek_after_inj {counter : SerialCounter} {i j : Nat} (hi : i < Serial.space)
    (hj : j < Serial.space) (h : (counter.after i).peek = (counter.after j).peek) : i = j := by
  have hval : (counter.upcoming.val + i) % Serial.space =
      (counter.upcoming.val + j) % Serial.space :=
    Int.ofNat_inj.mp (congrArg Serial.number h)
  have hlt := counter.upcoming.isLt
  unfold Serial.space at *
  omega

end SerialCounter

namespace Ledger

/-- The search for a free serial passes over taken ones only, and ends at a free one unless all that
it may look at are taken. -/
theorem freeSerial_spec (index : Std.HashMap Serial Nat) (rounds : Nat) (counter : SerialCounter) :
    ∃ k ≤ rounds, freeSerial index rounds counter = (counter.after k).issue ∧
      (∀ j < k, index.contains (counter.after j).peek = true) ∧
      (index.contains (counter.after k).peek = true → k = rounds) := by
  induction rounds generalizing counter with
  | zero =>
      exact ⟨0, Nat.le_refl _, by rw [SerialCounter.after_zero]; rfl, by simp, fun _ => rfl⟩
  | succ rounds ih =>
      by_cases htaken : index.contains counter.peek = true
      · obtain ⟨k, hk, heq, hpassed, hend⟩ := ih counter.next
        refine ⟨k + 1, by omega, ?_, fun j hj => ?_, fun h => ?_⟩
        · rw [freeSerial, if_pos htaken, heq, SerialCounter.after_next]
        · cases j with
          | zero => rwa [SerialCounter.after_zero]
          | succ j =>
              rw [← SerialCounter.after_next]
              exact hpassed j (by omega)
        · rw [← SerialCounter.after_next] at h
          rw [hend h]
      · refine ⟨0, by omega, ?_, by simp, fun h => ?_⟩
        · rw [SerialCounter.after_zero]
          exact freeSerial_of_not_contains (by simpa using htaken) _
        · rw [SerialCounter.after_zero] at h
          exact absurd h htaken

/-- As long as the index leaves a serial free, the search finds one: it may look at one serial more
than the index holds. -/
theorem contains_freeSerial {index : Std.HashMap Serial Nat} (hroom : index.size < Serial.space)
    (counter : SerialCounter) :
    index.contains (freeSerial index index.size counter).1 = false := by
  obtain ⟨k, hk, heq, hpassed, hend⟩ := freeSerial_spec index index.size counter
  rw [heq, SerialCounter.issue_fst]
  by_contra htaken
  rw [Bool.not_eq_false] at htaken
  have hks := hend htaken
  have hall : ∀ j < index.size + 1, index.contains (counter.after j).peek = true := by
    intro j hj
    rcases Nat.lt_or_eq_of_le (Nat.le_of_lt_succ hj) with hlt | rfl
    · exact hpassed j (by omega)
    · rwa [← hks]
  have hnodup : ((List.range (index.size + 1)).map fun j => (counter.after j).peek).Nodup := by
    refine List.Nodup.map_on ?_ List.nodup_range
    intro i hi j hj h
    exact SerialCounter.peek_after_inj (by have := List.mem_range.mp hi; omega)
      (by have := List.mem_range.mp hj; omega) h
  have hsub : ((List.range (index.size + 1)).map fun j => (counter.after j).peek) ⊆
      index.keys := by
    intro serial hserial
    obtain ⟨j, hj, rfl⟩ := List.mem_map.mp hserial
    exact Std.HashMap.mem_keys.mpr
      (Std.HashMap.contains_iff_mem.mp (hall j (List.mem_range.mp hj)))
  have hlen := hnodup.length_le_of_subset hsub
  rw [List.length_map, List.length_range, Std.HashMap.length_keys] at hlen
  omega

/-- An index names exactly the places in use, each under the serial of its request. -/
def Indexes (index : Std.HashMap Serial Nat) (places : Nat → Option PendingRequest) : Prop :=
  ∀ serial slot, index[serial]? = some slot ↔
    ∃ request, places slot = some request ∧ request.serial = serial

/-- A new request in an empty place is named by one entry more. -/
theorem Indexes.insert {index : Std.HashMap Serial Nat} {places : Nat → Option PendingRequest}
    (h : Indexes index places) {slot : Nat} (request : PendingRequest)
    (hempty : places slot = none) (hfresh : index[request.serial]? = none) :
    Indexes (index.insert request.serial slot)
      (fun j => if j = slot then some request else places j) := by
  intro serial j
  simp only [Std.HashMap.getElem?_insert, beq_iff_eq]
  by_cases hserial : request.serial = serial
  · subst hserial
    rw [if_pos rfl]
    constructor
    · intro hj
      have hj : slot = j := by simpa using hj
      exact ⟨request, if_pos hj.symm, rfl⟩
    · rintro ⟨other, hother, hsame⟩
      split at hother
      · rename_i hj
        rw [hj]
      · have := (h request.serial j).mpr ⟨other, hother, hsame⟩
        rw [hfresh] at this
        cases this
  · rw [if_neg hserial, h]
    constructor
    · rintro ⟨other, hother, hsame⟩
      refine ⟨other, ?_, hsame⟩
      rw [if_neg ?_, hother]
      rintro rfl
      rw [hempty] at hother
      cases hother
    · rintro ⟨other, hother, hsame⟩
      split at hother
      · cases hother
        exact absurd hsame hserial
      · exact ⟨other, hother, hsame⟩

/-- A place that was emptied is named no longer. -/
theorem Indexes.erase {index : Std.HashMap Serial Nat} {places : Nat → Option PendingRequest}
    (h : Indexes index places) {slot : Nat} {request : PendingRequest}
    (hslot : places slot = some request) :
    Indexes (index.erase request.serial) (fun j => if j = slot then none else places j) := by
  intro serial j
  simp only [Std.HashMap.getElem?_erase, beq_iff_eq]
  by_cases hserial : request.serial = serial
  · subst hserial
    simp only [if_true, reduceCtorEq, false_iff, not_exists, not_and]
    intro other hother hsame
    split at hother
    · cases hother
    · rename_i hj
      have h1 := (h request.serial j).mpr ⟨other, hother, hsame⟩
      have h2 := (h request.serial slot).mpr ⟨request, hslot, rfl⟩
      rw [h1] at h2
      exact hj (Option.some.inj h2)
  · rw [if_neg hserial, h]
    constructor
    · rintro ⟨other, hother, hsame⟩
      refine ⟨other, ?_, hsame⟩
      rw [if_neg ?_, hother]
      rintro rfl
      rw [hslot] at hother
      cases hother
      exact hserial hsame
    · rintro ⟨other, hother, hsame⟩
      split at hother
      · cases hother
      · exact ⟨other, hother, hsame⟩

/-- A request that moved to an empty place is named there, its old entry being overwritten. -/
theorem Indexes.relocate {index : Std.HashMap Serial Nat} {places : Nat → Option PendingRequest}
    (h : Indexes index places) (source goal : Nat) {request : PendingRequest}
    (hsource : places source = some request) (hgoal : places goal = none) :
    Indexes (index.insert request.serial goal)
      (fun j => if j = goal then some request else if j = source then none else places j) := by
  have hempty : (fun j => if j = source then none else places j) goal = none := by
    simp [hgoal]
  intro serial j
  rw [← (h.erase hsource).insert request hempty (by simp) serial j]
  simp only [Std.HashMap.getElem?_insert, Std.HashMap.getElem?_erase, beq_iff_eq]
  split
  · rfl
  · rfl

/-- The slot table is well formed, and the index names its places. -/
structure WellFormed (ledger : Ledger) : Prop where
  table : ledger.table.WellFormed
  index : Indexes ledger.index ledger.table.get?

theorem wellFormed_empty (spareCapacity : Nat) (counter : SerialCounter) :
    (empty spareCapacity counter).WellFormed :=
  ⟨SlotTable.wellFormed_empty _, by simp [Indexes, empty, SlotTable.empty, SlotTable.get?]⟩

theorem mem_requests_iff {ledger : Ledger} {request : PendingRequest} :
    request ∈ ledger.requests ↔ ∃ slot, ledger.table.get? slot = some request :=
  SlotTable.mem_values_iff

/-- A serial is in the index exactly when a pending request has it. -/
theorem WellFormed.index_eq_none_iff {ledger : Ledger} (h : ledger.WellFormed) {serial : Serial} :
    ledger.index[serial]? = none ↔ ∀ request ∈ ledger.requests, request.serial ≠ serial := by
  constructor
  · intro hnone request hmem hserial
    obtain ⟨slot, hslot⟩ := mem_requests_iff.mp hmem
    have := (h.index serial slot).mpr ⟨request, hslot, hserial⟩
    rw [hnone] at this
    cases this
  · intro hall
    cases hindex : ledger.index[serial]? with
    | none => rfl
    | some slot =>
        obtain ⟨request, hslot, hserial⟩ := (h.index serial slot).mp hindex
        exact absurd hserial (hall request (mem_requests_iff.mpr ⟨slot, hslot⟩))

/-- No two pending requests have one serial. -/
theorem WellFormed.serial_inj {ledger : Ledger} (h : ledger.WellFormed) {a b : PendingRequest}
    (ha : a ∈ ledger.requests) (hb : b ∈ ledger.requests) (hab : a.serial = b.serial) : a = b := by
  obtain ⟨i, hi⟩ := mem_requests_iff.mp ha
  obtain ⟨j, hj⟩ := mem_requests_iff.mp hb
  have hii := (h.index a.serial i).mpr ⟨a, hi, rfl⟩
  have hij := (h.index a.serial j).mpr ⟨b, hj, hab.symm⟩
  have : i = j := by simpa [hii] using hij
  subst this
  simpa [hi] using hj

/-- The pending requests have serials of their own. -/
theorem WellFormed.nodup_serials {ledger : Ledger} (h : ledger.WellFormed) :
    (ledger.requests.map (·.serial)).Nodup := by
  rw [List.Nodup, List.pairwise_map]
  change (ledger.table.slots.toList.filterMap id).Pairwise _
  rw [List.pairwise_filterMap, List.pairwise_iff_getElem]
  intro i j hi hj hij a ha b hb hserial
  have hplace : ∀ k (request : PendingRequest),
      ledger.table.slots.toList[k]? = some (some request) →
      ledger.index[request.serial]? = some k := by
    intro k request hk
    refine (h.index request.serial k).mpr ⟨request, SlotTable.get?_eq_some_iff.mpr ?_, rfl⟩
    simpa using hk
  have hia := hplace i a (by rw [List.getElem?_eq_getElem hi]; exact congrArg some ha)
  have hjb := hplace j b (by rw [List.getElem?_eq_getElem hj]; exact congrArg some hb)
  rw [hserial, hjb] at hia
  have heq : j = i := Option.some.inj hia
  omega

/-- The size of a ledger is the number of its requests. -/
theorem WellFormed.size_eq {ledger : Ledger} (h : ledger.WellFormed) :
    ledger.size = ledger.requests.length :=
  h.table.count_eq

/-- The index has no more entries than there are requests. -/
theorem WellFormed.size_index_le {ledger : Ledger} (h : ledger.WellFormed) :
    ledger.index.size ≤ ledger.size := by
  have hsub : ledger.index.keys ⊆ ledger.requests.map (·.serial) := by
    intro serial hmem
    have hin := Std.HashMap.mem_keys.mp hmem
    obtain ⟨slot, hslot⟩ := Option.isSome_iff_exists.mp
      (Std.HashMap.mem_iff_isSome_getElem?.mp hin)
    obtain ⟨request, hget, hserial⟩ := (h.index serial slot).mp hslot
    exact List.mem_map.mpr ⟨request, mem_requests_iff.mpr ⟨slot, hget⟩, hserial⟩
  have hlen := Std.HashMap.nodup_keys.length_le_of_subset hsub
  rwa [Std.HashMap.length_keys, List.length_map, ← h.size_eq] at hlen

/-! ## Admission -/

/-- The request that an admission under a serial makes. -/
def Enrollment.under (request : Enrollment) (serial : Serial) : PendingRequest :=
  { serial
    kind := request.kind
    target := request.target
    source := request.source
    ticket := request.ticket
    state := .sent
    submittedAt := request.submittedAt }

/-- The ledger after an admission, part by part. -/
theorem enroll_snd (ledger : Ledger) (request : Enrollment) :
    (ledger.enroll request).2 =
      { table := (ledger.table.insert (request.under (ledger.enroll request).1)).2
        index := ledger.index.insert (ledger.enroll request).1
          (ledger.table.insert (request.under (ledger.enroll request).1)).1
        counter := (freeSerial ledger.index ledger.index.size ledger.counter).2 } := rfl

/-- No pending request has the serial of an admission. -/
theorem WellFormed.serial_enroll_ne {ledger : Ledger} (h : ledger.WellFormed)
    (hroom : ledger.size < Serial.space) (request : Enrollment) :
    ∀ other ∈ ledger.requests, other.serial ≠ (ledger.enroll request).1 := by
  rw [← h.index_eq_none_iff, enroll_fst]
  have hfree := contains_freeSerial (Nat.lt_of_le_of_lt h.size_index_le hroom) ledger.counter
  exact Std.HashMap.getElem?_eq_none_of_contains_eq_false hfree

/-- An admission adds its request to the others. -/
theorem WellFormed.perm_requests_enroll {ledger : Ledger} (h : ledger.WellFormed)
    (request : Enrollment) :
    (ledger.enroll request).2.requests ~
      request.under (ledger.enroll request).1 :: ledger.requests := by
  rw [enroll_snd]
  exact SlotTable.perm_values_insert h.table _

theorem WellFormed.enroll {ledger : Ledger} (h : ledger.WellFormed)
    (hroom : ledger.size < Serial.space) (request : Enrollment) :
    (ledger.enroll request).2.WellFormed := by
  have hfresh := h.serial_enroll_ne hroom request
  rw [← h.index_eq_none_iff] at hfresh
  rw [enroll_snd]
  refine ⟨h.table.insert _, ?_⟩
  rw [show _ = _ from funext (SlotTable.get?_insert h.table _)]
  exact h.index.insert (request.under (ledger.enroll request).1)
    (SlotTable.get?_insert_fst h.table _) hfresh

/-! ## Completion -/

/-- The completion of a serial that no request has changes nothing. -/
theorem WellFormed.complete_of_none {ledger : Ledger} (h : ledger.WellFormed) {serial : Serial}
    (hnone : ∀ request ∈ ledger.requests, request.serial ≠ serial) :
    ledger.complete serial = (none, ledger) := by
  rw [← h.index_eq_none_iff] at hnone
  simp [complete, hnone]

/-- What the completion of a pending request leaves behind. -/
structure Completed (ledger : Ledger) (request : PendingRequest) (after : Ledger) : Prop where
  wellFormed : after.WellFormed
  requests : ledger.requests ~ request :: after.requests

/-- The serial of a completed request is pending no more. -/
theorem Completed.serial_ne {ledger after : Ledger} {request : PendingRequest}
    (h : Completed ledger request after) (hwf : ledger.WellFormed) :
    ∀ other ∈ after.requests, other.serial ≠ request.serial := by
  have hnodup := (h.requests.map (·.serial)).nodup_iff.mp hwf.nodup_serials
  rw [List.map_cons, List.nodup_cons] at hnodup
  intro other hmem heq
  exact hnodup.1 (List.mem_map.mpr ⟨other, hmem, heq⟩)

/-- The index after a removal: a request that was moved is named in its new place. -/
def followMove (index : Std.HashMap Serial Nat) (removal : SlotTable.Removal PendingRequest) :
    Std.HashMap Serial Nat :=
  match removal.moved with
  | none => index
  | some (_, target) =>
    match removal.table.get? target with
    | some other => index.insert other.serial target
    | none => index

/-- A completion takes the request out of the table and its serial out of the index. -/
theorem complete_of_removal {ledger : Ledger} {serial : Serial} {slot : Nat}
    {removal : SlotTable.Removal PendingRequest} (hslot : ledger.index[serial]? = some slot)
    (hrem : ledger.table.remove? slot = some removal) :
    ledger.complete serial =
      (some removal.value, { ledger with
        table := removal.table
        index := followMove (ledger.index.erase serial) removal }) := by
  simp only [complete, hslot, hrem]
  rfl

/-- The index keeps naming the places when a removal empties one and perhaps moves a request. -/
theorem Indexes.followMove {index : Std.HashMap Serial Nat} {table : SlotTable PendingRequest}
    (h : Indexes index table.get?) {slot : Nat} {removal : SlotTable.Removal PendingRequest}
    (hout : SlotTable.Removed table slot removal) :
    Indexes (followMove (index.erase removal.value.serial) removal) removal.table.get? := by
  have herased := h.erase hout.value
  have hplaces := hout.places
  unfold Ledger.followMove
  cases hmoved : removal.moved with
  | none =>
      simp only [hmoved] at hplaces
      rwa [show removal.table.get? = _ from funext hplaces]
  | some move =>
      obtain ⟨source, goal⟩ := move
      simp only [hmoved] at hplaces
      obtain ⟨rfl, last, hne, hlast, hget⟩ := hplaces
      have hgoal : removal.table.get? goal = some last := by rw [hget, if_pos rfl]
      have hmove := herased.relocate source goal ((if_neg hne).trans hlast) (if_pos rfl)
      simp only [hgoal]
      intro serial j
      rw [hmove serial j, hget]
      by_cases hj : j = goal <;> simp [hj]

/-- The completion of a pending serial takes out its request and no other. -/
theorem WellFormed.complete_of_mem {ledger : Ledger} (h : ledger.WellFormed)
    {request : PendingRequest} (hmem : request ∈ ledger.requests) :
    ∃ after, ledger.complete request.serial = (some request, after) ∧
      Completed ledger request after := by
  obtain ⟨slot, hslot⟩ := mem_requests_iff.mp hmem
  have hindex := (h.index request.serial slot).mpr ⟨request, hslot, rfl⟩
  obtain ⟨removal, hrem⟩ : ∃ removal, ledger.table.remove? slot = some removal := by
    rw [← Option.isSome_iff_exists, Option.isSome_iff_ne_none, Ne,
      SlotTable.remove?_eq_none_iff, hslot]
    simp
  have hout := SlotTable.removed_of_remove? h.table hrem
  obtain rfl : removal.value = request := by
    have := hout.value
    rw [hslot] at this
    exact (Option.some.inj this).symm
  exact ⟨_, complete_of_removal hindex hrem,
    ⟨hout.wellFormed, h.index.followMove hout⟩, hout.values⟩

/-- To take a request out does not touch the counter of serials. -/
theorem counter_complete (ledger : Ledger) (serial : Serial) :
    (ledger.complete serial).2.counter = ledger.counter := by
  unfold complete
  split
  · rfl
  · dsimp only
    split <;> rfl

/-! ## Acknowledgment -/

/-- The request without its ticket, as its first acknowledgment leaves it. -/
def acknowledged (request : PendingRequest) : PendingRequest :=
  { request with state := .acked, ticket := none }

/-- What an acknowledgment says and leaves behind. -/
inductive Acknowledged (ledger : Ledger) (serial : Serial) : AckOutcome → Ledger → Prop
  | unknown (none : ∀ request ∈ ledger.requests, request.serial ≠ serial) :
      Acknowledged ledger serial .unknown ledger
  | duplicate {request : PendingRequest} (mem : request ∈ ledger.requests)
      (same : request.serial = serial) (acked : request.state = .acked) :
      Acknowledged ledger serial .duplicate ledger
  | first {request : PendingRequest} {after : Ledger} (mem : request ∈ ledger.requests)
      (same : request.serial = serial) (sent : request.state = .sent)
      (wellFormed : after.WellFormed)
      (requests : request :: after.requests ~ acknowledged request :: ledger.requests) :
      Acknowledged ledger serial (.acked request.ticket) after

/-- A change of a request that leaves its serial needs no change of the index. -/
theorem Indexes.modify {index : Std.HashMap Serial Nat} {table : SlotTable PendingRequest}
    (h : Indexes index table.get?) {slot : Nat} {request : PendingRequest}
    (hslot : table.get? slot = some request) (f : PendingRequest → PendingRequest)
    (hf : (f request).serial = request.serial) : Indexes index (table.modify slot f).get? := by
  intro serial j
  rw [h serial j, SlotTable.get?_modify hslot]
  by_cases hj : j = slot
  · subst hj
    simp [hslot, hf]
  · simp [hj]

/-- An acknowledgment of a pending serial changes its request only, and only the first one does. -/
theorem WellFormed.acknowledged {ledger : Ledger} (h : ledger.WellFormed) (serial : Serial) :
    Acknowledged ledger serial (ledger.markAcked serial).1 (ledger.markAcked serial).2 := by
  cases hindex : ledger.index[serial]? with
  | none =>
      simp only [markAcked, hindex]
      exact .unknown (h.index_eq_none_iff.mp hindex)
  | some slot =>
      obtain ⟨request, hslot, hserial⟩ := (h.index serial slot).mp hindex
      have hmem := mem_requests_iff.mpr ⟨slot, hslot⟩
      simp only [markAcked, hindex, hslot]
      cases hstate : request.state with
      | acked => exact .duplicate hmem hserial hstate
      | sent =>
          refine .first hmem hserial hstate
            ⟨h.table.modify hslot _, h.index.modify hslot _ rfl⟩ ?_
          exact SlotTable.perm_values_modify hslot _

/-- Nor does an acknowledgment. -/
theorem counter_markAcked (ledger : Ledger) (serial : Serial) :
    (ledger.markAcked serial).2.counter = ledger.counter := by
  unfold markAcked
  split
  · rfl
  · split
    · rfl
    · split <;> rfl

/-! ## Drain -/

/-- A drain hands every request out and leaves none. -/
theorem perm_fst_drain (ledger : Ledger) : ledger.drain.1 ~ ledger.requests :=
  List.mergeSort_perm _ _

theorem requests_snd_drain (ledger : Ledger) : ledger.drain.2.requests = [] :=
  SlotTable.values_drain _

theorem wellFormed_snd_drain (ledger : Ledger) : ledger.drain.2.WellFormed :=
  ⟨SlotTable.wellFormed_drain _, by simp [Indexes, drain, SlotTable.get?, SlotTable.drain]⟩

theorem WellFormed.reseed {ledger : Ledger} (h : ledger.WellFormed) (entropy : Entropy) :
    (ledger.reseed entropy).2.1.WellFormed :=
  ⟨h.table, h.index⟩

end Ledger

end ModemLink
