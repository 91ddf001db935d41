import Mathlib.Data.Finmap
import ModemLink.Proofs.LedgerMap

/-!
# The calls of a ledger

Whoever calls a ledger cannot tell it from a finite map: slots, vacancies and the index never show
in an answer.  `PlainLedger` is that map, together with the counter of serials and the numbers the
counter is drawn from.  Only where the order of equal things is left open does it allow more than
one answer: a drain hands requests out in the order of their submission, and does not say which of
two comes first that were submitted at the same time.

* `Ledger.toMap` -- the map that a ledger stands for;
* `Ledger.WellFormed.toMap_enroll`, `toMap_complete`, `toMap_markAcked` and the others -- what each
  operation makes of it;
* `DrawnLedger.Run.refines` -- every run of calls and answers is one of the plain map.
-/

namespace ModemLink

open scoped List

/-- A finite map from serials to requests. -/
abbrev RequestMap := Finmap fun _ : Serial => PendingRequest

namespace RequestMap

/-- The requests in a map, in no order. -/
def requests (map : RequestMap) : Multiset PendingRequest := map.entries.map (·.2)

/-- What an acknowledgment of a serial is answered with. -/
def ackOutcome (map : RequestMap) (serial : Serial) : AckOutcome :=
  match map.lookup serial with
  | none => .unknown
  | some request =>
    match request.state with
    | .acked => .duplicate
    | .sent => .acked request.ticket

/-- The map after an acknowledgment of a serial: its request has handed its ticket out. -/
def acknowledge (map : RequestMap) (serial : Serial) : RequestMap :=
  match map.lookup serial with
  | none => map
  | some request =>
    match request.state with
    | .acked => map
    | .sent => map.insert serial (Ledger.acknowledged request)

end RequestMap

/-- A call of a ledger. -/
inductive LedgerCall where
  | enroll (request : Ledger.Enrollment)
  | complete (serial : Serial)
  | markAcked (serial : Serial)
  | drainAll
  /-- The pending requests as they appear at a reading of the clock. -/
  | peek (now : Duration)
  | contains (serial : Serial)
  | len
  | reseed

/-- What a call of a ledger is answered with. -/
inductive LedgerReply where
  | serial (serial : Serial)
  | request (request : Option PendingRequest)
  | ack (outcome : AckOutcome)
  | requests (requests : List PendingRequest)
  | views (views : List PendingView)
  | flag (value : Bool)
  | count (value : Nat)

/-- A finite map of pending requests, the counter of serials, and the numbers it is drawn from. -/
structure PlainLedger where
  pending : RequestMap
  counter : SerialCounter
  entropy : Entropy

namespace PlainLedger

/-- No requests are pending at the start. -/
def start (seed : Option Int) (entropy : Entropy) : PlainLedger :=
  let (counter, entropy) := SerialCounter.start seed entropy
  ⟨∅, counter, entropy⟩

/-- Which view of a request comes first: the older one, and of two equally old ones that of the
smaller serial. -/
def Precedes (a b : PendingView) : Prop :=
  b.age < a.age ∨ (a.age = b.age ∧ a.serial.number < b.serial.number)

/-- What a call does to the map, and what it is answered with. -/
inductive Step (s : PlainLedger) : LedgerCall → LedgerReply → PlainLedger → Prop
  /-- The request gets the first serial from the counter on that is not pending. -/
  | enroll (request : Ledger.Enrollment) (skipped : Nat)
      (taken : ∀ j < skipped, (s.counter.after j).peek ∈ s.pending)
      (free : (s.counter.after skipped).peek ∉ s.pending) :
      Step s (.enroll request) (.serial (s.counter.after skipped).peek)
        { s with
          pending := s.pending.insert (s.counter.after skipped).peek
            (request.under (s.counter.after skipped).peek)
          counter := s.counter.after (skipped + 1) }
  | complete (serial : Serial) :
      Step s (.complete serial) (.request (s.pending.lookup serial))
        { s with pending := s.pending.erase serial }
  | markAcked (serial : Serial) :
      Step s (.markAcked serial) (.ack (s.pending.ackOutcome serial))
        { s with pending := s.pending.acknowledge serial }
  /-- Every request is handed out once, in the order of submission as the clock shows it. -/
  | drainAll (requests : List PendingRequest) (all : (requests : Multiset _) = s.pending.requests)
      (sorted : requests.Pairwise fun a b => a.submittedAt ≤ b.submittedAt) :
      Step s .drainAll (.requests requests) { s with pending := ∅ }
  /-- Every request is shown once, the oldest first. -/
  | peek (now : Duration) (views : List PendingView)
      (all : (views : Multiset _) = s.pending.requests.map (PendingView.ofRequest now))
      (sorted : views.Pairwise Precedes) : Step s (.peek now) (.views views) s
  | contains (serial : Serial) :
      Step s (.contains serial) (.flag (decide (serial ∈ s.pending))) s
  | len : Step s .len (.count s.pending.keys.card) s
  | reseed :
      Step s .reseed (.serial (SerialCounter.drawn s.entropy).1.peek)
        { s with
          counter := (SerialCounter.drawn s.entropy).1
          entropy := (SerialCounter.drawn s.entropy).2 }

/-- The runs of a plain ledger, with the calls and answers in them, the latest in front. -/
inductive Run (start : PlainLedger) : List (LedgerCall × LedgerReply) → PlainLedger → Prop
  | start : Run start [] start
  | call {history : List (LedgerCall × LedgerReply)} {s after : PlainLedger} {call : LedgerCall}
      {reply : LedgerReply} (run : Run start history s) (step : s.Step call reply after) :
      Run start ((call, reply) :: history) after

end PlainLedger

namespace Ledger

variable {ledger : Ledger} {serial : Serial} {request : PendingRequest}

/-- The map that a ledger stands for. -/
def toMap (ledger : Ledger) : RequestMap :=
  (ledger.requests.map fun request => (⟨request.serial, request⟩ : Σ _, PendingRequest)).toFinmap

namespace WellFormed

theorem lookup_toMap (h : ledger.WellFormed) :
    ledger.toMap.lookup serial = some request ↔
      request ∈ ledger.requests ∧ request.serial = serial := by
  have hkeys : (ledger.requests.map
      fun request => (⟨request.serial, request⟩ : Σ _, PendingRequest)).NodupKeys := by
    have hserials := h.nodup_serials
    simpa [List.NodupKeys, List.keys, Function.comp_def] using hserials
  rw [toMap, Finmap.dlookup_list_toFinmap, ← Option.mem_def, List.mem_dlookup_iff hkeys,
    List.mem_map]
  constructor
  · rintro ⟨other, hmem, heq⟩
    cases heq
    exact ⟨hmem, rfl⟩
  · rintro ⟨hmem, rfl⟩
    exact ⟨request, hmem, rfl⟩

/-- A map that finds the requests of a ledger under their serials is the one it stands for. -/
theorem toMap_eq (h : ledger.WellFormed) {map : RequestMap}
    (hmap : ∀ serial request, map.lookup serial = some request ↔
      request ∈ ledger.requests ∧ request.serial = serial) : ledger.toMap = map := by
  refine Finmap.ext_lookup fun serial => Option.ext fun request => ?_
  rw [h.lookup_toMap, hmap]

theorem notMem_toMap (h : ledger.WellFormed) :
    serial ∉ ledger.toMap ↔ ∀ request ∈ ledger.requests, request.serial ≠ serial := by
  rw [← Finmap.lookup_eq_none, Option.eq_none_iff_forall_ne_some]
  constructor
  · intro hnone request hmem hserial
    exact hnone request (h.lookup_toMap.mpr ⟨hmem, hserial⟩)
  · intro hall request hsome
    obtain ⟨hmem, hserial⟩ := h.lookup_toMap.mp hsome
    exact hall request hmem hserial

/-- The requests of the map are those of the ledger. -/
theorem requests_toMap (h : ledger.WellFormed) :
    ledger.toMap.requests = (ledger.requests : Multiset PendingRequest) := by
  have hentry : ∀ entry ∈ ledger.toMap.entries, entry.2.serial = entry.1 := fun entry hmem =>
    (h.lookup_toMap.mp (Finmap.lookup_eq_some_iff.mpr hmem)).2
  have hinj : ∀ a ∈ ledger.toMap.entries, ∀ b ∈ ledger.toMap.entries, a.2 = b.2 → a = b := by
    rintro ⟨i, a⟩ ha ⟨j, b⟩ hb heq
    obtain rfl : a.serial = i := hentry _ ha
    obtain rfl : b.serial = j := hentry _ hb
    obtain rfl : a = b := heq
    rfl
  have hleft : ledger.toMap.requests.Nodup :=
    Multiset.Nodup.map_on hinj (Finmap.nodup_entries _)
  have hright : ledger.requests.Nodup := h.nodup_serials.of_map
  refine (Multiset.Nodup.ext hleft (Multiset.coe_nodup.mpr hright)).mpr fun request => ?_
  rw [RequestMap.requests, Multiset.mem_map, Multiset.mem_coe]
  constructor
  · rintro ⟨entry, hmem, rfl⟩
    exact (h.lookup_toMap.mp (Finmap.lookup_eq_some_iff.mpr hmem)).1
  · intro hmem
    have hsome := h.lookup_toMap.mpr ⟨hmem, rfl⟩
    exact ⟨⟨request.serial, request⟩, Finmap.lookup_eq_some_iff.mp hsome, rfl⟩

theorem card_toMap (h : ledger.WellFormed) : ledger.toMap.keys.card = ledger.size := by
  have hcard := congrArg Multiset.card h.requests_toMap
  rw [RequestMap.requests, Multiset.card_map, Multiset.coe_card] at hcard
  rw [h.size_eq, ← hcard]
  exact Multiset.card_map Sigma.fst ledger.toMap.entries

theorem contains_eq (h : ledger.WellFormed) (serial : Serial) :
    ledger.contains serial = decide (serial ∈ ledger.toMap) := by
  cases hindex : ledger.index[serial]? with
  | none =>
      have hnot := h.notMem_toMap.mpr (h.index_eq_none_iff.mp hindex)
      simp [Ledger.contains, hindex, hnot]
  | some slot =>
      obtain ⟨request, hslot, hserial⟩ := (h.index serial slot).mp hindex
      have hsome := h.lookup_toMap.mpr ⟨mem_requests_iff.mpr ⟨slot, hslot⟩, hserial⟩
      have hmem : serial ∈ ledger.toMap := Finmap.mem_of_lookup_eq_some hsome
      simp [Ledger.contains, hindex, hslot, hmem]

/-! ## What the operations make of the map -/

/-- An admission goes to the first serial from the counter on that is not pending. -/
theorem toMap_enroll (h : ledger.WellFormed) (hroom : ledger.size < Serial.space)
    (request : Enrollment) :
    (ledger.enroll request).2.toMap =
      ledger.toMap.insert (ledger.enroll request).1 (request.under (ledger.enroll request).1) := by
  have hperm := h.perm_requests_enroll request
  have hfresh := h.serial_enroll_ne hroom request
  refine (h.enroll hroom request).toMap_eq fun serial other => ?_
  rw [hperm.mem_iff, List.mem_cons]
  by_cases hserial : serial = (ledger.enroll request).1
  · subst hserial
    rw [Finmap.lookup_insert]
    constructor
    · rintro ⟨⟩
      exact ⟨.inl rfl, rfl⟩
    · rintro ⟨rfl | hold, hsame⟩
      · rfl
      · exact absurd hsame (hfresh other hold)
  · rw [Finmap.lookup_insert_of_ne _ hserial, h.lookup_toMap]
    constructor
    · rintro ⟨hold, hsame⟩
      exact ⟨.inr hold, hsame⟩
    · rintro ⟨rfl | hold, hsame⟩
      · exact absurd hsame.symm hserial
      · exact ⟨hold, hsame⟩

/-- The serials that an admission passes over are pending, and the one it takes is not.  It passes
over no more serials than there are requests. -/
theorem exists_skipped (h : ledger.WellFormed) (hroom : ledger.size < Serial.space)
    (request : Enrollment) :
    ∃ skipped ≤ ledger.size, (∀ j < skipped, (ledger.counter.after j).peek ∈ ledger.toMap) ∧
      (ledger.counter.after skipped).peek ∉ ledger.toMap ∧
      (ledger.enroll request).1 = (ledger.counter.after skipped).peek ∧
      (ledger.enroll request).2.counter = ledger.counter.after (skipped + 1) := by
  have hpending : ∀ serial, ledger.index.contains serial = true → serial ∈ ledger.toMap := by
    intro serial hcontains
    by_contra hnot
    have hnone := h.index_eq_none_iff.mpr (h.notMem_toMap.mp hnot)
    rw [Std.HashMap.contains_eq_isSome_getElem?, hnone] at hcontains
    cases hcontains
  obtain ⟨skipped, hskipped, heq, htaken, -⟩ :=
    freeSerial_spec ledger.index ledger.index.size ledger.counter
  have hserial : (ledger.enroll request).1 = (ledger.counter.after skipped).peek := by
    rw [enroll_fst, heq, SerialCounter.issue_fst]
  refine ⟨skipped, Nat.le_trans hskipped h.size_index_le, fun j hj => hpending _ (htaken j hj), ?_,
    hserial, ?_⟩
  · rw [← hserial]
    exact h.notMem_toMap.mpr (h.serial_enroll_ne hroom request)
  · rw [enroll_snd, heq, SerialCounter.issue_snd, SerialCounter.next_after]

/-- A completion finds the request of its serial. -/
theorem fst_complete (h : ledger.WellFormed) (serial : Serial) :
    (ledger.complete serial).1 = ledger.toMap.lookup serial := by
  cases hlookup : ledger.toMap.lookup serial with
  | none =>
      have hnone := h.notMem_toMap.mp (Finmap.lookup_eq_none.mp hlookup)
      rw [h.complete_of_none hnone]
  | some request =>
      obtain ⟨hmem, rfl⟩ := h.lookup_toMap.mp hlookup
      obtain ⟨after, heq, -⟩ := h.complete_of_mem hmem
      rw [heq]

theorem complete (h : ledger.WellFormed) (serial : Serial) :
    (ledger.complete serial).2.WellFormed := by
  cases hlookup : ledger.toMap.lookup serial with
  | none =>
      have hnone := h.notMem_toMap.mp (Finmap.lookup_eq_none.mp hlookup)
      rw [h.complete_of_none hnone]
      exact h
  | some request =>
      obtain ⟨hmem, rfl⟩ := h.lookup_toMap.mp hlookup
      obtain ⟨after, heq, hcompleted⟩ := h.complete_of_mem hmem
      rw [heq]
      exact hcompleted.wellFormed

/-- It takes that request out and no other. -/
theorem toMap_complete (h : ledger.WellFormed) (serial : Serial) :
    (ledger.complete serial).2.toMap = ledger.toMap.erase serial := by
  refine (h.complete serial).toMap_eq fun other request => ?_
  cases hlookup : ledger.toMap.lookup serial with
  | none =>
      have hnot := Finmap.lookup_eq_none.mp hlookup
      have hnone := h.notMem_toMap.mp hnot
      rw [h.complete_of_none hnone, ← h.lookup_toMap]
      by_cases hother : other = serial
      · subst hother
        rw [Finmap.lookup_erase, hlookup]
      · rw [Finmap.lookup_erase_ne hother]
  | some completed =>
      obtain ⟨hmem, rfl⟩ := h.lookup_toMap.mp hlookup
      obtain ⟨after, heq, hcompleted⟩ := h.complete_of_mem hmem
      have hgone := hcompleted.serial_ne h
      rw [heq]
      by_cases hother : other = completed.serial
      · subst hother
        rw [Finmap.lookup_erase]
        constructor
        · rintro ⟨⟩
        · rintro ⟨hrest, hsame⟩
          exact absurd hsame (hgone request hrest)
      · rw [Finmap.lookup_erase_ne hother, h.lookup_toMap, hcompleted.requests.mem_iff,
          List.mem_cons]
        constructor
        · rintro ⟨rfl | hrest, hsame⟩
          · exact absurd hsame.symm hother
          · exact ⟨hrest, hsame⟩
        · rintro ⟨hrest, hsame⟩
          exact ⟨.inr hrest, hsame⟩

/-- After the first acknowledgment of a request it is there without its ticket, beside the
others. -/
theorem mem_requests_acknowledged {after : Ledger} (hafter : after.WellFormed)
    (hsent : request.state = .sent)
    (hperm : request :: after.requests ~ Ledger.acknowledged request :: ledger.requests)
    (other : PendingRequest) :
    other ∈ after.requests ↔ other = Ledger.acknowledged request ∨
      (other ∈ ledger.requests ∧ other.serial ≠ request.serial) := by
  have hne : Ledger.acknowledged request ≠ request := by
    intro heq
    rw [← heq] at hsent
    cases hsent
  have hback : ∀ other, other = Ledger.acknowledged request ∨ other ∈ ledger.requests →
      other ≠ request → other ∈ after.requests := by
    intro other hother hdiffers
    have hcons := hperm.mem_iff.mpr (List.mem_cons.mpr hother)
    exact (List.mem_cons.mp hcons).resolve_left hdiffers
  have hthere : Ledger.acknowledged request ∈ after.requests := hback _ (.inl rfl) hne
  constructor
  · intro hother
    have hcons := hperm.mem_iff.mp (List.mem_cons_of_mem _ hother)
    by_cases hserial : other.serial = request.serial
    · exact .inl (hafter.serial_inj hother hthere hserial)
    · refine .inr ⟨(List.mem_cons.mp hcons).resolve_left ?_, hserial⟩
      rintro rfl
      exact hserial rfl
  · rintro (rfl | ⟨hold, hserial⟩)
    · exact hthere
    · refine hback other (.inr hold) ?_
      rintro rfl
      exact hserial rfl

/-- An acknowledgment is answered as the map says. -/
theorem fst_markAcked (h : ledger.WellFormed) (serial : Serial) :
    (ledger.markAcked serial).1 = ledger.toMap.ackOutcome serial := by
  have hacked := h.acknowledged serial
  generalize ledger.markAcked serial = answer at hacked
  obtain ⟨outcome, after⟩ := answer
  unfold RequestMap.ackOutcome
  cases hacked with
  | unknown none =>
      have hlookup := Finmap.lookup_eq_none.mpr (h.notMem_toMap.mpr none)
      simp only [hlookup]
  | duplicate mem same acked =>
      have hlookup := h.lookup_toMap.mpr ⟨mem, same⟩
      simp only [hlookup, acked]
  | first mem same sent wellFormed requests =>
      have hlookup := h.lookup_toMap.mpr ⟨mem, same⟩
      simp only [hlookup, sent]

theorem markAcked (h : ledger.WellFormed) (serial : Serial) :
    (ledger.markAcked serial).2.WellFormed := by
  have hacked := h.acknowledged serial
  generalize ledger.markAcked serial = answer at hacked
  obtain ⟨outcome, after⟩ := answer
  cases hacked with
  | unknown none => exact h
  | duplicate mem same acked => exact h
  | first mem same sent wellFormed requests => exact wellFormed

/-- The first acknowledgment of a pending request changes that request only, the others change
nothing. -/
theorem toMap_markAcked (h : ledger.WellFormed) (serial : Serial) :
    (ledger.markAcked serial).2.toMap = ledger.toMap.acknowledge serial := by
  have hacked := h.acknowledged serial
  generalize ledger.markAcked serial = answer at hacked
  obtain ⟨outcome, after⟩ := answer
  unfold RequestMap.acknowledge
  cases hacked with
  | unknown none =>
      have hlookup := Finmap.lookup_eq_none.mpr (h.notMem_toMap.mpr none)
      simp only [hlookup]
  | duplicate mem same acked =>
      have hlookup := h.lookup_toMap.mpr ⟨mem, same⟩
      simp only [hlookup, acked]
  | @first acked after mem same sent wellFormed requests =>
      subst same
      have hlookup := h.lookup_toMap.mpr ⟨mem, rfl⟩
      simp only [hlookup, sent]
      refine wellFormed.toMap_eq fun serial other => ?_
      rw [wellFormed.mem_requests_acknowledged sent requests]
      by_cases hserial : serial = acked.serial
      · subst hserial
        rw [Finmap.lookup_insert]
        constructor
        · rintro ⟨⟩
          exact ⟨.inl rfl, rfl⟩
        · rintro ⟨rfl | ⟨-, hdiffers⟩, hsame⟩
          · rfl
          · exact absurd hsame hdiffers
      · rw [Finmap.lookup_insert_of_ne _ hserial, h.lookup_toMap]
        constructor
        · rintro ⟨hold, rfl⟩
          exact ⟨.inr ⟨hold, hserial⟩, rfl⟩
        · rintro ⟨rfl | ⟨hold, -⟩, hsame⟩
          · exact absurd hsame.symm hserial
          · exact ⟨hold, hsame⟩

end WellFormed

theorem toMap_of_requests_nil {ledger : Ledger} (h : ledger.requests = []) :
    ledger.toMap = ∅ := by
  rw [toMap, h, List.map_nil, Finmap.toFinmap_nil]

/-- A drain hands requests out in the order of their submission. -/
theorem pairwise_fst_drain (ledger : Ledger) :
    ledger.drain.1.Pairwise fun a b => a.submittedAt ≤ b.submittedAt := by
  have hsorted : ledger.drain.1.Pairwise fun a b =>
      decide (a.submittedAt ≤ b.submittedAt) = true := by
    refine List.pairwise_mergeSort (fun a b c => ?_) (fun a b => ?_) _
    · simp only [decide_eq_true_eq]
      exact Nat.le_trans
    · simp only [Bool.or_eq_true, decide_eq_true_eq]
      exact Nat.le_total _ _
  exact hsorted.imp of_decide_eq_true

/-- Every pending request is shown once. -/
theorem perm_views (ledger : Ledger) (now : Duration) :
    ledger.views now ~ ledger.requests.map (PendingView.ofRequest now) :=
  List.mergeSort_perm _ _

/-- The oldest are shown first, and equally old ones in the order of their serials. -/
theorem WellFormed.pairwise_views {ledger : Ledger} (h : ledger.WellFormed) (now : Duration) :
    (ledger.views now).Pairwise PlainLedger.Precedes := by
  have hle : ∀ a b : PendingView, PendingView.le a b = true ↔
      b.age.nanos < a.age.nanos ∨
        (a.age.nanos = b.age.nanos ∧ a.serial.number ≤ b.serial.number) := by
    intro a b
    simp only [PendingView.le, Bool.or_eq_true, Bool.and_eq_true, decide_eq_true_eq,
      Duration.ext_iff]
    rfl
  have hsorted : (ledger.views now).Pairwise fun a b => PendingView.le a b = true := by
    refine List.pairwise_mergeSort (fun a b c => ?_) (fun a b => ?_) _
    · simp only [hle]
      omega
    · simp only [Bool.or_eq_true, hle]
      omega
  -- No two views are of one serial, so they are never level.
  have hserials : ((ledger.views now).map (·.serial)).Nodup := by
    have hperm := (ledger.perm_views now).map (·.serial)
    rw [List.map_map] at hperm
    exact hperm.nodup_iff.mpr h.nodup_serials
  have hdistinct := List.pairwise_map.mp hserials
  refine (hsorted.and hdistinct).imp fun {a b} hab => ?_
  have hne : a.serial.number ≠ b.serial.number := fun heq => hab.2 (congrArg Serial.mk heq)
  rcases (hle a b).mp hab.1 with hlt | ⟨heq, hnumber⟩
  · exact .inl hlt
  · exact .inr ⟨Duration.ext heq, by omega⟩

end Ledger

/-! ## Runs -/

/-- A ledger with the numbers that its counter is drawn from. -/
structure DrawnLedger where
  ledger : Ledger
  entropy : Entropy

namespace DrawnLedger

/-- A ledger without requests. -/
def start (spareCapacity : Nat) (seed : Option Int) (entropy : Entropy) : DrawnLedger :=
  let (counter, entropy) := SerialCounter.start seed entropy
  ⟨.empty spareCapacity counter, entropy⟩

/-- Makes a call. -/
def call (s : DrawnLedger) : LedgerCall → LedgerReply × DrawnLedger
  | .enroll request =>
    let (serial, ledger) := s.ledger.enroll request
    (.serial serial, { s with ledger })
  | .complete serial =>
    let (request, ledger) := s.ledger.complete serial
    (.request request, { s with ledger })
  | .markAcked serial =>
    let (outcome, ledger) := s.ledger.markAcked serial
    (.ack outcome, { s with ledger })
  | .drainAll =>
    let (requests, ledger) := s.ledger.drain
    (.requests requests, { s with ledger })
  | .peek now => (.views (s.ledger.views now), s)
  | .contains serial => (.flag (s.ledger.contains serial), s)
  | .len => (.count s.ledger.size, s)
  | .reseed =>
    let (serial, ledger, entropy) := s.ledger.reseed s.entropy
    (.serial serial, ⟨ledger, entropy⟩)

/-- What a caller can know of a ledger. -/
def plain (s : DrawnLedger) : PlainLedger := ⟨s.ledger.toMap, s.ledger.counter, s.entropy⟩

/-- The runs of a ledger, with the calls and answers in them, the latest in front.  A request is
admitted only while fewer are pending than there are serials. -/
inductive Run (start : DrawnLedger) : List (LedgerCall × LedgerReply) → DrawnLedger → Prop
  | start : Run start [] start
  | call {history : List (LedgerCall × LedgerReply)} {s : DrawnLedger} (run : Run start history s)
      (call : LedgerCall)
      (room : ∀ request, call = .enroll request → s.ledger.size < Serial.space) :
      Run start ((call, (s.call call).1) :: history) (s.call call).2

/-- A call does to a ledger what it does to the map. -/
theorem call_plain {s : DrawnLedger} (h : s.ledger.WellFormed) (call : LedgerCall)
    (room : ∀ request, call = .enroll request → s.ledger.size < Serial.space) :
    s.plain.Step call (s.call call).1 (s.call call).2.plain ∧
      (s.call call).2.ledger.WellFormed := by
  cases call with
  | enroll request =>
      have hroom := room request rfl
      refine ⟨?_, h.enroll hroom request⟩
      obtain ⟨skipped, -, htaken, hfree, hserial, hcounter⟩ := h.exists_skipped hroom request
      change s.plain.Step (.enroll request) (.serial (s.ledger.enroll request).1)
        ⟨(s.ledger.enroll request).2.toMap, (s.ledger.enroll request).2.counter, s.entropy⟩
      rw [h.toMap_enroll hroom, hserial, hcounter]
      exact .enroll request skipped htaken hfree
  | complete serial =>
      refine ⟨?_, h.complete serial⟩
      change s.plain.Step (.complete serial) (.request (s.ledger.complete serial).1)
        ⟨(s.ledger.complete serial).2.toMap, (s.ledger.complete serial).2.counter, s.entropy⟩
      rw [h.fst_complete, h.toMap_complete, Ledger.counter_complete]
      exact .complete serial
  | markAcked serial =>
      refine ⟨?_, h.markAcked serial⟩
      change s.plain.Step (.markAcked serial) (.ack (s.ledger.markAcked serial).1)
        ⟨(s.ledger.markAcked serial).2.toMap, (s.ledger.markAcked serial).2.counter, s.entropy⟩
      rw [h.fst_markAcked, h.toMap_markAcked, Ledger.counter_markAcked]
      exact .markAcked serial
  | drainAll =>
      refine ⟨?_, s.ledger.wellFormed_snd_drain⟩
      change s.plain.Step .drainAll (.requests s.ledger.drain.1)
        ⟨s.ledger.drain.2.toMap, s.ledger.counter, s.entropy⟩
      rw [Ledger.toMap_of_requests_nil s.ledger.requests_snd_drain]
      refine .drainAll _ ?_ s.ledger.pairwise_fst_drain
      exact (Multiset.coe_eq_coe.mpr s.ledger.perm_fst_drain).trans h.requests_toMap.symm
  | peek now =>
      refine ⟨.peek now _ ?_ (h.pairwise_views now), h⟩
      rw [show s.plain.pending.requests = _ from h.requests_toMap, Multiset.map_coe]
      exact Multiset.coe_eq_coe.mpr (s.ledger.perm_views now)
  | contains serial =>
      refine ⟨?_, h⟩
      change s.plain.Step (.contains serial) (.flag (s.ledger.contains serial)) s.plain
      rw [h.contains_eq]
      exact .contains serial
  | len =>
      refine ⟨?_, h⟩
      change s.plain.Step .len (.count s.ledger.size) s.plain
      rw [← h.card_toMap]
      exact .len
  | reseed => exact ⟨.reseed, h.reseed s.entropy⟩

/-- **A ledger is a finite map.**  Every run of calls and answers of a ledger, whatever the capacity
of its list of vacancies, is one of the plain map that starts empty with the same counter. -/
theorem Run.refines {spareCapacity : Nat} {seed : Option Int} {entropy : Entropy}
    {history : List (LedgerCall × LedgerReply)} {s : DrawnLedger}
    (run : Run (DrawnLedger.start spareCapacity seed entropy) history s) :
    PlainLedger.Run (.start seed entropy) history s.plain := by
  have hboth : PlainLedger.Run (.start seed entropy) history s.plain ∧ s.ledger.WellFormed := by
    induction run with
    | start =>
        refine ⟨?_, Ledger.wellFormed_empty _ _⟩
        have hempty := Ledger.toMap_of_requests_nil
          (show (DrawnLedger.start spareCapacity seed entropy).ledger.requests = [] from rfl)
        have hplain : (DrawnLedger.start spareCapacity seed entropy).plain =
            .start seed entropy := by
          rw [plain, hempty]
          rfl
        rw [hplain]
        exact .start
    | call run call room ih =>
        obtain ⟨hrun, hwf⟩ := ih
        obtain ⟨hstep, hafter⟩ := call_plain hwf call room
        exact ⟨.call hrun hstep, hafter⟩
  exact hboth.1

/-- So it is for a request that is admitted, acknowledged and completed. -/
theorem refines_of_completed :
    ∃ history s, Run (DrawnLedger.start 4 (some 7) ⟨[]⟩) history s ∧
      history.map (·.1) =
        [.complete ⟨7⟩, .markAcked ⟨7⟩, .enroll ⟨.getImei, ⟨0⟩, .phone, none, .zero⟩] ∧
      PlainLedger.Run (.start (some 7) ⟨[]⟩) history s.plain := by
  have started : Run (DrawnLedger.start 4 (some 7) ⟨[]⟩) [] _ := .start
  have admitted := started.call (.enroll ⟨.getImei, ⟨0⟩, .phone, none, .zero⟩) fun _ _ =>
    show 0 < Serial.space by decide
  have acked := admitted.call (.markAcked ⟨7⟩) nofun
  have completed := acked.call (.complete ⟨7⟩) nofun
  exact ⟨_, _, completed, rfl, completed.refines⟩

end DrawnLedger

end ModemLink
