import ModemLink.Proofs.LedgerCalls

/-!
# The search for a free serial

An admission issues serials until one is free.  Nothing in the search itself bounds its rounds: the
counter starts over, and a new seed may throw it into the middle of taken serials.  It ends because
the serials that it passes over are different ones, all of them pending, so there are no more of
them than requests.

* `Searches` -- the search as it goes, round by round;
* `Searches.unique` -- it has one outcome;
* `WellFormed.searches_of_pends` -- over pending serials, to the first that is not;
* `DrawnLedger.Run.takes_first_free` -- every admission, in whatever state it comes.
-/

namespace ModemLink

namespace Ledger

/-! ## Round by round -/

/-- A search for a free serial takes so many rounds and ends with a serial and a counter.  Each
round issues a serial, and the first one that is not in the index ends the search. -/
inductive Searches (index : Std.HashMap Serial Nat) :
    SerialCounter → Nat → Serial → SerialCounter → Prop
  | found {counter : SerialCounter} (free : index.contains counter.issue.1 = false) :
      Searches index counter 1 counter.issue.1 counter.issue.2
  | skip {counter after : SerialCounter} {rounds : Nat} {serial : Serial}
      (taken : index.contains counter.issue.1 = true)
      (rest : Searches index counter.issue.2 rounds serial after) :
      Searches index counter (rounds + 1) serial after

variable {index : Std.HashMap Serial Nat} {counter after : SerialCounter} {serial : Serial}
  {skipped rounds : Nat}

/-- A search passes over taken serials and ends at the first free one. -/
theorem searches_of_free (taken : ∀ j < skipped, index.contains (counter.after j).peek = true)
    (free : index.contains (counter.after skipped).peek = false) :
    Searches index counter (skipped + 1) (counter.after skipped).peek
      (counter.after (skipped + 1)) := by
  induction skipped generalizing counter with
  | zero =>
      rw [SerialCounter.after_zero] at free ⊢
      rw [← SerialCounter.after_next, SerialCounter.after_zero]
      exact .found free
  | succ skipped ih =>
      have hfirst := taken 0 (by omega)
      rw [SerialCounter.after_zero] at hfirst
      rw [← SerialCounter.after_next] at free ⊢
      rw [← SerialCounter.after_next]
      refine .skip hfirst (ih (fun j hj => ?_) free)
      rw [SerialCounter.issue_snd, SerialCounter.after_next]
      exact taken (j + 1) (by omega)

/-- A search has one outcome. -/
theorem Searches.unique {other : SerialCounter} {otherRounds : Nat} {otherSerial : Serial}
    (search : Searches index counter rounds serial after)
    (again : Searches index counter otherRounds otherSerial other) :
    otherRounds = rounds ∧ otherSerial = serial ∧ other = after := by
  induction search generalizing otherRounds with
  | found free =>
      cases again with
      | found _ => exact ⟨rfl, rfl, rfl⟩
      | skip taken _ => rw [free] at taken; cases taken
  | skip taken _ ih =>
      cases again with
      | found free => rw [taken] at free; cases free
      | skip _ rest =>
          obtain ⟨hrounds, hsame⟩ := ih rest
          exact ⟨by rw [hrounds], hsame⟩

/-! ## Among the pending requests -/

/-- A serial is pending if a request has it. -/
def Pends (ledger : Ledger) (serial : Serial) : Prop :=
  ∃ request ∈ ledger.requests, request.serial = serial

variable {ledger : Ledger}

theorem WellFormed.mem_toMap_iff (h : ledger.WellFormed) :
    serial ∈ ledger.toMap ↔ ledger.Pends serial := by
  rw [← not_iff_not, h.notMem_toMap, Pends]
  push Not
  rfl

theorem WellFormed.contains_index_iff (h : ledger.WellFormed) :
    ledger.index.contains serial = true ↔ ledger.Pends serial := by
  rw [← not_iff_not, Bool.not_eq_true, ← h.mem_toMap_iff, h.notMem_toMap, ← h.index_eq_none_iff,
    Std.HashMap.contains_eq_isSome_getElem?, Option.isSome_eq_false_iff, Option.isNone_iff_eq_none]

/-- A search among pending serials passes over them and ends at the first that is not pending. -/
theorem WellFormed.searches_of_pends (h : ledger.WellFormed)
    (taken : ∀ j < skipped, ledger.Pends (ledger.counter.after j).peek)
    (free : ¬ ledger.Pends (ledger.counter.after skipped).peek) :
    Searches ledger.index ledger.counter (skipped + 1) (ledger.counter.after skipped).peek
      (ledger.counter.after (skipped + 1)) := by
  refine searches_of_free (fun j hj => h.contains_index_iff.mpr (taken j hj)) ?_
  rwa [← Bool.not_eq_true, h.contains_index_iff]

end Ledger

namespace DrawnLedger

variable {spareCapacity : Nat} {seed : Option Int} {entropy : Entropy}
  {history : List (LedgerCall × LedgerReply)} {s : DrawnLedger}

/-- Every call leaves a well-formed ledger. -/
theorem Run.wellFormed (run : Run (DrawnLedger.start spareCapacity seed entropy) history s) :
    s.ledger.WellFormed := by
  induction run with
  | start => exact Ledger.wellFormed_empty _ _
  | call _ call room ih => exact (call_plain ih call room).2

/-- **An admission takes the first free serial.**  In every state that calls of a ledger lead to, as
long as fewer requests are pending than there are serials, the search of an admission ends, and in
one way only: it passes over pending serials, as many as there are from the counter on, and takes
the next one, at which it leaves the counter one further.  It takes at most one round more than
there are pending requests. -/
theorem Run.takes_first_free
    (run : Run (DrawnLedger.start spareCapacity seed entropy) history s)
    (room : s.ledger.requests.length < Serial.space) (request : Ledger.Enrollment) :
    ∃ skipped : Nat,
      let numbered (j : Nat) : Nat := (s.ledger.counter.upcoming.val + j) % Serial.space
      (∀ j < skipped, s.ledger.Pends ⟨numbered j⟩) ∧ ¬ s.ledger.Pends ⟨numbered skipped⟩ ∧
      (s.ledger.enroll request).1 = ⟨numbered skipped⟩ ∧
      (s.ledger.enroll request).2.counter.upcoming.val = numbered (skipped + 1) ∧
      numbered skipped < Serial.space ∧
      skipped + 1 ≤ s.ledger.requests.length + 1 ∧
      ∀ rounds serial after,
        Ledger.Searches s.ledger.index s.ledger.counter rounds serial after ↔
          rounds = skipped + 1 ∧ serial = (s.ledger.enroll request).1 ∧
            after = (s.ledger.enroll request).2.counter := by
  have hwf := run.wellFormed
  rw [← hwf.size_eq] at room ⊢
  obtain ⟨skipped, hbound, htaken, hfree, hserial, hcounter⟩ := hwf.exists_skipped room request
  simp only [hwf.mem_toMap_iff] at htaken hfree
  have hsearch := hwf.searches_of_pends htaken hfree
  rw [← hserial, ← hcounter] at hsearch
  refine ⟨skipped, htaken, hfree, hserial, ?_, Nat.mod_lt _ (by decide), by omega, ?_⟩
  · rw [hcounter]
    rfl
  · intro rounds serial after
    constructor
    · exact fun search => hsearch.unique search
    · rintro ⟨rfl, rfl, rfl⟩
      exact hsearch

/-- A request has serial 0, and a new seed throws the counter back to 0: the next request passes
over that serial and gets serial 1, in the second round. -/
theorem takes_first_free_after_reseed :
    ∃ history s, Run (DrawnLedger.start 4 (some 0) ⟨[16777216]⟩) history s ∧
      history.map (·.1) = [.reseed, .enroll ⟨.getImei, ⟨0⟩, .phone, none, .zero⟩] ∧
      s.ledger.counter.upcoming.val = 0 ∧ s.ledger.Pends ⟨0⟩ ∧
      (s.ledger.enroll ⟨.dial, ⟨1⟩, .phone, none, .zero⟩).1 = ⟨1⟩ ∧
      Ledger.Searches s.ledger.index s.ledger.counter 2 ⟨1⟩
        (s.ledger.enroll ⟨.dial, ⟨1⟩, .phone, none, .zero⟩).2.counter := by
  have started : Run (DrawnLedger.start 4 (some 0) ⟨[16777216]⟩) [] _ := .start
  have admitted := started.call (.enroll ⟨.getImei, ⟨0⟩, .phone, none, .zero⟩) fun _ _ =>
    show 0 < Serial.space by decide
  have thrown := admitted.call .reseed nofun
  generalize hs : (DrawnLedger.call _ .reseed).2 = s at thrown
  have hcounter : s.ledger.counter.upcoming.val = 0 := by rw [← hs]; rfl
  have hlength : s.ledger.requests.length = 1 := by rw [← hs]; rfl
  have hpending : s.ledger.Pends ⟨0⟩ := by rw [← hs]; exact ⟨_, .head _, rfl⟩
  obtain ⟨skipped, -, hfree, hserial, -, -, hbound, hsearch⟩ :=
    thrown.takes_first_free (by rw [hlength]; decide) ⟨.dial, ⟨1⟩, .phone, none, .zero⟩
  simp only [hcounter, hlength, Nat.zero_add] at hfree hserial hbound
  obtain rfl : skipped = 1 := by
    have hpositive : skipped ≠ 0 := by
      rintro rfl
      exact hfree hpending
    omega
  exact ⟨_, s, thrown, rfl, hcounter, hpending, hserial,
    (hsearch 2 ⟨1⟩ _).mpr ⟨rfl, hserial.symm, rfl⟩⟩

end DrawnLedger

end ModemLink
