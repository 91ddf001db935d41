import Mathlib
import ModemLink.Proofs.Placing

/-!
# Every pending request was sent

While no call waits each pending request was sent on the live link, and the radio granted that link
for the bind of the present epoch.  Two things must be asked of the run: that no overflow cut off a
call which was to see to a request, and that the epochs have not started over, because the end of a
bind is taken for the present one by its epoch alone.

* `Run.placed` -- at every moment each pending request is in good hands;
* `Run.pending_sent` -- while no call waits each of them was sent;
* `stranded_after_cut_submission`, `stranded_after_epochs_start_over` -- neither condition can be
  left out.
-/

namespace ModemLink

namespace History

/-- The radio answered the bind of an epoch with a handle. -/
def Granted (history : History) (live : LiveLink) : Prop :=
  ∃ m ∈ history, ∃ use, m.move = .answer (.bind live.epoch use) (Except.ok live.handle)

/-- While a request was pending, its command was sent on a link. -/
def Sent (history : History) (live : LiveLink) (identity : Identity) : Prop :=
  ∃ m ∈ history, ∃ request ∈ m.before.hub.ledger.requests, request.identity = identity ∧
    ∃ payload, m.move = .answer (.send live request.serial request.kind payload) (Except.ok ())

/-- How many epochs there were, the first one included. -/
def epochs (history : History) : Nat :=
  1 + history.countP fun m => m.before.hub.link.epoch ≠ m.after.hub.link.epoch

variable {history : History} {m : Moment}

theorem epochs_cons_of_eq (h : m.before.hub.link.epoch = m.after.hub.link.epoch) :
    epochs (m :: history) = history.epochs := by
  rw [epochs, List.countP_cons_of_neg (by simpa using h), epochs]

theorem epochs_cons_of_ne (h : m.before.hub.link.epoch ≠ m.after.hub.link.epoch) :
    epochs (m :: history) = history.epochs + 1 := by
  rw [epochs, List.countP_cons_of_pos (by simpa using h), epochs, Nat.add_assoc]

theorem epochs_le_cons (m : Moment) (history : History) :
    history.epochs ≤ epochs (m :: history) := by
  by_cases h : m.before.hub.link.epoch = m.after.hub.link.epoch
  · exact Nat.le_of_eq (epochs_cons_of_eq h).symm
  · rw [epochs_cons_of_ne h]
    exact Nat.le_succ _

theorem epochs_le_append (later earlier : History) :
    earlier.epochs ≤ epochs (later ++ earlier) := by
  rw [epochs, epochs, List.countP_append]
  omega

theorem epochs_le (history : History) : history.epochs ≤ 1 + history.length :=
  Nat.add_le_add_left List.countP_le_length 1

end History

namespace Engine

open Clocked

variable {e after : Engine} {move : Move} {history : History}

/-- Every pending request of an engine is in good hands, and the number of its epoch is the count of
those before it. -/
structure Placed (history : History) (e : Engine) : Prop where
  hub : e.hub.Placed history.Sent history.Granted (fun _ => False) (e.stack.map (·.call))
  counted : e.hub.link.epoch.number.toNat + 1 = history.epochs

/-- What has happened stays so. -/
theorem placed_cons {loose : Identity → Prop} {calls : List Outgoing} {hub : Hub}
    (h : hub.Placed history.Sent history.Granted loose calls) (m : Moment) :
    hub.Placed (History.Sent (m :: history)) (History.Granted (m :: history)) loose calls :=
  h.mono (fun _ _ ⟨n, hn, hsent⟩ => ⟨n, List.mem_cons_of_mem _ hn, hsent⟩)
    fun _ ⟨n, hn, hgranted⟩ => ⟨n, List.mem_cons_of_mem _ hn, hgranted⟩

/-- A transition leaves the pending requests of its engine in good hands. -/
theorem Passage.placed {advance : Option Advance} {base : List Suspension} {hub : Hub}
    {transition : Clocked Hub Progress} (h : e.Placed history) (hnext : e.hub.link.epoch.HasNext)
    (hpassage : e.Passage move advance base hub transition) (after : Engine) :
    wp transition
      (Hub.Leaves (History.Sent (⟨e, move, after⟩ :: history))
        (History.Granted (⟨e, move, after⟩ :: history)) (base.map (·.call)) e.hub.link.epoch)
      (fun _ => True) hub := by
  have hplaced := placed_cons h.hub ⟨e, move, after⟩
  cases hpassage with
  | submit room => exact Hub.placed_submit hplaced room hnext
  | connect => exact Hub.placed_bind hplaced hnext
  | receive => exact Hub.placed_receive hplaced
  | die => exact Hub.placed_die (hplaced.mono_loose fun _ => False.elim) hnext
  | answer answer hstack =>
      rw [hstack, List.map_cons] at hplaced
      refine Hub.placed_answered hplaced hnext (fun cookie use handle hmove => ?_)
        fun live serial kind payload hmove request hmem hserial hkind => ?_
      · exact ⟨_, List.mem_cons_self .., use, hmove⟩
      · subst hserial hkind
        exact ⟨_, List.mem_cons_self .., request, hmem, rfl, payload, hmove⟩
  | task => exact Hub.placed_runTask (hplaced.surroundings _ e.hub.station.subscribers) hnext

/-- A move to the same epoch or to the next one is counted right. -/
theorem counted_cons (hcounted : e.hub.link.epoch.number.toNat + 1 = history.epochs)
    (hnext : e.hub.link.epoch.HasNext)
    (hepoch : after.hub.link.epoch = e.hub.link.epoch ∨
      after.hub.link.epoch = e.hub.link.epoch.next) :
    after.hub.link.epoch.number.toNat + 1 = History.epochs (⟨e, move, after⟩ :: history) := by
  rcases hepoch with hsame | hnew
  · rw [History.epochs_cons_of_eq hsame.symm, hsame, hcounted]
  · rw [History.epochs_cons_of_ne (by rw [hnew]; exact (Epoch.next_ne _).symm), hnew,
      Epoch.toNat_next hnext, hcounted]

/-- Every move that is not cut off keeps the pending requests in good hands. -/
theorem Step.placed (h : e.Placed history) (hstep : e.Step move after)
    (huncut : ¬ after.IsCut) (hnext : e.hub.link.epoch.HasNext) :
    after.Placed (⟨e, move, after⟩ :: history) := by
  cases hstep.course with
  | @passage advance base hub transition hpassage =>
      -- The history names the engine after the move, so it has to be named before it is known.
      generalize hafter : { e with hub, stack := base }.follow advance transition = after
        at huncut ⊢
      have hwp := hpassage.placed h hnext after
      rcases follow_of_wp advance { e with hub, stack := base } hwp with
        ⟨call, final, hleft, heq⟩ | ⟨returned, final, control, hleft, -, heq⟩ |
        ⟨overflow, final, -, heq⟩
      · obtain rfl := hafter.symm.trans heq
        exact ⟨hleft.placed, counted_cons h.counted hnext hleft.epoch⟩
      · obtain rfl := hafter.symm.trans heq
        exact ⟨hleft.placed, counted_cons h.counted hnext hleft.epoch⟩
      · obtain rfl := hafter.symm.trans heq
        exact absurd ⟨overflow, rfl⟩ huncut
  | quiet _ _ _ _ =>
      exact ⟨(placed_cons h.hub _).surroundings _ _, counted_cons h.counted hnext (.inl rfl)⟩
  | abandoned _ => exact absurd ⟨_, rfl⟩ huncut

end Engine

/-- At every moment of a run without overflow, in which the epochs have not started over, each
pending request is in good hands. -/
theorem Run.placed {c : Config} {seed : Option Int} {entropy : Entropy} {outside : OutsideStore}
    {history : History} {e : Engine} (run : Run (Engine.start c seed entropy outside) history e)
    (uncut : history.Uncut) (epochs : history.epochs < UInt64.size) : e.Placed history := by
  induction run with
  | start =>
      refine ⟨⟨Ledger.wellFormed_empty _ _, Link.Anchored.fresh, fun request hmem => ?_⟩, rfl⟩
      cases hmem
  | @step history e after move run hstep fresh ih =>
      rw [History.uncut_cons] at uncut
      have hepochs := Nat.lt_of_le_of_lt (History.epochs_le_cons _ history) epochs
      have hplaced := ih uncut.2 hepochs
      -- The epoch has a next one because its number is the count so far.
      refine hstep.placed hplaced uncut.1 ?_
      rw [Epoch.HasNext, hplaced.counted]
      exact hepochs

/-- **No request is stranded.**  While no call waits, pending requests mean a live link, which the
radio granted for the bind of the present epoch, and each of them was sent on it. -/
theorem Run.pending_sent {c : Config} {seed : Option Int} {entropy : Entropy}
    {outside : OutsideStore} {history : History} {e : Engine}
    (run : Run (Engine.start c seed entropy outside) history e) (uncut : history.Uncut)
    (epochs : history.epochs < UInt64.size) (idle : e.stack = [])
    (pending : e.hub.station.ledger.requests ≠ []) :
    ∃ handle, e.hub.link.phase = .bound ∧ e.hub.link.handle = some handle ∧
      history.Granted ⟨handle, e.hub.link.epoch⟩ ∧
      ∀ request ∈ e.hub.station.ledger.requests,
        history.Sent ⟨handle, e.hub.link.epoch⟩ request.identity := by
  obtain ⟨⟨-, hlink, hpending⟩, -⟩ := run.placed uncut epochs
  have hsent : ∀ request ∈ e.hub.station.ledger.requests,
      ∃ live, e.hub.link.current = some live ∧ history.Sent live request.identity := by
    intro request hmem
    rcases hpending request hmem with hreq | hreq | ⟨call, hcall, -⟩
    · exact hreq.elim
    · exact hreq
    · simp [idle] at hcall
  obtain ⟨first, hfirst⟩ := List.exists_mem_of_ne_nil _ pending
  obtain ⟨⟨handle, epoch⟩, hcurrent, -⟩ := hsent first hfirst
  obtain ⟨hphase, hhandle, hepoch⟩ := Link.current_eq_some hcurrent
  obtain rfl : epoch = e.hub.link.epoch := hepoch
  refine ⟨handle, hphase, hhandle, hlink.granted _ hcurrent, fun request hmem => ?_⟩
  obtain ⟨live, hlive, hreq⟩ := hsent request hmem
  rw [hcurrent] at hlive
  exact Option.some.inj hlive ▸ hreq

/-- So it is for a request that was sent. -/
theorem pending_sent_of_sent :
    ∃ history e, Run .plain history e ∧ history.Uncut ∧ history.epochs < UInt64.size ∧
      e.stack = [] ∧ e.hub.station.ledger.requests ≠ [] ∧
      ∃ handle, e.hub.link.phase = .bound ∧ e.hub.link.handle = some handle ∧
        history.Granted ⟨handle, e.hub.link.epoch⟩ ∧
        ∀ request ∈ e.hub.station.ledger.requests,
          history.Sent ⟨handle, e.hub.link.epoch⟩ request.identity := by
  obtain ⟨history, e, run, uncut, idle, -, hsize, -, hlength⟩ := Engine.exists_run_sent
  have hepochs : history.epochs < UInt64.size :=
    Nat.lt_of_le_of_lt history.epochs_le (by rw [hlength]; decide)
  have hpending : e.hub.station.ledger.requests ≠ [] := by
    intro hempty
    rw [run.wellFormed.size_eq, hempty] at hsize
    cases hsize
  exact ⟨history, e, run, uncut, hepochs, idle, hpending,
    Run.pending_sent run uncut hepochs idle hpending⟩

/-- Whether a request is pending that was not sent on the live link. -/
def Stranded (history : History) (e : Engine) : Prop :=
  ∃ request ∈ e.hub.station.ledger.requests,
    ∀ live, e.hub.link.current = some live → ¬ history.Sent live request.identity

theorem stranded_of_no_send {history : History} {e : Engine} (live : LiveLink)
    (hsize : e.hub.station.ledger.requests.length = 1) (hcurrent : e.hub.link.current = some live)
    (h : ∀ m ∈ history, ∀ serial kind payload, m.before.hub.ledger.requests ≠ [] →
      m.move ≠ .answer (.send live serial kind payload) (Except.ok ())) : Stranded history e := by
  obtain ⟨request, hrequest⟩ := List.length_eq_one_iff.mp hsize
  refine ⟨request, by rw [hrequest]; exact List.mem_singleton.mpr rfl, fun live' hlive => ?_⟩
  obtain rfl : live = live' := Option.some.inj (hcurrent.symm.trans hlive)
  rintro ⟨m, hm, old, hold, -, payload, hmove⟩
  exact h m hm _ _ payload (List.ne_nil_of_mem hold) hmove

/-- A submission that is cut off while its deadline is set leaves its request behind, and nothing
was sent. -/
theorem stranded_after_cut_submission :
    ∃ history e, Run (.start { blockingResponseTimeoutMs := 120000 } (some 100) ⟨[]⟩ .silent)
        history e ∧
      history.epochs < UInt64.size ∧ e.stack = [] ∧ Stranded history e := by
  have started : Run (.start { blockingResponseTimeoutMs := 120000 } (some 100) ⟨[]⟩ .silent) []
      _ := .start
  have advancing := started.call (.advance (.ofSeconds 18446744073709551525 (by decide))) none rfl
    trivial (by simp [Move.submitted])
  have advanced := advancing.fire ⟨.ofSeconds 18446744073709551525 (by decide), 0⟩ rfl
  have waiting := advanced.call (.submit .getActivityInfo .empty ⟨0⟩ none) (some (.advanced 0)) rfl
    (by decide) (by simp [History.submitted, Move.submitted])
  have cut := waiting.answer none (.bind ⟨1⟩ (.submission ⟨100⟩ .getActivityInfo .empty))
    (Except.ok (⟨0⟩ : Handle)) none rfl rfl
  refine ⟨_, _, cut, Nat.lt_of_le_of_lt (History.epochs_le _) (by decide), rfl,
    stranded_of_no_send ⟨⟨0⟩, ⟨1⟩⟩ rfl rfl fun m hm serial kind payload _ hmove => ?_⟩
  simp only [List.mem_cons, List.not_mem_nil, or_false] at hm
  rcases hm with rfl | rfl | rfl | rfl <;> cases hmove

namespace Engine

/-- The first bind of a plain engine waits, and a second one under it has failed. -/
def overtaken : Engine :=
  ((plain.call .connect).call .connect).resume ⟨none, .bind ⟨2⟩ .connection⟩
    (Except.error LinkFault.disconnected)

/-- The same in a later epoch, after more such failures. -/
def overtakenIn (epoch : Epoch) (books : Metrics) : Engine :=
  { overtaken with
    hub := { overtaken.hub with
      link := { overtaken.hub.link with epoch }
      station := { overtaken.hub.station with recorder := ⟨books, .silent⟩ } } }

/-- One more bind fails. -/
theorem overtakenIn_fail (epoch : Epoch) (books : Metrics) :
    ((overtakenIn epoch books).call .connect).resume ⟨none, .bind epoch.next .connection⟩
        (Except.error LinkFault.disconnected) =
      overtakenIn epoch.next { books with counters := books.counters.count (.bind false) } := by
  have hend : ((overtakenIn epoch books).call .connect).hub.link.endBind epoch.next
      (.error .disconnected) =
      (.error .disconnected, (overtakenIn epoch.next books).hub.link) := by
    change Link.endBind ⟨.binding, none, true, epoch.next⟩ _ _ = _
    simp only [Link.endBind, if_true]
    rfl
  simp only [resume, follow, Hub.answered, Hub.bindAnswered, Clocked.get_bind, hend]
  rfl

/-- Any number of binds may fail under the first one. -/
theorem exists_run_overtakenIn (n : Nat) :
    ∃ history books, Run plain history (overtakenIn ⟨UInt64.ofNat (n + 2)⟩ books) ∧
      history.Uncut ∧ history.submitted = [] ∧
      ∀ m ∈ history, m.before.hub.ledger.requests = [] := by
  induction n with
  | zero =>
      have started : Run plain [] plain := .start
      have waiting := started.call .connect none rfl trivial (by simp [Move.submitted])
      have again := waiting.call .connect none rfl trivial (by simp [Move.submitted])
      have failed := again.answer none (.bind ⟨2⟩ .connection)
        (Except.error LinkFault.disconnected) none rfl rfl
      refine ⟨_, _, failed, ?_, rfl, ?_⟩
      · simp only [History.uncut_cons]
        refine ⟨?_, ?_, ?_, by simp [History.Uncut]⟩ <;> rintro ⟨overflow, hcut⟩ <;> cases hcut
      · simp only [List.forall_mem_cons]
        exact ⟨rfl, rfl, rfl, by simp⟩
  | succ n ih =>
      obtain ⟨history, books, run, uncut, hsubmitted, hnone⟩ := ih
      have waiting := run.call .connect (some (.connected (.error .disconnected))) rfl trivial
        (by simp [Move.submitted])
      have failed := waiting.answer none (.bind (Epoch.next ⟨UInt64.ofNat (n + 2)⟩) .connection)
        (Except.error LinkFault.disconnected) none rfl rfl
      have hepoch : Epoch.next ⟨UInt64.ofNat (n + 2)⟩ = ⟨UInt64.ofNat (n + 1 + 2)⟩ := by
        simp only [Epoch.next, Nat.add_right_comm n 1 2, UInt64.ofNat_add]
        rfl
      rw [overtakenIn_fail, hepoch] at failed
      refine ⟨_, _, failed, ?_, hsubmitted, ?_⟩
      · simp only [History.uncut_cons]
        refine ⟨?_, ?_, uncut⟩ <;> rintro ⟨overflow, hcut⟩ <;> cases hcut
      · simp only [List.forall_mem_cons]
        exact ⟨rfl, rfl, hnone⟩

end Engine

/-- While a first bind waits under which all other epochs have passed, a request is sent on the link
of the same epoch as that bind; then the bind ends, and its handle takes the place of the other. -/
theorem stranded_after_epochs_start_over :
    ∃ history e, Run .plain history e ∧ history.Uncut ∧ e.stack = [] ∧ Stranded history e := by
  obtain ⟨history, books, run, uncut, hsubmitted, hnone⟩ :=
    Engine.exists_run_overtakenIn 18446744073709551614
  rw [show (⟨UInt64.ofNat (18446744073709551614 + 2)⟩ : Epoch) = .start from rfl] at run
  -- The next bind has the cookie 1 again, which the first one is still waiting with.
  have waiting := run.call (.submit .getImei .empty ⟨0⟩ none)
    (some (.connected (.error .disconnected))) rfl (show 0 < Serial.space by decide)
    (by rw [hsubmitted]; exact fun _ _ => List.not_mem_nil)
  have bound := waiting.answer none (.bind ⟨1⟩ (.submission ⟨100⟩ .getImei .empty))
    (Except.ok (⟨0⟩ : Handle)) none (by cbv) (by cbv)
  have sent := bound.answer none (.send ⟨⟨0⟩, ⟨1⟩⟩ ⟨100⟩ .getImei .empty) (Except.ok ()) none
    (by cbv) (by cbv)
  have answered := sent.answer none (.bind ⟨1⟩ .connection) (Except.ok (⟨1⟩ : Handle))
    (some (.submitted ⟨100⟩)) (by cbv) (by cbv)
  refine ⟨_, _, answered, ?_, by cbv, stranded_of_no_send ⟨⟨1⟩, ⟨1⟩⟩ (by cbv) (by cbv) ?_⟩
  · refine History.uncut_cons.mpr ⟨?_, History.uncut_cons.mpr ⟨?_, History.uncut_cons.mpr ⟨?_,
      History.uncut_cons.mpr ⟨?_, uncut⟩⟩⟩⟩
    · exact Engine.not_isCut (some (.connected (.ok ⟨1⟩))) (by cbv) (by simp)
    · exact Engine.not_isCut (some (.submitted ⟨100⟩)) (by cbv) (by simp)
    · exact Engine.not_isCut none (by cbv) (by simp)
    · exact Engine.not_isCut none (by cbv) (by simp)
  · intro m hm serial kind payload hpending hmove
    rcases List.mem_cons.mp hm with rfl | hm
    · cases hmove
    rcases List.mem_cons.mp hm with rfl | hm
    · cases hmove
    rcases List.mem_cons.mp hm with rfl | hm
    · cases hmove
    rcases List.mem_cons.mp hm with rfl | hm
    · cases hmove
    · exact hpending (hnone m hm)

/-- Neither condition on a run can be left out. -/
theorem stranded_without_conditions :
    (∃ c history e, Run (.start c (some 100) ⟨[]⟩ .silent) history e ∧
      history.epochs < UInt64.size ∧ e.stack = [] ∧ Stranded history e) ∧
    ∃ history e, Run .plain history e ∧ history.Uncut ∧ e.stack = [] ∧ Stranded history e :=
  ⟨⟨_, stranded_after_cut_submission⟩, stranded_after_epochs_start_over⟩

end ModemLink
