import ModemLink.Proofs.Balancing
import ModemLink.Proofs.Turns

/-!
# The books balance

What the counters and the table of latencies say at the end of a run can be told from the run alone:
from the submissions, the results that were handed out, the frames and the calls to the radio.
While no call waits nothing is on its way, and the books say exactly that.

* `Hub.balances_submit`, `Hub.balances_answered` and the others -- every transition keeps the
  balance;
* `Engine.Step.balances`, `Run.balances` -- so does every move, and every run;
* `Run.books_balance` -- what the books of an idle engine say.
-/

namespace ModemLink

namespace Hub

open Clocked

variable {known : TargetId → Option (RequestKind × Duration)} {now : Duration}
  {carried : List PendingRequest} {seen : Seen} {hub : Hub}

/-- The balance is kept by a transition: what it hands out was seen to take its time, and what it
has still to fail is carried. -/
def Balanced (known : TargetId → Option (RequestKind × Duration)) (now : Duration)
    (carried : List PendingRequest) (seen : Seen) (progress : Progress) (hub : Hub) : Prop :=
  hub.station.Balances known now (progress.carried ++ carried)
    { seen with times := progress.delivered.filterMap (timeTaken known now) ++ seen.times }

theorem balances_scheduleReconnect {post : Unit → Hub → Prop}
    (h : hub.station.Balances known now carried seen)
    (hpost : ∀ after : Hub, after.station.Balances known now carried seen → post () after) :
    wp scheduleReconnect post (fun _ => True) hub := by
  simp only [scheduleReconnect, wp_bind, wp_get]
  split
  · exact hpost hub h
  · simp only [wp_bind, wp_set, wp_atStation]
    exact h.wp_schedule fun t ht => hpost _ ht

theorem balances_bound {use : BindUse} {answer : Except LinkFault LiveLink}
    (h : hub.station.Balances known now carried seen) :
    wp (bound use answer) (Balanced known now carried seen) (fun _ => True) hub := by
  cases use with
  | connection => exact h
  | retry => exact h
  | submission serial kind payload =>
      cases answer with
      | ok live =>
          simp only [bound, wp_bind, wp_atStation]
          exact h.wp_arm fun _ t ht => ht
      | error fault =>
          simp only [bound, wp_bind, wp_atStation]
          refine h.wp_complete (fun _ => h) fun request hmem hserial t hknown ht => ?_
          simp only [wp_bind, wp_atStation]
          exact ht.wp_settle hknown (.inl rfl) fun t ht => ht

theorem balances_bind {use : BindUse} (h : hub.station.Balances known now carried seen) :
    wp (bind use) (Balanced known now carried seen) (fun _ => True) hub := by
  simp only [bind, wp_bind, wp_get]
  split
  · exact balances_bound h
  · exact h

/-- An answered bind is counted, whatever the answer. -/
theorem balances_bindAnswered {cookie : Epoch} {use : BindUse} {answer : Except LinkFault Handle}
    (h : hub.station.Balances known now carried seen) :
    wp (bindAnswered cookie use answer)
      (Balanced known now carried { seen with binds := seen.binds + 1 }) (fun _ => True) hub := by
  simp only [bindAnswered, wp_bind, wp_get, wp_set]
  split
  · simp only [wp_bind, record, wp_atStation]
    exact h.wp_record 0 1 0 (fun _ => rfl) fun t ht => balances_bound ht
  · simp only [wp_bind, record, wp_atStation]
    refine h.wp_record 0 0 1 (fun _ => rfl) fun t ht => ?_
    exact balances_scheduleReconnect ht fun after hafter => balances_bound hafter

/-- The requests that a death took out are carried until each of them has been failed. -/
theorem balances_drainNext {requests : List PendingRequest} {use : DeathUse}
    (h : hub.station.Balances known now (requests ++ carried) seen) :
    wp (drainNext requests use) (Balanced known now carried seen) (fun _ => True) hub := by
  cases requests with
  | nil =>
      simp only [drainNext, wp_bind]
      exact balances_scheduleReconnect h fun after hafter => hafter
  | cons request rest =>
      have hknown := h.known request
        (List.mem_append_right _ (List.mem_append_left _ (List.mem_cons_self ..)))
      simp only [drainNext, wp_bind, wp_atStation]
      exact h.wp_settle hknown (.inr ⟨rfl, rfl⟩) fun t ht => ht

theorem balances_die {cookie : Epoch} {use : DeathUse}
    (h : hub.station.Balances known now carried seen) :
    wp (die cookie use) (Balanced known now carried seen) (fun _ => True) hub := by
  simp only [die, wp_bind, wp_get]
  split
  · exact h
  · simp only [wp_bind, wp_set, wp_atStation]
    exact h.wp_drainAll fun drained t ht => balances_drainNext ht

theorem balances_acknowledge {live : Option LiveLink}
    (h : hub.station.Balances known now carried seen) :
    wp (acknowledge live) (Balanced known now carried seen) (fun _ => True) hub := by
  cases live with
  | none => exact h
  | some live =>
      simp only [acknowledge, wp_bind, wp_get, wp_atStation]
      exact h.wp_acquire fun _ t ht => ht

/-- A stray frame is counted. -/
theorem balances_receive {frame : Frame} (h : hub.station.Balances known now carried seen) :
    wp (receive frame)
      (Balanced known now carried
        { seen with strays := seen.strays + (hub.station.ledger.misses frame).toNat })
      (fun _ => True) hub := by
  simp only [receive, wp_bind, wp_get, wp_atStation]
  refine h.wp_receive fun reception t ht => ?_
  cases reception with
  | replied serial delivery => exact ht
  | _ => exact balances_acknowledge ht

/-- A submission is counted before anything is called. -/
theorem balances_submit {kind : RequestKind} {payload : Payload} {target : TargetId}
    {source : Option WorkSource} (h : hub.station.Balances known now carried seen)
    (hroom : hub.station.ledger.size < Serial.space) (hknown : known target = some (kind, now)) :
    wp (submit kind payload target source)
      (Balanced known now carried { seen with submitted := seen.submitted + 1 }) (fun _ => True)
      hub := by
  have hstation := h.wp_submit kind target (source.getD hub.station.settings.ackSource)
    (fun serial t => wp (bind (.submission serial kind payload))
      (Balanced known now carried { seen with submitted := seen.submitted + 1 }) (fun _ => True)
      { hub with station := t })
    hroom hknown (fun serial t ht => balances_bind ht)
  simp only [wp_bind] at hstation
  simp only [submit, wp_bind, wp_get, record, wp_atStation]
  exact hstation

theorem balances_runTask {task : Task} (h : hub.station.Balances known now carried seen) :
    wp (runTask task) (Balanced known now carried seen) (fun _ => True) hub := by
  cases task with
  | expiry guard sequence =>
      simp only [runTask, wp_bind, wp_atStation]
      exact h.wp_expire fun t ht => ht
  | deadline serial kind sentIn =>
      simp only [runTask, wp_bind, wp_get, wp_atStation]
      refine h.wp_overdue fun found t ht => ?_
      cases found <;> exact ht
  | reconnect =>
      simp only [runTask, wp_bind, wp_get, wp_set]
      split
      · exact h
      · exact balances_bind h

end Hub

/-- Whether a call asks the radio to bind. -/
def Outgoing.binds : Outgoing → Bool
  | .bind _ _ => true
  | _ => false

/-- An answer keeps the balance; what the answered call left to be failed is carried on. -/
theorem Hub.balances_answered {known : TargetId → Option (RequestKind × Duration)} {now : Duration}
    {carried : List PendingRequest} {seen : Seen} {hub : Hub} {call : Outgoing}
    {answer : call.Answer}
    (h : hub.station.Balances known now (call.carried ++ carried) seen) :
    Clocked.wp (answered call answer)
      (Balanced known now carried { seen with binds := seen.binds + call.binds.toNat })
      (fun _ => True) hub := by
  cases call with
  | bind cookie use => exact balances_bindAnswered h
  | send live serial kind payload =>
      cases answer with
      | ok _ => exact h
      | error fault => exact balances_die h
  | deliver delivery use =>
      cases use with
      | reply live => exact balances_acknowledge h
      | refusal serial => exact h
      | drain rest use => exact balances_drainNext h
      | deadline => exact h
  | sendAck live =>
      cases answer with
      | ok _ =>
          simp only [answered, Clocked.wp_bind, record, wp_atStation]
          exact h.wp_record 0 0 0 (fun _ => rfl) fun t ht => ht
      | error fault => exact balances_die h

/-! ## Runs -/

/-- Whether a move hands an engine a frame for a serial that is not pending. -/
def Engine.misses (e : Engine) : Move → Bool
  | .call (.receive frame) => e.hub.station.ledger.misses frame
  | _ => false

/-- The binds that a move answers. -/
def Move.bindsAnswered : Move → Nat
  | .answer outgoing _ => outgoing.binds.toNat
  | _ => 0

namespace History

/-- The kind of the request of a target, and when it was submitted. -/
def submission? : History → TargetId → Option (RequestKind × Duration)
  | [], _ => none
  | m :: earlier, target =>
    match m.move with
    | .call (.submit kind _ submitted _) =>
      if submitted = target then some (kind, m.before.now) else submission? earlier target
    | _ => submission? earlier target

/-- The kinds of the requests whose results were handed out, and the time that each of them took
from its submission on; the latest in front. -/
def times : History → List (RequestKind × Duration)
  | [] => []
  | m :: earlier =>
    (m.made.elim [] Outgoing.delivered).filterMap
      (timeTaken (submission? (m :: earlier)) m.after.now) ++ times earlier

/-- How many frames were for serials that were not pending. -/
def strays (history : History) : Nat := history.countP fun m => m.before.misses m.move

/-- How many times the radio was asked to bind. -/
def connects (history : History) : Nat := history.countP (·.made.any Outgoing.binds)

/-- Only submitted targets are known. -/
theorem mem_submitted_of_submission? {history : History} {target : TargetId}
    {entry : RequestKind × Duration} (h : history.submission? target = some entry) :
    target ∈ history.submitted := by
  induction history with
  | nil => cases h
  | cons m earlier ih =>
      obtain ⟨before, move, after⟩ := m
      rw [submitted, List.flatMap_cons, List.mem_append]
      unfold submission? at h
      split at h
      · rename_i kind payload target' source hmove
        split at h
        · rename_i hsame
          subst hsame
          refine .inl ?_
          dsimp only at hmove ⊢
          rw [hmove]
          exact List.mem_singleton.mpr rfl
        · exact .inr (ih h)
      · exact .inr (ih h)

/-- And all of them are. -/
theorem exists_submission? {history : History} {target : TargetId}
    (h : target ∈ history.submitted) :
    ∃ entry, history.submission? target = some entry := by
  induction history with
  | nil => cases h
  | cons m earlier ih =>
      rw [submitted, List.flatMap_cons, List.mem_append] at h
      unfold submission?
      split
      · rename_i kind payload submitted source hmove
        by_cases hsame : submitted = target
        · exact ⟨_, if_pos hsame⟩
        · rw [if_neg hsame]
          refine ih (h.resolve_left fun hmem => ?_)
          rw [hmove] at hmem
          exact hsame (List.mem_singleton.mp hmem).symm
      · rename_i hother
        refine ih (h.resolve_left fun hmem => ?_)
        unfold Move.submitted at hmem
        split at hmem
        · rename_i kind payload submitted source hmove
          exact hother kind payload submitted source hmove
        · cases hmem

/-- A new submission makes nobody else's unknown. -/
theorem submission?_cons {history : History} {m : Moment}
    (fresh : ∀ target ∈ m.move.submitted, target ∉ history.submitted) (target : TargetId)
    (entry : RequestKind × Duration) (h : history.submission? target = some entry) :
    submission? (m :: history) target = some entry := by
  unfold submission?
  split
  · rename_i kind payload submitted source hmove
    split
    · rename_i hsame
      subst hsame
      have hmem : submitted ∈ m.move.submitted := by
        rw [hmove]
        exact List.mem_singleton.mpr rfl
      exact absurd (mem_submitted_of_submission? h) (fresh submitted hmem)
    · exact h
  · exact h

end History

namespace Engine

open Clocked

variable {known : TargetId → Option (RequestKind × Duration)} {seen : Seen} {history : History}
  {e after : Engine} {move : Move}

/-- How many binds wait for an answer. -/
def binding (e : Engine) : Nat := e.stack.countP (·.call.binds)

/-- The books of an engine are in balance with its history, a bind that waits left aside. -/
def Balances (history : History) (e : Engine) : Prop :=
  ∃ answered, answered + e.binding = history.connects ∧
    e.hub.station.Balances history.submission? e.now e.drained
      ⟨history.submitted.length, history.times, history.strays, answered⟩

/-- A transition keeps the balance of the engine it is run for. -/
theorem Passage.balances {advance : Option Advance} {base : List Suspension} {hub : Hub}
    {transition : Clocked Hub Progress} (h : e.hub.station.Balances known e.now e.drained seen)
    (hknown : ∀ kind payload target source, move = .call (.submit kind payload target source) →
      known target = some (kind, e.now))
    (hpassage : e.Passage move advance base hub transition) :
    wp transition
      (Hub.Balanced known hub.station.now (carriedBy base)
        { seen with
          submitted := seen.submitted + move.submitted.length
          strays := seen.strays + (e.misses move).toNat
          binds := seen.binds + move.bindsAnswered })
      (fun _ => True) hub := by
  cases hpassage with
  | @submit kind payload target source room =>
      exact Hub.balances_submit h room (hknown kind payload target source rfl)
  | connect =>
      exact Hub.balances_bind h
  | receive =>
      exact Hub.balances_receive h
  | die =>
      exact Hub.balances_die h
  | answer answer hstack =>
      rw [drained, hstack, carriedBy_cons] at h
      exact Hub.balances_answered h
  | @task advance task timeline =>
      exact Hub.balances_runTask (h.surroundings timeline e.hub.station.subscribers)

/-- The binds that wait are the one that is answered and those that go on waiting. -/
theorem Passage.binding {advance : Option Advance} {base : List Suspension} {hub : Hub}
    {transition : Clocked Hub Progress} (h : e.Passage move advance base hub transition) :
    e.binding = move.bindsAnswered + base.countP (·.call.binds) := by
  cases h with
  | @answer advance call answer base hstack =>
      rw [Engine.binding, hstack, List.countP_cons, Nat.add_comm]
      cases hbinds : call.binds <;> simp [Move.bindsAnswered, hbinds]
  | _ => exact (Nat.zero_add _).symm

/-- A move that runs a transition and is not cut off keeps the balance. -/
theorem Passage.balances_follow {advance : Option Advance} {base : List Suspension} {hub : Hub}
    {transition : Clocked Hub Progress} (h : e.Balances history)
    (fresh : ∀ target ∈ move.submitted, target ∉ history.submitted)
    (hpassage : e.Passage move advance base hub transition)
    (hafter : after = { e with hub, stack := base }.follow advance transition)
    (huncut : ¬ after.IsCut) : after.Balances (⟨e, move, after⟩ :: history) := by
  obtain ⟨answered, hanswered, hbalances⟩ := h
  have hmore := hbalances.more (History.submission?_cons (m := ⟨e, move, after⟩) fresh)
  have hknown : ∀ kind payload target source,
      move = .call (.submit kind payload target source) →
      History.submission? (⟨e, move, after⟩ :: history) target = some (kind, e.now) := by
    rintro kind payload target source rfl
    exact if_pos rfl
  have hwp := hpassage.balances hmore hknown
  have hbinding := hpassage.binding
  -- whatever call is made: the times, the frames and the binds so far
  have hreached : ∀ (progress : Progress) (final : Hub),
      Hub.Balanced (History.submission? (⟨e, move, after⟩ :: history)) hub.station.now
        (carriedBy base)
        { submitted := history.submitted.length + move.submitted.length
          times := history.times
          strays := history.strays + (e.misses move).toNat
          binds := answered + move.bindsAnswered } progress final →
      after.hub = final → after.drained = progress.carried ++ carriedBy base →
      (Moment.mk e move after).made.elim [] Outgoing.delivered = progress.delivered →
      after.binding = ((Moment.mk e move after).made.any Outgoing.binds).toNat +
        base.countP (·.call.binds) →
      after.Balances (⟨e, move, after⟩ :: history) := by
    intro progress final hbalanced hfinal hdrained hdelivered hwaiting
    have hnow : after.now = hub.station.now := by
      rw [Engine.now, hfinal]
      exact hbalanced.clock
    refine ⟨answered + move.bindsAnswered, ?_, ?_⟩
    · rw [hwaiting, History.connects, List.countP_cons]
      rw [History.connects] at hanswered
      cases (Moment.mk e move after).made.any Outgoing.binds <;> simp <;> omega
    · have hsubmitted : (History.submitted (⟨e, move, after⟩ :: history)).length =
          history.submitted.length + move.submitted.length := by
        rw [History.submitted, List.flatMap_cons, List.length_append, Nat.add_comm]
        rfl
      have hstrays : History.strays (⟨e, move, after⟩ :: history) =
          history.strays + (e.misses move).toNat := by
        rw [History.strays, List.countP_cons]
        cases e.misses move <;> rfl
      rw [hsubmitted, hstrays, History.times, hdelivered, hfinal, hdrained, hnow]
      exact hbalanced
  rcases follow_of_wp advance { e with hub, stack := base } hwp with
    ⟨call, final, hbalanced, heq⟩ | ⟨returned, final, control, hbalanced, hcontrol, heq⟩ |
    ⟨overflow, final, -, heq⟩
  · have hmade : (Moment.mk e move after).made = some call := by
      rw [hpassage.made, hafter, heq]
      rfl
    refine hreached (.waits call) final hbalanced (by rw [hafter, heq]) ?_ (by rw [hmade]; rfl) ?_
    · rw [hafter, heq]
      rfl
    · rw [hmade, hafter, heq, Engine.binding, List.countP_cons, Nat.add_comm]
      cases hbinds : call.binds <;> simp [hbinds]
  · have hmade : (Moment.mk e move after).made = none := by
      rw [hpassage.made, hafter, heq]
      exact calling_of_control hcontrol
    refine hreached (.ends returned) final hbalanced (by rw [hafter, heq]) ?_
      (by rw [hmade]; rfl) ?_
    · rw [hafter, heq]
      rfl
    · rw [hmade, hafter, heq]
      exact (Nat.zero_add _).symm
  · rw [hafter, heq] at huncut
    exact absurd ⟨overflow, rfl⟩ huncut

/-- Where only the clock and the surroundings change nothing is counted. -/
theorem balances_quiet {timeline : Timeline Task} {subscribers : Subscribers} {control : Control}
    {owners : Nat} (h : e.Balances history) (hsubmitted : move.submitted = [])
    (hstray : e.misses move = false)
    (hmade : (Moment.mk e move after).made = none)
    (hafter : after = { e with
      hub := { e.hub with station := { e.hub.station with timeline, subscribers } }
      control
      owners }) : after.Balances (⟨e, move, after⟩ :: history) := by
  obtain ⟨answered, hanswered, hbalances⟩ := h
  have hfresh : ∀ target ∈ move.submitted, target ∉ history.submitted := by
    rw [hsubmitted]
    exact fun target hmem => absurd hmem List.not_mem_nil
  have hmore := hbalances.more (History.submission?_cons (m := ⟨e, move, after⟩) hfresh)
  have hconnects : History.connects (⟨e, move, after⟩ :: history) = history.connects :=
    List.countP_cons_of_neg (by rw [hmade]; exact Bool.false_ne_true)
  have hstrays : History.strays (⟨e, move, after⟩ :: history) = history.strays :=
    List.countP_cons_of_neg (by rw [hstray]; exact Bool.false_ne_true)
  have hlength : History.submitted (⟨e, move, after⟩ :: history) = history.submitted := by
    rw [History.submitted, List.flatMap_cons, hsubmitted]
    rfl
  have hbinding : after.binding = e.binding := by rw [hafter]; rfl
  refine ⟨answered, by rw [hconnects, hbinding, hanswered], ?_⟩
  rw [hlength, hstrays, History.times, hmade]
  have hsurroundings := hmore.surroundings timeline subscribers
  rw [hafter] at hsurroundings ⊢
  exact hsurroundings

/-- Every move that is not cut off keeps the balance. -/
theorem Step.balances (h : e.Balances history)
    (fresh : ∀ target ∈ move.submitted, target ∉ history.submitted) (hstep : e.Step move after)
    (huncut : ¬ after.IsCut) : after.Balances (⟨e, move, after⟩ :: history) := by
  cases hstep with
  | call call hcontrol hadmits =>
      cases call with
      | submit kind payload target source =>
          exact Passage.balances_follow h fresh (.submit hadmits) rfl huncut
      | connect => exact Passage.balances_follow h fresh .connect rfl huncut
      | receive frame => exact Passage.balances_follow h fresh .receive rfl huncut
      | die cookie => exact Passage.balances_follow h fresh .die rfl huncut
      | advance length =>
          obtain ⟨advance, -, heq⟩ := exists_advance_of_not_isCut huncut
          exact balances_quiet h rfl rfl (by rw [heq]; rfl) heq
  | answer advance call answer last hcontrol hstack =>
      refine Passage.balances_follow h fresh (.answer answer hstack) ?_ huncut
      rw [resume, hstack, List.tail_cons]
  | @fire advance hcontrol =>
      cases hdue : e.hub.station.timeline.popDue? advance.target with
      | none =>
          have heq : e.fire advance =
              { e.withTimeline (e.hub.station.timeline.setNow advance.target) with
                control := .outside (some (.advanced advance.fired)) } := by
            simp only [Engine.fire, hdue]
          exact balances_quiet h rfl rfl (by rw [heq]; rfl) heq
      | some due =>
          obtain ⟨task, timeline⟩ := due
          by_cases hserves : (e.withTimeline timeline).serves task = true
          · have hpassage : e.Passage .fire (some advance) e.stack (e.withTimeline timeline).hub
                (Hub.runTask task) := .task
            refine hpassage.balances_follow h fresh ?_ huncut
            simp only [Engine.fire, hdue]
            exact if_pos hserves
          · have heq : e.fire advance =
                { e.withTimeline timeline with control := .firing advance.step } := by
              simp only [Engine.fire, hdue]
              exact if_neg hserves
            exact balances_quiet h rfl rfl (by rw [heq]; rfl) heq
  | abandon hcontrol hstack => exact absurd ⟨_, rfl⟩ huncut
  | owners count hcontrol => exact balances_quiet h rfl rfl rfl rfl
  | subscribers subscribers hcontrol => exact balances_quiet h rfl rfl rfl rfl

end Engine

/-- Every run without overflow keeps the books in balance with its history. -/
theorem Run.balances {c : Config} {seed : Option Int} {entropy : Entropy} {outside : OutsideStore}
    {history : History} {e : Engine} (run : Run (Engine.start c seed entropy outside) history e)
    (uncut : history.Uncut) : e.Balances history := by
  induction run with
  | start => exact ⟨0, rfl, Station.Balances.start _ _ _ _ _⟩
  | step run hstep fresh ih =>
      obtain ⟨hlast, hearlier⟩ := History.uncut_cons.mp uncut
      exact hstep.balances (ih hearlier) fresh hlast

/-! ## The books of an idle engine -/

/-- None of the numbers that the counters follow has reached the range of 64 bits. -/
structure Engine.InRange (history : History) (e : Engine) : Prop where
  submitted : history.submitted.length < UInt64.size
  connects : history.connects < UInt64.size
  strays : history.strays < UInt64.size
  clearings : e.hub.station.governor.request.expirations < UInt64.size

/-- Every result that was handed out has its time. -/
theorem Run.length_times {c : Config} {seed : Option Int} {entropy : Entropy}
    {outside : OutsideStore} {history : History} {e : Engine}
    (run : Run (Engine.start c seed entropy outside) history e) (uncut : history.Uncut) :
    history.times.length = history.delivered.length := by
  induction run with
  | start => rfl
  | @step history e after move run hstep fresh ih =>
      have hboth := (run.step hstep fresh).accounts uncut
      have hknown : ∀ target ∈ (Moment.mk e move after).made.elim [] Outgoing.delivered,
          ((timeTaken (History.submission? (⟨e, move, after⟩ :: history)) after.now target).isSome :
            Prop) := by
        intro target htarget
        have hmem : target ∈ (History.delivered (⟨e, move, after⟩ :: history) :
            Multiset TargetId) := by
          rw [History.delivered, List.flatMap_cons]
          exact Multiset.mem_coe.mpr (List.mem_append_left _ htarget)
        have hsubmitted : target ∈ (History.submitted (⟨e, move, after⟩ :: history) :
            Multiset TargetId) := by
          rw [hboth.books.targets]
          exact Multiset.mem_add.mpr (.inr hmem)
        obtain ⟨entry, hentry⟩ := History.exists_submission? (Multiset.mem_coe.mp hsubmitted)
        rw [timeTaken, hentry]
        rfl
      have hearlier := ih (History.uncut_cons.mp uncut).2
      rw [History.delivered] at hearlier ⊢
      rw [List.flatMap_cons, List.length_append, ← hearlier, History.times, List.length_append,
        List.length_filterMap_eq_countP, List.countP_eq_length.mpr hknown]

/-- **The books balance.**  While no call waits, the row of each kind in the table of latencies has
the number of completed requests of the kind, the sum of the times that they took, and the longest
of these; and the rows add up to the completions.  The counters of binds add up to the times the
radio was asked to bind, and those of clearings and violations say how often the request guard was
cleared and how many frames came for serials that were not pending.  A death has failed whatever it
counted, and no request was acknowledged twice. -/
theorem Run.books_balance {c : Config} {seed : Option Int} {entropy : Entropy}
    {outside : OutsideStore} {history : History} {e : Engine}
    (run : Run (Engine.start c seed entropy outside) history e) (uncut : history.Uncut)
    (idle : e.stack = []) (inRange : e.InRange history) :
    (∀ kind,
      ((e.hub.station.recorder.books.latency.row kind).count.toNat =
          (latenciesOf kind history.times).length ∧
        (e.hub.station.recorder.books.latency.row kind).total.nanos =
          ((latenciesOf kind history.times).map (·.nanos)).sum ∧
        (e.hub.station.recorder.books.latency.row kind).max.nanos =
          ((latenciesOf kind history.times).map (·.nanos)).foldr Nat.max 0)) ∧
    history.times.length = history.delivered.length ∧
    (e.hub.station.recorder.books.latency.toList.map (·.2.count.toNat)).sum =
      e.hub.station.counters.completed.toNat ∧
    e.hub.station.counters.binds.toNat + e.hub.station.counters.bindFailures.toNat =
      history.connects ∧
    e.hub.station.counters.wakelockTimeouts.toNat =
      e.hub.station.governor.request.expirations ∧
    e.hub.station.counters.drained ≤ e.hub.station.counters.unavailable ∧
    e.hub.station.counters.acksReceived ≤ e.hub.station.counters.submitted ∧
    e.hub.station.counters.violations.toNat = history.strays := by
  obtain ⟨answered, hanswered, hbalances⟩ := run.balances uncut
  obtain ⟨totals, hseen, hshown, htimeouts, hdrained, hacks⟩ := hbalances.totals
  obtain ⟨hsubmitted, htimes, hstrays, hbinds⟩ := Seen.mk.inj hseen
  have hlength := run.length_times uncut
  have hcompletions : totals.completions.length < UInt64.size := by
    have htargets := congrArg Multiset.card (run.accounts uncut).books.targets
    rw [Multiset.card_add, Multiset.coe_card, Multiset.coe_card] at htargets
    rw [← totals.length_times, htimes, hlength]
    exact Nat.lt_of_le_of_lt (by omega) inRange.submitted
  have hidle : e.binding = 0 := by rw [Engine.binding, idle]; rfl
  have hcarried : e.drained.length = 0 := by rw [Engine.drained, idle]; rfl
  rw [hidle, Nat.add_zero] at hanswered
  rw [hcarried, Nat.add_zero] at hdrained
  rw [hanswered] at hbinds
  have hconnects := inRange.connects
  have hended := totals.ended_le .unavailable
  have hcounters : e.hub.station.counters = e.hub.station.recorder.books.counters := rfl
  have hin {n : Nat} (h : n < UInt64.size) : (UInt64.ofNat n).toNat = n :=
      UInt64.toNat_ofNat_of_lt' h
  refine ⟨fun kind => ⟨?_, ?_, ?_⟩, hlength, ?_, ?_, ?_, ?_, ?_, ?_⟩
  · rw [(hshown.latency kind).count, htimes, hin]
    refine Nat.lt_of_le_of_lt ?_ hcompletions
    rw [← totals.length_times, htimes, latenciesOf, List.length_map]
    exact List.length_filter_le _ _
  · rw [(hshown.latency kind).total, htimes]
  · rw [(hshown.latency kind).max, htimes]
  · rw [hshown.sum_counts hcompletions, hcounters, hshown.completed, hin hcompletions]
  · change totals.bound + totals.refused = _ at hbinds
    rw [hcounters, hshown.bound, hshown.refused, hin (by omega), hin (by omega), hbinds]
  · rw [hcounters, hshown.timeouts, htimeouts, hin inRange.clearings]
  · have hunavailable : e.hub.station.counters.unavailable =
      UInt64.ofNat (totals.ended .unavailable) :=
      hshown.outcomes .unavailable
    rw [hunavailable, hcounters, hshown.drained, UInt64.le_iff_toNat_le, hin (by omega),
      hin (by omega)]
    exact hdrained
  · have hrange := inRange.submitted
    change totals.submitted = _ at hsubmitted
    rw [hcounters, hshown.acks, hshown.submitted, UInt64.le_iff_toNat_le, hin (by omega),
      hin (by omega)]
    omega
  · change totals.violations = _ at hstrays
    rw [hcounters, hshown.violations, hstrays, hin inRange.strays]

/-- A request is submitted and sent, and a death fails it; then an acknowledgment comes for it.  One
completion, one bind and one violation. -/
theorem books_balance_of_death :
    ∃ history e, Run .plain history e ∧ history.Uncut ∧ e.stack = [] ∧ e.InRange history ∧
      (e.hub.station.recorder.books.latency.row .getImei).count.toNat = 1 ∧
      (e.hub.station.recorder.books.latency.toList.map (·.2.count.toNat)).sum =
        e.hub.station.counters.completed.toNat ∧
      e.hub.station.counters.binds.toNat + e.hub.station.counters.bindFailures.toNat = 1 ∧
      e.hub.station.counters.violations.toNat = 1 := by
  obtain ⟨history, e, run, uncut, idle, hsubmitted, hclearings, htimes, hconnects, hstrays⟩ :
      ∃ history e, Run .plain history e ∧ history.Uncut ∧ e.stack = [] ∧
        history.submitted.length = 1 ∧ e.hub.station.governor.request.expirations = 0 ∧
        (latenciesOf .getImei history.times).length = 1 ∧ history.connects = 1 ∧
        history.strays = 1 := by
    have started : Run .plain [] .plain := .start
    have waiting := started.call (.submit .getImei .empty ⟨0⟩ none) none rfl (by decide)
      (by simp [History.submitted])
    have bound := waiting.answer none (.bind ⟨1⟩ (.submission ⟨100⟩ .getImei .empty))
      (Except.ok (⟨0⟩ : Handle)) none rfl rfl
    have sent := bound.answer none (.send ⟨⟨0⟩, ⟨1⟩⟩ ⟨100⟩ .getImei .empty) (Except.ok ()) none rfl
      rfl
    have dying := sent.call (.die ⟨1⟩) (some (.submitted ⟨100⟩)) rfl trivial
      (by simp [Move.submitted])
    have dead := dying.answer none (.deliver ⟨⟨0⟩, .error .unavailable⟩ (.drain [] .report)) () none
      (by cbv) (by cbv)
    have stray := dead.call (.receive (.ack ⟨100⟩)) (some .handled) (by cbv) trivial
      (by simp [Move.submitted])
    refine ⟨_, _, stray, ?_, by cbv, rfl, by cbv, by cbv, by cbv, by cbv⟩
    simp only [History.uncut_cons, Engine.isCut_iff, Bool.not_eq_true]
    exact ⟨by cbv, by cbv, by cbv, by cbv, by cbv, by cbv, by simp [History.Uncut]⟩
  have inRange : e.InRange history :=
    ⟨by rw [hsubmitted]; decide, by rw [hconnects]; decide, by rw [hstrays]; decide,
      by rw [hclearings]; decide⟩
  obtain ⟨hrows, -, hsum, hbinds, -, -, -, hviolations⟩ :=
    Run.books_balance run uncut idle inRange
  exact ⟨history, e, run, uncut, idle, inRange, (hrows .getImei).1.trans htimes, hsum,
    hbinds.trans hconnects, hviolations.trans hstrays⟩

end ModemLink
