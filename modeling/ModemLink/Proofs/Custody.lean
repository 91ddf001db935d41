import Mathlib
import ModemLink.Proofs.Accounts
import ModemLink.Proofs.Runs

/-!
# Who has the requests

The engine keeps accounts of the submitted requests: those in the ledger, those that a death has
taken out and some waiting call has still to fail, and those whose results were delivered.  Every
transition that is not cut off by an overflow keeps them, so they are right at every moment of a run
without overflow.

* `Hub.accounts_submit`, `Hub.accounts_answered` and the others -- every transition keeps accounts;
* `Run.accounts` -- so does every run;
* `Run.completed_once` -- each request is pending, or its target has got one result;
* `Run.guardHeldFor_pending` -- the request guard is held for the pending requests and no others;
* `guard_held_after_cut_submission` -- but an overflow may leave a unit behind.
-/

namespace ModemLink

/-- The requests that a transition leaves to be failed. -/
def Progress.carried : Progress → List PendingRequest
  | .waits call => call.carried
  | .ends _ => []

/-- The target that a transition hands a result to. -/
def Progress.delivered : Progress → List TargetId
  | .waits call => call.delivered
  | .ends _ => []

namespace Hub

open Clocked

variable {submitted delivered : Multiset TargetId} {carried : Multiset PendingRequest} {hub : Hub}

/-- The accounts are kept by a transition: what it hands out is delivered, and what it has still to
fail is carried. -/
def Accounted (submitted delivered : Multiset TargetId) (carried : Multiset PendingRequest)
    (progress : Progress) (hub : Hub) : Prop :=
  hub.station.Accounts submitted (progress.delivered + delivered) (progress.carried + carried)

theorem accounted_ends {returned : Returned}
    (h : hub.station.Accounts submitted delivered carried) :
    Accounted submitted delivered carried (.ends returned) hub := by
  simpa [Accounted, Progress.delivered, Progress.carried] using h

theorem accounted_waits {call : Outgoing} (h : hub.station.Accounts submitted delivered carried)
    (hdelivered : call.delivered = []) (hcarried : call.carried = []) :
    Accounted submitted delivered carried (.waits call) hub := by
  simpa [Accounted, Progress.delivered, Progress.carried, hdelivered, hcarried] using h

theorem accounted_deliver {delivery : Delivery} {use : DeliveryUse}
    (h : hub.station.Accounts submitted (delivery.target ::ₘ delivered)
      ((Outgoing.deliver delivery use).carried + carried)) :
    Accounted submitted delivered carried (.waits (.deliver delivery use)) hub := by
  simpa [Accounted, Progress.delivered, Progress.carried, Outgoing.delivered] using h

/-- To schedule the next attempt to bind is no business of the requests. -/
theorem accounts_scheduleReconnect {post : Unit → Hub → Prop}
    (h : hub.station.Accounts submitted delivered carried)
    (hpost : ∀ after : Hub, after.station.Accounts submitted delivered carried → post () after) :
    wp scheduleReconnect post (fun _ => True) hub :=
  wp_scheduleReconnect (fun timeline _ => hpost _ (h.surroundings timeline hub.station.subscribers))
    fun _ => trivial

theorem accounts_bound {use : BindUse} {answer : Except LinkFault LiveLink}
    (h : hub.station.Accounts submitted delivered carried) :
    wp (bound use answer) (Accounted submitted delivered carried) (fun _ => True) hub := by
  cases use with
  | connection => exact accounted_ends h
  | retry => exact accounted_ends h
  | submission serial kind payload =>
      cases answer with
      | ok live =>
          simp only [bound, wp_bind, wp_atStation]
          exact h.wp_arm fun _ t ht => accounted_waits ht rfl rfl
      | error fault =>
          simp only [bound, wp_bind, wp_atStation]
          refine h.wp_complete (fun t ht => accounted_ends ht) (fun request t ht => ?_)
          simp only [wp_bind, wp_atStation]
          refine ht.wp_settle (fun t ht => accounted_deliver ?_)
          simpa [Outgoing.carried] using ht

theorem accounts_bind {use : BindUse} (h : hub.station.Accounts submitted delivered carried) :
    wp (bind use) (Accounted submitted delivered carried) (fun _ => True) hub := by
  simp only [bind, wp_bind, wp_get]
  split
  · exact accounts_bound h
  · exact accounted_waits h rfl rfl

theorem accounts_bindAnswered {cookie : Epoch} {use : BindUse} {answer : Except LinkFault Handle}
    (h : hub.station.Accounts submitted delivered carried) :
    wp (bindAnswered cookie use answer) (Accounted submitted delivered carried) (fun _ => True)
      hub := by
  simp only [bindAnswered, wp_bind, wp_get, wp_set]
  split
  · simp only [wp_bind, record, wp_atStation]
    exact h.wp_record rfl fun t ht => accounts_bound ht
  · simp only [wp_bind, record, wp_atStation]
    refine h.wp_record rfl fun t ht => ?_
    exact accounts_scheduleReconnect (by exact ht) fun after hafter => accounts_bound hafter

/-- The requests that a death took out are carried until each of them has been failed. -/
theorem accounts_drainNext {requests : List PendingRequest} {use : DeathUse}
    (h : hub.station.Accounts submitted delivered (requests + carried)) :
    wp (drainNext requests use) (Accounted submitted delivered carried) (fun _ => True) hub := by
  cases requests with
  | nil =>
      simp only [drainNext, wp_bind]
      refine accounts_scheduleReconnect (by simpa using h) fun after hafter => ?_
      exact accounted_ends hafter
  | cons request rest =>
      rw [← Multiset.cons_coe, Multiset.cons_add] at h
      simp only [drainNext, wp_bind, wp_atStation]
      exact h.wp_settle fun t ht => accounted_deliver ht

theorem accounts_die {cookie : Epoch} {use : DeathUse}
    (h : hub.station.Accounts submitted delivered carried) :
    wp (die cookie use) (Accounted submitted delivered carried) (fun _ => True) hub := by
  simp only [die, wp_bind, wp_get]
  split
  · exact accounted_ends h
  · simp only [wp_bind, wp_set, wp_atStation]
    exact h.wp_drainAll fun drained t ht => accounts_drainNext ht

theorem accounts_acknowledge {live : Option LiveLink}
    (h : hub.station.Accounts submitted delivered carried) :
    wp (acknowledge live) (Accounted submitted delivered carried) (fun _ => True) hub := by
  cases live with
  | none => exact accounted_ends h
  | some live =>
      simp only [acknowledge, wp_bind, wp_get, wp_atStation]
      exact h.wp_acquire fun _ t ht => accounted_waits ht rfl rfl

theorem accounts_receive {frame : Frame} (h : hub.station.Accounts submitted delivered carried) :
    wp (receive frame) (Accounted submitted delivered carried) (fun _ => True) hub := by
  simp only [receive, wp_bind, wp_get, wp_atStation]
  refine h.wp_receive fun reception t ht => ?_
  cases reception with
  | replied serial delivery =>
      exact accounted_deliver (by simpa [Reception.delivered, Outgoing.carried] using ht)
  | _ =>
      refine accounts_acknowledge ?_
      simpa [Reception.delivered] using ht

/-- A submitted request comes into the accounts before anything is called. -/
theorem accounts_submit {kind : RequestKind} {payload : Payload} {target : TargetId}
    {source : Option WorkSource} (h : hub.station.Accounts submitted delivered carried)
    (hroom : hub.station.ledger.size < Serial.space) :
    wp (submit kind payload target source)
      (Accounted (target ::ₘ submitted) delivered carried) (fun _ => True) hub := by
  have hstation := h.wp_submit kind target (source.getD hub.station.settings.ackSource)
    (fun serial t => wp (bind (.submission serial kind payload))
      (Accounted (target ::ₘ submitted) delivered carried) (fun _ => True)
      { hub with station := t })
    hroom (fun serial t ht => accounts_bind ht)
  simp only [wp_bind] at hstation
  simp only [submit, wp_bind, wp_get, record, wp_atStation]
  exact hstation

theorem accounts_runTask {task : Task} (h : hub.station.Accounts submitted delivered carried) :
    wp (runTask task) (Accounted submitted delivered carried) (fun _ => True) hub := by
  cases task with
  | expiry guard sequence =>
      simp only [runTask, wp_bind, wp_atStation]
      exact h.wp_expire fun t ht => accounted_ends ht
  | deadline serial kind sentIn =>
      simp only [runTask, wp_bind, wp_get, wp_atStation]
      refine h.wp_overdue (fun t ht => accounted_ends ht) (fun delivery t ht => ?_)
      exact accounted_deliver (by simpa [Outgoing.carried] using ht)
  | reconnect =>
      simp only [runTask, wp_bind, wp_get, wp_set]
      split
      · exact accounted_ends h
      · exact accounts_bind h

/-- An answer keeps the accounts; what the answered call left to be failed is carried on. -/
theorem accounts_answered {call : Outgoing} {answer : call.Answer}
    (h : hub.station.Accounts submitted delivered (call.carried + carried)) :
    wp (answered call answer) (Accounted submitted delivered carried) (fun _ => True) hub := by
  cases call with
  | bind cookie use => exact accounts_bindAnswered (by simpa [Outgoing.carried] using h)
  | send live serial kind payload =>
      have h : hub.station.Accounts submitted delivered carried := by
        simpa [Outgoing.carried] using h
      cases answer with
      | ok _ => exact accounted_ends h
      | error fault => exact accounts_die h
  | deliver delivery use =>
      cases use with
      | reply live => exact accounts_acknowledge (by simpa [Outgoing.carried] using h)
      | refusal serial => exact accounted_ends (by simpa [Outgoing.carried] using h)
      | drain rest use => exact accounts_drainNext h
      | deadline => exact accounted_ends (by simpa [Outgoing.carried] using h)
  | sendAck live =>
      have h : hub.station.Accounts submitted delivered carried := by
        simpa [Outgoing.carried] using h
      cases answer with
      | ok _ =>
          simp only [answered, wp_bind, record, wp_atStation]
          exact h.wp_record rfl fun t ht => accounted_ends ht
      | error fault => exact accounts_die h

end Hub

namespace Engine

open Clocked

variable {submitted delivered : Multiset TargetId} {e after : Engine} {move : Move}

/-- The accounts of an engine: those of its station, with the requests that its waiting calls
carry. -/
def Accounts (submitted delivered : Multiset TargetId) (e : Engine) : Prop :=
  e.hub.station.Accounts submitted delivered e.drained

/-- A transition keeps the accounts of the engine it is run for. -/
theorem Passage.accounts {advance : Option Advance} {base : List Suspension} {hub : Hub}
    {transition : Clocked Hub Progress} (h : e.Accounts submitted delivered)
    (hpassage : e.Passage move advance base hub transition) :
    wp transition (Hub.Accounted (move.submitted + submitted) delivered (carriedBy base))
      (fun _ => True) hub := by
  cases hpassage with
  | @submit kind payload target source room => exact Hub.accounts_submit h room
  | connect =>
      simp only [Move.submitted, Multiset.coe_nil, zero_add]
      exact Hub.accounts_bind h
  | receive =>
      simp only [Move.submitted, Multiset.coe_nil, zero_add]
      exact Hub.accounts_receive h
  | die =>
      simp only [Move.submitted, Multiset.coe_nil, zero_add]
      exact Hub.accounts_die h
  | answer answer hstack =>
      simp only [Accounts, drained, hstack, carriedBy_cons, ← Multiset.coe_add] at h
      simp only [Move.submitted, Multiset.coe_nil, zero_add]
      exact Hub.accounts_answered h
  | task =>
      simp only [Move.submitted, Multiset.coe_nil, zero_add]
      exact Hub.accounts_runTask (h.surroundings _ e.hub.station.subscribers)

/-- Every move that is not cut off keeps the accounts. -/
theorem Step.accounts (h : e.Accounts submitted delivered) (hstep : e.Step move after)
    (huncut : ¬ after.IsCut) :
    after.Accounts (move.submitted + submitted)
      ((Moment.mk e move after).made.elim [] Outgoing.delivered + delivered) := by
  cases hstep.course with
  | @passage advance base hub transition hpassage =>
      have hwp := hpassage.accounts h
      rw [hpassage.made]
      rcases follow_of_wp advance { e with hub, stack := base } hwp with
        ⟨call, final, hkept, heq⟩ | ⟨returned, final, control, hkept, hcontrol, heq⟩ |
        ⟨overflow, final, -, heq⟩
      · rw [heq]
        simpa [Accounts, Hub.Accounted, drained, calling, Progress.delivered, Progress.carried]
          using hkept
      · rw [heq, calling_of_control hcontrol]
        simpa [Accounts, Hub.Accounted, drained, Progress.delivered, Progress.carried] using hkept
      · rw [heq] at huncut
        exact absurd ⟨overflow, rfl⟩ huncut
  | quiet timeline subscribers hsubmitted hmade =>
      rw [hmade _ rfl, hsubmitted]
      simp only [Option.elim_none, Multiset.coe_nil, zero_add]
      exact h.surroundings _ _
  | abandoned hmove =>
      exact absurd ⟨_, rfl⟩ huncut

end Engine

/-- At every moment of a run without overflow the submitted requests are those in the ledger, those
that a death has taken out, and those whose results were delivered; and the counters and the books
of the request guard say the same. -/
theorem Run.accounts {c : Config} {seed : Option Int} {entropy : Entropy} {outside : OutsideStore}
    {history : History} {e : Engine} (run : Run (Engine.start c seed entropy outside) history e)
    (uncut : history.Uncut) : e.Accounts history.submitted history.delivered := by
  induction run with
  | start => exact Station.Accounts.start _ _ _ _ _
  | step run hstep fresh ih =>
      have h := ih fun m hm => uncut m (List.mem_cons_of_mem _ hm)
      have hafter := hstep.accounts h (uncut _ (List.mem_cons_self ..))
      simpa [History.submitted, History.delivered] using hafter

/-! ## Completion -/

/-- **Exactly-once completion.**  While no call waits, each submitted request is either pending and
its target has got nothing, or it is not pending and its target has got one result; and the counters
tell the same. -/
theorem Run.completed_once {c : Config} {seed : Option Int} {entropy : Entropy}
    {outside : OutsideStore} {history : History} {e : Engine}
    (run : Run (Engine.start c seed entropy outside) history e) (uncut : history.Uncut)
    (idle : e.stack = []) :
    (∀ target ∈ history.submitted,
      ((∃ request ∈ e.hub.station.ledger.requests, request.target = target) ∧
        target ∉ history.delivered) ∨
      ((∀ request ∈ e.hub.station.ledger.requests, request.target ≠ target) ∧
        history.delivered.count target = 1)) ∧
    e.hub.station.counters.submitted =
      e.hub.station.counters.completed + UInt64.ofNat e.hub.station.ledger.size := by
  obtain ⟨hwf, htargets, houtstanding, -⟩ := run.accounts uncut
  have hdrained : e.drained = [] := by rw [Engine.drained, idle, carriedBy_nil]
  rw [hdrained, Multiset.coe_nil, add_zero] at htargets houtstanding
  constructor
  · intro target htarget
    have hsubmitted : history.submitted.count target = 1 :=
      List.count_eq_one_of_mem run.nodup_submitted htarget
    have hcount : history.submitted.count target =
        (e.hub.station.ledger.requests.map (·.target)).count target +
          history.delivered.count target := by
      have heq := congrArg (Multiset.count target) htargets
      simpa [Station.pending] using heq
    by_cases hpending : ∃ request ∈ e.hub.station.ledger.requests, request.target = target
    · refine .inl ⟨hpending, ?_⟩
      have hpos : 0 < (e.hub.station.ledger.requests.map (·.target)).count target :=
        List.count_pos_iff.mpr (List.mem_map.mpr hpending)
      exact List.count_eq_zero.mp (by omega)
    · push Not at hpending
      refine .inr ⟨hpending, ?_⟩
      have hnone : (e.hub.station.ledger.requests.map (·.target)).count target = 0 := by
        rw [List.count_eq_zero, List.mem_map]
        rintro ⟨request, hmem, heq⟩
        exact hpending request hmem heq
      omega
  · rw [Station.pending, Multiset.coe_card, ← hwf.size_eq, Counters.outstanding] at houtstanding
    rw [← houtstanding]
    grind

section

open Engine

/-- A first request is sent. -/
private def firstSent : Engine :=
  ((plain.call (.submit .getImei .empty ⟨0⟩ none)).resume
    ⟨none, .bind ⟨1⟩ (.submission ⟨100⟩ .getImei .empty)⟩ (Except.ok (⟨0⟩ : Handle))).resume
      ⟨none, .send ⟨⟨0⟩, ⟨1⟩⟩ ⟨100⟩ .getImei .empty⟩ (Except.ok ())

private def endingFirst : Outgoing := .deliver ⟨⟨0⟩, .error .unavailable⟩ (.drain [] .report)

/-- Its link dies, and its target gets its result. -/
private def firstEnded : Engine := (firstSent.call (.die ⟨1⟩)).resume ⟨none, endingFirst⟩ ()

private def nextBind : Outgoing := .bind ⟨3⟩ (.submission ⟨0⟩ .getImsi .empty)

private def nextSend : Outgoing := .send ⟨⟨1⟩, ⟨3⟩⟩ ⟨0⟩ .getImsi .empty

/-- A second request is sent. -/
private def nextSent : Engine :=
  ((firstEnded.call (.submit .getImsi .empty ⟨1⟩ none)).resume ⟨none, nextBind⟩
    (Except.ok (⟨1⟩ : Handle))).resume ⟨none, nextSend⟩ (Except.ok ())

/-- So it is when a request has died with its link and another one is sent on the next. -/
theorem completed_once_of_death :
    ∃ history e, Run .plain history e ∧ history.Uncut ∧ e.stack = [] ∧
      history.submitted = [⟨1⟩, ⟨0⟩] ∧ history.delivered = [⟨0⟩] ∧
      e.hub.station.ledger.requests.map (·.target) = [⟨1⟩] ∧
      (∀ target ∈ history.submitted,
        ((∃ request ∈ e.hub.station.ledger.requests, request.target = target) ∧
          target ∉ history.delivered) ∨
        ((∀ request ∈ e.hub.station.ledger.requests, request.target ≠ target) ∧
          history.delivered.count target = 1)) ∧
      e.hub.station.counters.submitted =
        e.hub.station.counters.completed + UInt64.ofNat e.hub.station.ledger.size := by
  have hended : firstEnded.control = .outside (some .handled) := by cbv
  have hnext : nextSent.control = .outside (some (.submitted ⟨0⟩)) := by cbv
  have started : Run .plain [] .plain := .start
  have waiting := started.call (.submit .getImei .empty ⟨0⟩ none) none rfl (by decide)
    (by simp [History.submitted])
  have bound := waiting.answer none (.bind ⟨1⟩ (.submission ⟨100⟩ .getImei .empty))
    (Except.ok (⟨0⟩ : Handle)) none rfl rfl
  have sent := bound.answer none (.send ⟨⟨0⟩, ⟨1⟩⟩ ⟨100⟩ .getImei .empty) (Except.ok ()) none rfl
    rfl
  have died := sent.call (.die ⟨1⟩) (some (.submitted ⟨100⟩)) (by cbv) trivial
    (by simp [Move.submitted])
  have ended := died.answer none endingFirst () none (by cbv) (by cbv)
  have again := ended.call (.submit .getImsi .empty ⟨1⟩ none) _ hended (by cbv)
    (by simp [History.submitted, Move.submitted])
  have rebound := again.answer none nextBind (Except.ok (⟨1⟩ : Handle)) none (by cbv) (by cbv)
  have resent := rebound.answer none nextSend (Except.ok ()) none (by cbv) (by cbv)
  have idle : nextSent.stack = [] := by cbv
  refine ⟨_, _, resent, ?uncut, idle, rfl, by cbv, by cbv, Run.completed_once resent ?uncut idle⟩
  case uncut =>
      refine History.uncut_cons.mpr ⟨not_isCut _ hnext (by simp), ?_⟩
      refine History.uncut_cons.mpr ⟨not_isCut none (by cbv) (by simp), ?_⟩
      refine History.uncut_cons.mpr ⟨not_isCut none (by cbv) (by simp), ?_⟩
      refine History.uncut_cons.mpr ⟨not_isCut _ hended (by simp), ?_⟩
      refine History.uncut_cons.mpr ⟨not_isCut none (by cbv) (by simp), ?_⟩
      refine History.uncut_cons.mpr ⟨not_isCut (some (.submitted ⟨100⟩)) (by cbv) (by simp), ?_⟩
      refine History.uncut_cons.mpr ⟨not_isCut none rfl (by simp), ?_⟩
      exact History.uncut_cons.mpr ⟨not_isCut none rfl (by simp), by simp [History.Uncut]⟩

end

/-! ## The request guard -/

/-- The tickets of the present generation that requests hold. -/
def GuardState.goodTickets (state : GuardState) (requests : List PendingRequest) : List Ticket :=
  (requests.filterMap (·.ticket)).filter (·.generation = state.generation)

/-- The request guard is held for requests: one unit for each of their good tickets, charged to its
source, and the power manager keeps the device awake exactly while there is one. -/
structure Engine.GuardHeldFor (e : Engine) (requests : List PendingRequest) : Prop where
  counted : e.hub.station.governor.request.count =
    (e.hub.station.governor.request.goodTickets requests).length
  charged : GuardState.charges e.hub.station.governor.request.attributed =
    ((e.hub.station.governor.request.goodTickets requests).map (·.source) : Multiset WorkSource)
  rows : GuardState.Rows e.hub.station.governor.request.attributed
  held : e.hub.station.governor.power.isHeld .request = true ↔
    0 < (e.hub.station.governor.request.goodTickets requests).length

/-- A guard that is held for nothing is not held. -/
theorem Engine.GuardHeldFor.released {e : Engine} (h : e.GuardHeldFor []) :
    e.hub.station.governor.request.count = 0 ∧
      e.hub.station.governor.request.attributed = [] ∧
      e.hub.station.governor.power.isHeld .request = false := by
  refine ⟨h.counted, h.rows.eq_nil_of_charges h.charged, ?_⟩
  rw [← Bool.not_eq_true, h.held]
  exact Nat.lt_irrefl 0

/-- **No unit is lost and none is stolen.**  At every moment the request guard is held for the
requests in the ledger and those that a death has taken out; so while no call waits it is held for
the requests in the ledger, and released if there are none. -/
theorem Run.guardHeldFor_pending {c : Config} {seed : Option Int} {entropy : Entropy}
    {outside : OutsideStore} {history : History} {e : Engine}
    (run : Run (Engine.start c seed entropy outside) history e) (uncut : history.Uncut) :
    e.GuardHeldFor (e.hub.station.ledger.requests ++ e.drained) ∧
      (e.stack = [] → e.GuardHeldFor e.hub.station.ledger.requests ∧
        (e.hub.station.ledger.requests = [] →
          e.hub.station.governor.request.count = 0 ∧
          e.hub.station.governor.request.attributed = [] ∧
          e.hub.station.governor.power.isHeld .request = false)) := by
  obtain ⟨state, hstate, -, hcharged, hcounted, hrows, hheld⟩ := (run.accounts uncut).books.backed
  obtain rfl : state = e.hub.station.governor.request := (Option.some.inj hstate).symm
  have hstanding : e.hub.station.governor.request.standing
      (tickets (e.hub.station.pending + (e.drained : Multiset PendingRequest))) =
      ((e.hub.station.governor.request.goodTickets
        (e.hub.station.ledger.requests ++ e.drained)).map (·.source) : Multiset WorkSource) := by
    rw [Station.pending, Multiset.coe_add, tickets, Multiset.filterMap_coe, GuardState.standing,
      Multiset.filter_coe, Multiset.map_coe]
    rfl
  rw [hstanding] at hcharged hcounted
  rw [Multiset.coe_card, List.length_map] at hcounted
  have hall : e.GuardHeldFor (e.hub.station.ledger.requests ++ e.drained) :=
    ⟨hcounted, hcharged, hrows, by rw [hheld, hcounted, decide_eq_true_iff]⟩
  refine ⟨hall, fun hidle => ?_⟩
  rw [Engine.drained, hidle, carriedBy_nil, List.append_nil] at hall
  refine ⟨hall, fun hempty => ?_⟩
  rw [hempty] at hall
  exact hall.released

/-- So it is for a request that was sent: the guard is held for it. -/
theorem guardHeldFor_of_sent :
    ∃ history e, Run .plain history e ∧ history.Uncut ∧ e.stack = [] ∧
      e.hub.station.ledger.size = 1 ∧ e.GuardHeldFor e.hub.station.ledger.requests := by
  obtain ⟨history, e, run, uncut, idle, -, hsize, -⟩ := Engine.exists_run_sent
  exact ⟨history, e, run, uncut, idle, hsize, ((Run.guardHeldFor_pending run uncut).2 idle).1⟩

/-- A submission that is cut off between its unit and its place in the ledger leaves the unit
behind: the clock stands so late that the timer of the unit has no deadline. -/
theorem guard_held_after_cut_submission :
    ∃ history e, Run .plain history e ∧ e.stack = [] ∧ e.hub.station.ledger.requests = [] ∧
      e.hub.station.governor.request.count = 1 ∧
      e.hub.station.governor.power.isHeld .request = true ∧
      ¬ e.GuardHeldFor e.hub.station.ledger.requests := by
  have started : Run .plain [] .plain := .start
  have advancing := started.call (.advance (.ofSeconds 18446744073709551615 (by decide))) none rfl
    trivial (by simp [Move.submitted])
  have advanced := advancing.fire ⟨.ofSeconds 18446744073709551615 (by decide), 0⟩ rfl
  have cut := advanced.call (.submit .getImei .empty ⟨0⟩ none) (some (.advanced 0)) rfl
    (by decide) (by simp [History.submitted, Move.submitted])
  refine ⟨_, _, cut, rfl, rfl, rfl, rfl, fun hheld => ?_⟩
  have hcount := hheld.counted
  cases hcount

end ModemLink
