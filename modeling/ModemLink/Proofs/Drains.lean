import Mathlib.Algebra.Order.Ring.Nat
import ModemLink.Proofs.Custody
import ModemLink.Proofs.Errands
import ModemLink.Proofs.LedgerCalls

/-!
# Failing the requests of a dead link

The requests that a death takes out are failed in one errand: the first when the news is believed,
each of the others when the target of the one before it returns, and when the last target has
returned the next attempt to bind is scheduled.  What the targets do meanwhile, which may be to
submit more requests, to bind again and to report further deaths, belongs to other errands.  It
changes nothing of the requests that are still to be failed, and adds none to them.

* `Hub.Noted`, `Run.noted` -- there is a timer for the next attempt exactly if the link notes one;
* `Moment.Fails`, `Moment.FailsFirst` -- one request is failed;
* `Errand.fails` -- how far an errand that began with a death has come;
* `Run.fails_doomed_in_order` -- all that a death comes to;
* `unscheduled_after_cut_report` -- a report that is cut off leaves a note without a timer.
-/

namespace ModemLink

namespace Hub

variable {hub after : Hub}

/-- There is one timer for the next attempt to bind if the link notes one, and none if not. -/
def Noted (hub : Hub) : Prop :=
  (hub.link.retryArmed = true ∧ ∃ timer, hub.attempts = [timer]) ∨
    (hub.link.retryArmed = false ∧ hub.attempts = [])

namespace Noted

/-- Another link is as good if it has the same note. -/
theorem relink (h : hub.Noted) {link : Link} (hnote : link.retryArmed = hub.link.retryArmed) :
    Noted { hub with link } := by
  rw [Noted, show Hub.link _ = link from rfl, hnote]
  exact h

/-- The timer that may be scheduled is the only one. -/
theorem rearms (h : hub.Noted) (hrearms : Rearms hub after) : after.Noted := by
  rcases hrearms.timer with ⟨hnote, hkept⟩ | ⟨hfree, hnoted, timer, -, hmore⟩
  · rw [Noted, hnote, hkept]
    exact h
  · have hnone : hub.attempts = [] := by
      rcases h with ⟨hnoted, -⟩ | ⟨-, hnone⟩
      · rw [hfree] at hnoted
        cases hnoted
      · exact hnone
    rw [hnone] at hmore
    exact .inl ⟨hnoted, timer, List.perm_singleton.mp hmore⟩

/-- What is taken off for another task leaves the timer where it is. -/
theorem popDue_of_ne {target : Duration} {task : Task} {timeline : Timeline Task} (h : hub.Noted)
    (hne : task ≠ .reconnect) (hdue : hub.station.timeline.popDue? target = some (task, timeline)) :
    Noted { hub with station := { hub.station with timeline } } := by
  have hkept : attempts { hub with station := { hub.station with timeline } } = hub.attempts :=
    Timeline.timersOf_popDue_of_ne hne hdue
  rw [Noted, hkept]
  exact h

/-- When the timer itself is taken off the link notes it. -/
theorem popDue_reconnect {target : Duration} {timeline : Timeline Task} (h : hub.Noted)
    (hdue : hub.station.timeline.popDue? target = some (.reconnect, timeline)) :
    Noted { hub with station := { hub.station with timeline }, link := hub.link.disarmRetry } := by
  obtain ⟨timer, -, hfirst⟩ := Timeline.timersOf_popDue hdue
  refine .inr ⟨rfl, ?_⟩
  rcases h with ⟨-, only, honly⟩ | ⟨-, hnone⟩
  · exact (List.cons.inj (hfirst.symm.trans honly)).2
  · cases hfirst.symm.trans hnone

end Noted

end Hub

namespace Engine

variable {e after : Engine} {move : Move} {delivery : Delivery} {rest : List PendingRequest}
  {use : DeathUse}

/-- Every move leaves the note in agreement with the timer. -/
theorem Turning.noted (h : Turning e move after) (hnoted : e.hub.Noted) : after.hub.Noted := by
  cases h with
  | called control turn =>
      obtain ⟨link, hnote, hrearms⟩ := turn.rearms
      rw [hub_reach]
      exact (hnoted.relink hnote).rearms hrearms
  | answered control stack turn =>
      obtain ⟨link, hnote, hrearms⟩ := turn.rearms
      rw [hub_reach]
      exact (hnoted.relink hnote).rearms hrearms
  | ran control due other rearms link binds =>
      rw [hub_reach]
      exact (hnoted.popDue_of_ne other due).rearms rearms
  | spared control due bound binds =>
      rw [hub_reach]
      exact hnoted.popDue_reconnect due
  | attempted control due unbound =>
      rw [hub_reach]
      exact (hnoted.popDue_reconnect due).relink rfl
  | departs control target => exact hnoted
  | arrives control due => exact hnoted
  | owned control => exact hnoted
  | subscribed control => exact hnoted

/-- When a target that was called because of a death returns, the failing of requests goes on. -/
theorem Step.drained (h : e.Step move after) (huncut : ¬ after.IsCut)
    (move_eq : move = .answer (.deliver delivery (.drain rest use)) ()) :
    ∃ advance progress hub,
      after = { e with stack := (Moment.mk e move after).base }.reach advance progress hub ∧
        Hub.Fails use e.hub rest progress hub := by
  cases h with
  | answer advance call answer last control stack =>
      cases move_eq
      obtain ⟨progress, hub, hfails, hreach⟩ :=
        follow_eq_reach (e := { e with stack := e.stack.tail }) (Hub.wp_drainNext rest use e.hub)
          huncut
      exact ⟨advance, progress, hub, hreach, hfails⟩
  | _ => cases move_eq

end Engine

namespace Moment

variable {m : Moment} {requests : List PendingRequest}

/-- At a moment a request is failed: its unit is given back, it is not pending any more, and its
target is called. -/
structure Fails (request : PendingRequest) (m : Moment) : Prop where
  made : ∃ left use, m.made = some (.deliver request.failure (.drain left use))
  returned : m.before.hub.station.governor.Returned m.before.reading request.ticket
    m.after.hub.station.governor
  gone : ∀ other ∈ m.after.hub.station.ledger.requests, other.target ≠ request.target

/-- At a moment the first of some requests is failed; or, when there is none left, the next attempt
to bind is scheduled. -/
inductive FailsFirst (m : Moment) : List PendingRequest → Prop
  | next {request : PendingRequest} {left : List PendingRequest} {use : DeathUse}
      (made : m.made = some (.deliver request.failure (.drain left use)))
      (returned : m.before.hub.station.governor.Returned m.before.reading request.ticket
        m.after.hub.station.governor) : FailsFirst m (request :: left)
  | done (made : m.made = none) (scheduled : m.after.hub.link.retryArmed = true) : FailsFirst m []

/-- At a moment the present link dies: it has no handle, the next epoch begins, the counter of
serials is drawn anew, the ledger is emptied, and the death is counted with the requests that were
taken out. -/
structure Buries (m : Moment) : Prop where
  link : m.after.hub.link =
    { m.before.hub.link.buried with retryArmed := m.after.hub.link.retryArmed }
  counter : m.after.hub.station.ledger.counter =
    (SerialCounter.drawn m.before.hub.station.entropy).1
  entropy : m.after.hub.station.entropy = (SerialCounter.drawn m.before.hub.station.entropy).2
  emptied : m.after.hub.station.ledger.requests = []
  deaths : m.after.hub.station.counters.deaths = m.before.hub.station.counters.deaths + 1
  drained : m.after.hub.station.counters.drained =
    m.before.hub.station.counters.drained + UInt64.ofNat m.before.hub.doomed.length

/-- At a moment neither the ledger nor the numbers it is drawn from change, and no death is
counted. -/
structure SparesLedger (m : Moment) : Prop where
  ledger : m.after.hub.station.ledger = m.before.hub.station.ledger
  entropy : m.after.hub.station.entropy = m.before.hub.station.entropy
  deaths : m.after.hub.station.counters.deaths = m.before.hub.station.counters.deaths
  drained : m.after.hub.station.counters.drained = m.before.hub.station.counters.drained

/-- How the failing of requests goes on tells what a moment is for them. -/
theorem failsFirst_of_fails {e : Engine} {advance : Option Advance} {use : DeathUse} {base : Hub}
    {progress : Progress} {hub : Hub} (hreach : m.after = e.reach advance progress hub)
    (hmade : m.made = m.after.calling) (hfails : Hub.Fails use base requests progress hub)
    (hgovernor : base.station.governor = m.before.hub.station.governor)
    (hnow : base.station.reading = m.before.reading) : m.FailsFirst requests := by
  rw [hreach, Engine.calling_reach] at hmade
  have hhub : m.after.hub = hub := by rw [hreach, Engine.hub_reach]
  cases hfails with
  | done timeline => exact .done hmade (by rw [hhub])
  | next returned counted =>
      refine .next hmade ?_
      rw [hgovernor, hnow] at returned
      rw [hhub]
      exact returned

/-- News of a death makes the call that its handling comes to. -/
theorem made_of_death? {cookie : Epoch} (h : m.move.death? = some cookie) :
    m.made = m.after.calling := by
  unfold made
  split
  · rename_i heq
    rw [heq] at h
    cases h
  · rename_i heq
    rw [heq] at h
    cases h
  · rfl

/-- What news of the present epoch comes to. -/
theorem Dies.buries (hdies : m.Dies) (hstep : m.before.Step m.move m.after)
    (huncut : ¬ m.after.IsCut) : m.Buries ∧ m.FailsFirst m.before.hub.doomed := by
  obtain ⟨advance, use, progress, hub, recorder, hreach, hcounted, hfails⟩ :=
    hstep.confirmed huncut hdies
  have hhub : m.after.hub = hub := by rw [hreach, Engine.hub_reach]
  refine ⟨⟨?_, ?_, ?_, ?_, ?_, ?_⟩,
    failsFirst_of_fails hreach (made_of_death? hdies) hfails rfl rfl⟩
  · rw [hhub, hfails.link]
    rfl
  · rw [hhub, hfails.ledger.1]
    rfl
  · rw [hhub, hfails.ledger.2]
    rfl
  · rw [hhub, hfails.ledger.1]
    exact Ledger.requests_snd_drain _
  · rw [hhub, hfails.counters.1]
    exact congrArg Counters.deaths hcounted
  · rw [hhub, hfails.counters.2]
    exact congrArg Counters.drained hcounted

/-- What the return of a target comes to that was called because of a death. -/
theorem failsFirst_of_answer {delivery : Delivery} {rest : List PendingRequest} {use : DeathUse}
    (hmove : m.move = .answer (.deliver delivery (.drain rest use)) ())
    (hstep : m.before.Step m.move m.after) (huncut : ¬ m.after.IsCut) :
    m.FailsFirst rest ∧ m.SparesLedger := by
  obtain ⟨advance, progress, hub, hreach, hfails⟩ := hstep.drained huncut hmove
  have hhub : m.after.hub = hub := by rw [hreach, Engine.hub_reach]
  have hmade : m.made = m.after.calling := by rw [made, hmove]
  refine ⟨failsFirst_of_fails hreach hmade hfails rfl rfl, ?_, ?_, ?_, ?_⟩
  · rw [hhub, hfails.ledger.1]
  · rw [hhub, hfails.ledger.2]
  · rw [hhub, hfails.counters.1]
  · rw [hhub, hfails.counters.2]

end Moment

/-! ## The errand -/

/-- How far an errand has come that began with a death: some of the doomed requests are failed, each
at a moment of its own, and at the latest moment the first of those that are left.  All moments but
the first one follow the return of a target. -/
theorem Errand.fails {m : Moment} {doomed : List PendingRequest} {own : History}
    (errand : Errand m own) (first : m.FailsFirst doomed)
    (returns : ∀ n ∈ own, ∀ delivery rest use,
      n.move = .answer (.deliver delivery (.drain rest use)) () → n.FailsFirst rest ∧
          n.SparesLedger)
    (gone : ∀ n ∈ own, ∀ delivery use, n.made = some (.deliver delivery use) →
      ∀ other ∈ n.after.hub.station.ledger.requests, other.target ≠ delivery.target) :
    (∃ failed left last older, own = last :: older ∧ doomed = failed ++ left ∧
      last.FailsFirst left ∧ List.Forall₂ Moment.Fails failed older.reverse) ∧
    ∀ n ∈ own.dropLast, n.SparesLedger := by
  induction errand with
  | begins => exact ⟨⟨[], doomed, m, [], rfl, rfl, first, .nil⟩, by simp⟩
  | @goesOn next last older call answer errand made answers ih =>
      obtain ⟨hnext, hothers⟩ := List.forall_mem_cons.mp returns
      obtain ⟨⟨failed, left, last', older', heq, hdoomed, hlast, hfailed⟩, hspares⟩ :=
        ih hothers (List.forall_mem_cons.mp gone).2
      obtain ⟨rfl, rfl⟩ := List.cons.inj heq
      cases hlast with
      | done hnone _ =>
          rw [hnone] at made
          cases made
      | @next request left use hmade hreturned =>
          obtain rfl := Option.some.inj (hmade.symm.trans made)
          obtain ⟨hfirst, hspare⟩ := hnext _ left use answers
          have hgone := gone last (List.mem_cons_of_mem _ (List.mem_cons_self ..)) _ _ hmade
          have hfails : last.Fails request := ⟨⟨left, use, hmade⟩, hreturned, hgone⟩
          refine ⟨⟨failed ++ [request], left, next, last :: older, rfl, ?_, hfirst, ?_⟩, ?_⟩
          · rw [hdoomed, List.append_assoc]
            rfl
          · rw [List.reverse_cons]
            exact List.rel_append hfailed (.cons hfails .nil)
          · rw [List.dropLast_cons_cons]
            exact List.forall_mem_cons.mpr ⟨hspare, hspares⟩

/-! ## Runs -/

section

variable {c : Config} {seed : Option Int} {entropy : Entropy} {outside : OutsideStore}
  {history later earlier : History} {e : Engine} {m : Moment} {cookie : Epoch}

/-- At every moment of a run without overflow, in service, the note of a scheduled attempt agrees
with the timer. -/
theorem Run.noted (run : Run (Engine.start c seed entropy outside) history e)
    (uncut : history.Uncut) (served : history.InService) : e.hub.Noted := by
  induction run with
  | start => exact .inr ⟨rfl, rfl⟩
  | @step history e after move run hstep fresh ih =>
      obtain ⟨hnow, uncut⟩ := History.uncut_cons.mp uncut
      obtain ⟨hserved, served⟩ := List.forall_mem_cons.mp served
      exact (hstep.turning hnow hserved).noted (ih uncut served)

/-- What is pending was submitted. -/
theorem Run.submitted_of_pending (run : Run (Engine.start c seed entropy outside) history e)
    (uncut : history.Uncut) {request : PendingRequest}
    (hmem : request ∈ e.hub.station.ledger.requests) : request.target ∈ history.submitted := by
  have htargets := (run.accounts uncut).books.targets
  rw [Station.pending, Multiset.map_add] at htargets
  have hpending : request.target ∈ (history.submitted : Multiset TargetId) := by
    rw [htargets]
    refine Multiset.mem_add.mpr (.inl (Multiset.mem_add.mpr (.inl ?_)))
    exact Multiset.mem_map_of_mem _ (Multiset.mem_coe.mpr hmem)
  exact Multiset.mem_coe.mp hpending

/-- What is pending at a moment is not submitted later: no target is submitted twice. -/
theorem Run.not_submitted_later
    (run : Run (Engine.start c seed entropy outside) (later ++ m :: earlier) e)
    (uncut : History.Uncut earlier) {request : PendingRequest}
    (hmem : request ∈ m.before.hub.station.ledger.requests) :
    request.target ∉ History.submitted later := by
  intro hlater
  have hnodup := run.nodup_submitted
  rw [History.submitted, List.flatMap_append] at hnodup
  refine (List.nodup_append.mp hnodup).2.2 _ hlater _ ?_ rfl
  rw [List.flatMap_cons]
  exact List.mem_append_right _ (run.split.1.submitted_of_pending uncut hmem)

/-- What was delivered is not pending, and was delivered once. -/
theorem Run.delivered_once (run : Run (Engine.start c seed entropy outside) history e)
    (uncut : history.Uncut) {target : TargetId} (hmem : target ∈ history.delivered) :
    history.delivered.count target = 1 ∧
      ∀ request ∈ e.hub.station.ledger.requests, request.target ≠ target := by
  have htargets := (run.accounts uncut).books.targets
  have hnodup : (history.submitted : Multiset TargetId).Nodup :=
    Multiset.coe_nodup.mpr run.nodup_submitted
  rw [htargets] at hnodup
  obtain ⟨-, hdelivered, hapart⟩ := Multiset.nodup_add.mp hnodup
  refine ⟨List.count_eq_one_of_mem (Multiset.coe_nodup.mp hdelivered) hmem, ?_⟩
  rintro request hpending rfl
  refine Multiset.disjoint_left.mp hapart ?_ (Multiset.mem_coe.mpr hmem)
  exact Multiset.mem_map_of_mem _ (Multiset.mem_add.mpr (.inl (Multiset.mem_coe.mpr hpending)))

/-- When a target is called with its result, the request is not pending any more. -/
theorem Run.not_pending_of_made (run : Run (Engine.start c seed entropy outside) history e)
    (uncut : history.Uncut) (hmem : m ∈ history) {delivery : Delivery} {use : DeliveryUse}
    (hmade : m.made = some (.deliver delivery use)) :
    ∀ other ∈ m.after.hub.station.ledger.requests, other.target ≠ delivery.target := by
  obtain ⟨later, earlier, rfl⟩ := List.append_of_mem hmem
  refine (run.upTo.delivered_once (List.forall_mem_append.mp uncut).2 ?_).2
  rw [History.delivered, List.flatMap_cons, hmade]
  exact List.mem_append_left _ (List.mem_singleton.mpr rfl)

/-- The target of a request that was failed at a moment of a run has got one result. -/
theorem Run.delivered_of_fails (run : Run (Engine.start c seed entropy outside) history e)
    (uncut : history.Uncut) {requests : List PendingRequest} {moments : List Moment}
    (hfails : List.Forall₂ Moment.Fails requests moments) (hmoments : ∀ n ∈ moments, n ∈ history)
    {request : PendingRequest} (hmem : request ∈ requests) :
    history.delivered.count request.target = 1 := by
  obtain ⟨i, hi, rfl⟩ := List.getElem_of_mem hmem
  have hi' := hfails.length_eq ▸ hi
  obtain ⟨left, use, hmade⟩ := (hfails.get hi hi').made
  have hmoment := hmoments _ (List.get_mem moments ⟨i, hi'⟩)
  refine (run.delivered_once uncut (List.mem_flatMap.mpr ⟨_, hmoment, ?_⟩)).1
  rw [hmade]
  exact List.mem_singleton.mpr rfl

/-- **A death fails what was pending, in order and once.**  News of another epoch changes nothing.
News of the present epoch takes the pending requests out and fails them, each at a moment of its
own, in the order of their submission; no request that is submitted meanwhile is among them.  When
the errand is over all of them are failed, each target has got one result, and the next attempt to
bind is scheduled. -/
theorem Run.fails_doomed_in_order
    (run : Run (Engine.start c seed entropy outside) (later ++ m :: earlier) e)
    (uncut : History.Uncut (later ++ m :: earlier)) (reported : m.move.death? = some cookie)
    (underway : ∀ n ∈ later, m.base.length < n.before.stack.length) :
    (cookie ≠ m.before.hub.link.epoch →
      m.after.hub = m.before.hub ∧ m.after.stack = m.base ∧ m.made = none) ∧
    (cookie = m.before.hub.link.epoch →
      m.Buries ∧
      m.before.hub.doomed.Perm m.before.hub.station.ledger.requests ∧
      (m.before.hub.doomed.Pairwise fun a b => a.submittedAt ≤ b.submittedAt) ∧
      (∀ request ∈ m.before.hub.doomed, request.target ∉ History.submitted later) ∧
      (∀ n ∈ History.over m.base.length later, n.SparesLedger) ∧
      ((∃ failed request left above advance use,
          m.before.hub.doomed = failed ++ request :: left ∧
          List.Forall₂ Moment.Fails (failed ++ [request])
            (History.over m.base.length (later ++ [m])).reverse ∧
          e.stack = above ++ ⟨advance, .deliver request.failure (.drain left use)⟩ :: m.base) ∨
        (e.stack = m.base ∧
          List.Forall₂ Moment.Fails m.before.hub.doomed
            (History.over m.base.length (later ++ [m])).tail.reverse ∧
          (∀ request ∈ m.before.hub.doomed,
            (History.delivered (later ++ m :: earlier)).count request.target = 1) ∧
          e.hub.link.retryArmed = true ∧
          (History.InService (later ++ m :: earlier) → ∃ timer, e.hub.attempts = [timer])))) := by
  obtain ⟨hrun, hstep⟩ := run.split
  refine ⟨hstep.stale reported, ?_⟩
  rintro rfl
  obtain ⟨hnow, hearlier⟩ := History.uncut_cons.mp (List.forall_mem_append.mp uncut).2
  obtain ⟨hburies, hfirst⟩ := Moment.Dies.buries reported hstep hnow
  have hperm : m.before.hub.doomed.Perm m.before.hub.station.ledger.requests :=
    Ledger.perm_fst_drain _
  have hold : ∀ request ∈ m.before.hub.doomed, request.target ∉ History.submitted later :=
    fun request hmem => run.not_submitted_later hearlier (hperm.mem_iff.mp hmem)
  obtain ⟨last, own, hown, herrand, hbase, hstands⟩ :=
    run.errand uncut underway
  have hofrun : ∀ n ∈ last :: own, n ∈ later ++ m :: earlier :=
    fun n hn => History.mem_of_mem_over (hown ▸ hn)
  obtain ⟨⟨failed, left, last', own', heq, hdoomed, hlast, hfailed⟩, hspares⟩ :=
    herrand.fails hfirst
      (fun n hn delivery rest use hmove =>
        Moment.failsFirst_of_answer hmove (run.step_of_mem (hofrun n hn)) (uncut n (hofrun n hn)))
      fun n hn delivery use hmade => run.not_pending_of_made uncut (hofrun n hn) hmade
  obtain ⟨rfl, rfl⟩ := List.cons.inj heq
  refine ⟨hburies, hperm, Ledger.pairwise_fst_drain _, hold, ?_, ?_⟩
  · rw [← hown, History.over_concat, List.dropLast_concat] at hspares
    exact hspares
  · rw [hown]
    cases hlast with
    | @next request left use hmade hreturned =>
        have hgone := run.not_pending_of_made uncut (hofrun last (List.mem_cons_self ..)) hmade
        have hfails : last.Fails request := ⟨⟨left, use, hmade⟩, hreturned, hgone⟩
        rcases hstands with ⟨above, advance, call, hcall, hstack⟩ | ⟨hnone, -⟩
        · obtain rfl := Option.some.inj (hmade.symm.trans hcall)
          rw [hbase] at hstack
          refine .inl ⟨failed, request, left, above, advance, use, hdoomed, ?_, hstack⟩
          rw [List.reverse_cons]
          exact List.rel_append hfailed (.cons hfails .nil)
        · rw [hmade] at hnone
          cases hnone
    | done hnone hscheduled =>
        rcases hstands with ⟨above, advance, call, hcall, -⟩ | ⟨-, rfl, hstack⟩
        · rw [hnone] at hcall
          cases hcall
        · rw [List.append_nil] at hdoomed
          rw [hbase] at hstack
          refine .inr ⟨hstack, ?_, fun request hmem => ?_, hscheduled, fun served => ?_⟩
          · rw [hdoomed]
            exact hfailed
          · rw [hdoomed] at hmem
            exact run.delivered_of_fails uncut hfailed
              (fun n hn => hofrun n (List.mem_cons_of_mem _ (List.mem_reverse.mp hn))) hmem
          · rcases run.noted uncut served with ⟨-, hone⟩ | ⟨hfree, -⟩
            · exact hone
            · rw [hscheduled] at hfree
              cases hfree

end

namespace Engine

/-- An engine whose serials start at 100, and again at 100 after the first death. -/
def repeating : Engine := start {} (some 100) ⟨[100]⟩ .silent

/-- A first request is submitted, and its bind is under way. -/
private def firstBinding : Engine := repeating.call (.submit .getImei .empty ⟨0⟩ none)

private def firstRequest : PendingRequest :=
  ⟨⟨100⟩, .getImei, ⟨0⟩, .phone, some ⟨.request, 0, .phone⟩, .sent, .zero⟩

/-- The ledger with the first request. -/
private def firstStock : Ledger where
  table := ⟨#[some firstRequest], [], 4, 1⟩
  index := Std.HashMap.emptyWithCapacity.insert ⟨100⟩ 0
  counter := repeating.hub.station.ledger.counter.next

private def firstPending : Engine :=
  { firstBinding with hub := { firstBinding.hub with
      station := { firstBinding.hub.station with ledger := firstStock } } }

private theorem firstBinding_eq : firstBinding = firstPending := by
  have htable : firstBinding.hub.station.ledger.table = firstStock.table := by cbv
  have hindex : firstBinding.hub.station.ledger.index = firstStock.index := by cbv
  have hcounter : firstBinding.hub.station.ledger.counter = firstStock.counter := by cbv
  have hstock : firstBinding.hub.station.ledger = firstStock :=
    congr (congr (congrArg Ledger.mk htable) hindex) hcounter
  rw [firstPending, ← hstock]

/-- How long the second request comes after the first. -/
private def pause : Duration := .ofSeconds 2 (by decide)

private def passing : Engine := firstPending.call (.advance pause)

private def passed : Engine := passing.fire ⟨pause, 0⟩

/-- A second request is submitted, which begins a bind of its own. -/
private def secondBinding : Engine := passed.call (.submit .getImsi .empty ⟨1⟩ none)

private def secondRequest : PendingRequest :=
  ⟨⟨101⟩, .getImsi, ⟨1⟩, .phone, some ⟨.request, 0, .phone⟩, .sent, pause⟩

/-- The ledger with both requests. -/
private def secondStock : Ledger where
  table := ⟨#[some firstRequest, some secondRequest], [], 4, 2⟩
  index := (Std.HashMap.emptyWithCapacity.insert ⟨100⟩ 0).insert ⟨101⟩ 1
  counter := firstStock.counter.next

private def secondPending : Engine :=
  { secondBinding with hub := { secondBinding.hub with
      station := { secondBinding.hub.station with ledger := secondStock } } }

private theorem freeSerial_firstStock :
    Ledger.freeSerial firstStock.index firstStock.index.size firstStock.counter =
      (⟨101⟩, firstStock.counter.next) := by
  have hsize : firstStock.index.size = 1 := by simp [firstStock, Std.HashMap.size_insert]
  have hfree : firstStock.index.contains ⟨101⟩ = false := by simp [firstStock]
  rw [hsize, Ledger.freeSerial]
  exact if_neg (by rw [show firstStock.counter.peek = ⟨101⟩ from rfl, hfree]; simp)

private theorem secondBinding_eq : secondBinding = secondPending := by
  have henrolled : secondBinding.hub.station.ledger =
      (firstStock.enroll ⟨.getImsi, ⟨1⟩, .phone, some ⟨.request, 0, .phone⟩, pause⟩).2 := by cbv
  have hstock : secondBinding.hub.station.ledger = secondStock := by
    rw [henrolled, Ledger.enroll, freeSerial_firstStock]
    rfl
  rw [secondPending, ← hstock]

/-- The bind of the second request dies, and the target of the first is called. -/
private def bindDied : Engine := secondPending.call (.die ⟨2⟩)

/-- The target of the first request submits a third one. -/
private def thirdBinding : Engine := bindDied.call (.submit .getImsi .empty ⟨2⟩ none)

private def thirdBind : Outgoing := .bind ⟨4⟩ (.submission ⟨100⟩ .getImsi .empty)

private def thirdBound : Engine := thirdBinding.resume ⟨none, thirdBind⟩ (Except.ok (⟨1⟩ : Handle))

private def thirdSend : Outgoing := .send ⟨⟨1⟩, ⟨4⟩⟩ ⟨100⟩ .getImsi .empty

private def thirdSent : Engine := thirdBound.resume ⟨none, thirdSend⟩ (Except.ok ())

private def failingFirst : Outgoing :=
  .deliver ⟨⟨0⟩, .error .unavailable⟩ (.drain [secondRequest] .report)

/-- The target of the first request has returned, and that of the second is called. -/
private def firstFailed : Engine := thirdSent.resume ⟨none, failingFirst⟩ ()

private def failingSecond : Outgoing := .deliver ⟨⟨1⟩, .error .unavailable⟩ (.drain [] .report)

/-- The target of the second request has returned. -/
private def secondFailed : Engine := firstFailed.resume ⟨none, failingSecond⟩ ()

end Engine

open Engine in
/-- The report of the death. -/
private def report : Moment := ⟨secondPending, .call (.die ⟨2⟩), bindDied⟩

open Engine in
/-- What happens until the report is over, the latest first. -/
private def untilOver : History :=
  [⟨firstFailed, .answer failingSecond (), secondFailed⟩,
    ⟨thirdSent, .answer failingFirst (), firstFailed⟩,
    ⟨thirdBound, .answer thirdSend (Except.ok ()), thirdSent⟩,
    ⟨thirdBinding, .answer thirdBind (Except.ok (⟨1⟩ : Handle)), thirdBound⟩,
    ⟨bindDied, .call (.submit .getImsi .empty ⟨2⟩ none), thirdBinding⟩]

open Engine in
/-- What happened before the report, the latest first. -/
private def beforeReport : History :=
  [⟨passed, .call (.submit .getImsi .empty ⟨1⟩ none), secondPending⟩,
    ⟨passing, .fire, passed⟩, ⟨firstPending, .call (.advance pause), passing⟩,
    ⟨repeating, .call (.submit .getImei .empty ⟨0⟩ none), firstPending⟩]

open Engine in
private theorem run_report :
    Run .repeating (untilOver ++ report :: beforeReport) secondFailed ∧
      History.Uncut (untilOver ++ report :: beforeReport) := by
  have hfirst : firstPending.control = .outside none := by cbv
  have hpassing : passing.control = .firing ⟨pause, 0⟩ := by cbv
  have hpassed : passed.control = .outside (some (.advanced 0)) := by cbv
  have hsecond : secondPending.control = .outside none := by cbv
  have hdied : bindDied.control = .outside none := by cbv
  have hthirdBinding : thirdBinding.control = .outside none := by cbv
  have hthirdBound : thirdBound.control = .outside none := by cbv
  have hthirdSent : thirdSent.control = .outside (some (.submitted ⟨100⟩)) := by cbv
  have hfirstFailed : firstFailed.control = .outside none := by cbv
  have hsecondFailed : secondFailed.control = .outside (some .handled) := by cbv
  have started : Run .repeating [] .repeating := .start
  have submitted : Run .repeating (⟨repeating, _, firstBinding⟩ :: _) firstBinding :=
    started.call (.submit .getImei .empty ⟨0⟩ none) none rfl (by decide)
      (by simp [History.submitted])
  rw [firstBinding_eq] at submitted
  have advancing := submitted.call (.advance pause) none hfirst trivial (by simp [Move.submitted])
  have advanced := advancing.fire ⟨pause, 0⟩ hpassing
  have submittedAgain : Run .repeating (⟨passed, _, secondBinding⟩ :: _) secondBinding :=
    advanced.call (.submit .getImsi .empty ⟨1⟩ none) _ hpassed (by cbv)
      (by simp [History.submitted, Move.submitted])
  rw [secondBinding_eq] at submittedAgain
  have died := submittedAgain.call (.die ⟨2⟩) none hsecond trivial (by simp [Move.submitted])
  have third := died.call (.submit .getImsi .empty ⟨2⟩ none) none hdied (by cbv)
    (by simp [History.submitted, Move.submitted])
  have bound := third.answer none thirdBind (Except.ok (⟨1⟩ : Handle)) none hthirdBinding (by cbv)
  have sent := bound.answer none thirdSend (Except.ok ()) none hthirdBound (by cbv)
  have returned := sent.answer none failingFirst () _ hthirdSent (by cbv)
  have finished := returned.answer none failingSecond () none hfirstFailed (by cbv)
  refine ⟨finished, ?_⟩
  simp only [untilOver, report, beforeReport, List.cons_append, List.nil_append,
    History.uncut_cons]
  have hadvancing : ¬ passing.IsCut := by
    rintro ⟨overflow, hcut⟩
    rw [hpassing] at hcut
    cases hcut
  exact ⟨not_isCut _ hsecondFailed (by simp), not_isCut _ hfirstFailed (by simp),
    not_isCut _ hthirdSent (by simp), not_isCut _ hthirdBound (by simp),
    not_isCut _ hthirdBinding (by simp), not_isCut _ hdied (by simp),
    not_isCut _ hsecond (by simp), not_isCut _ hpassed (by simp), hadvancing,
    not_isCut _ hfirst (by simp), by simp [History.Uncut]⟩

/-- So it is when two requests, submitted two seconds apart, wait for their binds and the bind of
the second dies.  The target of the first submits a third request, which gets the serial of the
first and is sent on a new link: the two are failed once each, the first submitted before the
other, and the third stays pending. -/
theorem fails_doomed_in_order_of_same_serial :
    ∃ later m earlier e, Run .repeating (later ++ m :: earlier) e ∧
      History.Uncut (later ++ m :: earlier) ∧ m.move.death? = some ⟨2⟩ ∧
      (∀ n ∈ later, m.base.length < n.before.stack.length) ∧
      m.before.hub.doomed.map (fun request => (request.serial, request.target)) =
        [(⟨100⟩, ⟨0⟩), (⟨101⟩, ⟨1⟩)] ∧
      e.hub.station.ledger.requests.map (fun request => (request.serial, request.target)) =
        [(⟨100⟩, ⟨2⟩)] ∧
      e.stack = m.base ∧
      History.delivered (later ++ m :: earlier) = [⟨1⟩, ⟨0⟩] ∧
      (∀ request ∈ m.before.hub.doomed,
        (History.delivered (later ++ m :: earlier)).count request.target = 1) ∧
      e.hub.link.retryArmed = true := by
  obtain ⟨run, uncut⟩ := run_report
  have underway : ∀ n ∈ untilOver, report.base.length < n.before.stack.length := by
    simp only [untilOver, List.forall_mem_cons]
    exact ⟨by cbv, by cbv, by cbv, by cbv, by cbv, by simp⟩
  have hdepth : Engine.secondFailed.stack.length = report.base.length := by cbv
  have reported : report.move.death? = some ⟨2⟩ := rfl
  obtain ⟨-, hconfirmed⟩ := Run.fails_doomed_in_order run uncut reported underway
  obtain ⟨-, -, -, -, -, hleft | hover⟩ := hconfirmed (by cbv)
  · obtain ⟨_, _, _, _, _, _, -, -, hstack⟩ := hleft
    rw [hstack] at hdepth
    simp at hdepth
    omega
  · obtain ⟨hstack, -, honce, hnoted, -⟩ := hover
    exact ⟨untilOver, report, beforeReport, _, run, uncut, rfl, underway, by cbv, by cbv, hstack,
      by cbv, honce, hnoted⟩

/-- A report is cut off when no time is left for the next attempt: the link notes one, and there is
no timer for it. -/
theorem unscheduled_after_cut_report :
    ∃ m earlier, Run .plain (m :: earlier) m.after ∧ m.move = .call (.die ⟨1⟩) ∧ m.Dies ∧
      History.InService (m :: earlier) ∧ m.after.stack = [] ∧ m.before.hub.doomed = [] ∧
      m.after.hub.link.phase = .dead ∧ m.after.hub.link.retryArmed = true ∧
      m.after.hub.attempts = [] := by
  have started : Run .plain [] .plain := .start
  have waiting := started.call .connect none rfl trivial (by simp [Move.submitted])
  have bound := waiting.answer none (.bind ⟨1⟩ .connection) (Except.ok (⟨0⟩ : Handle)) none rfl rfl
  have advancing := bound.call (.advance (.ofSeconds 18446744073709551615 (by decide)))
    (some (.connected (.ok ⟨1⟩))) rfl trivial (by simp [Move.submitted])
  have advanced := advancing.fire ⟨.ofSeconds 18446744073709551615 (by decide), 0⟩ (by cbv)
  have cut := advanced.call (.die ⟨1⟩) (some (.advanced 0)) (by cbv) trivial
    (by simp [Move.submitted])
  refine ⟨_, _, cut, rfl, by cbv, ?_, by cbv, by cbv, by cbv, by cbv, by cbv⟩
  simp only [History.InService, List.forall_mem_cons]
  exact ⟨by cbv, by cbv, by cbv, by cbv, by cbv, by simp⟩

end ModemLink
