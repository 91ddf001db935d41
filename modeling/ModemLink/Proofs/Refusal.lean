import Mathlib
import ModemLink.Proofs.Keeping

/-!
# Which request a failed bind fails

A submission whose bind fails takes its request out of the ledger again and fails it.  It looks for
the request by its serial alone, and while the bind was under way that serial may have been given to
another request: a death takes every request out and draws the counter of serials anew.

* `Hub.submit_serial` -- when a submission waits for its bind, its serial is that of its own
  request;
* `Hub.bindAnswered_refused` -- a failed bind fails the request that has the serial by then;
* `Run.refuses_own_iff` -- that is the submission's own request, unless the serial was given away
  meanwhile and is still pending;
* `refuses_other_after_death` -- a run in which it was.
-/

namespace ModemLink

namespace Hub

open Clocked

variable {hub : Hub}

/-- When a submission waits for its bind, its serial is that of its own request and of no other. -/
theorem submit_serial (kind : RequestKind) (payload : Payload) (target : TargetId)
    (source : Option WorkSource) (hwf : hub.ledger.WellFormed)
    (hroom : hub.ledger.size < Serial.space) :
    wp (submit kind payload target source)
      (fun progress after => ∀ cookie serial kind' payload',
        progress = .waits (.bind cookie (.submission serial kind' payload')) →
        ∀ request ∈ after.ledger.requests, request.serial = serial → request.target = target)
      (fun _ => True) hub := by
  simp only [submit, wp_bind, wp_get, record, wp_atStation]
  refine Station.wp_record (fun recorder _ => ?_) fun _ => trivial
  refine Station.wp_acquire (fun timeline => ?_) trivial
  rw [Station.wp_enroll]
  simp only [bind, wp_bind, wp_get]
  split
  · simp only [bound, wp_bind, wp_atStation]
    unfold wp
    split
    · rintro cookie serial kind' payload' ⟨⟩
    · trivial
  · simp only [wp_bind, wp_set, wp_pure]
    rintro cookie serial kind' payload' ⟨⟩ request hmem hserial
    rcases List.mem_cons.mp ((hwf.perm_requests_enroll _).mem_iff.mp hmem) with rfl | hold
    · rfl
    · exact absurd hserial (hwf.serial_enroll_ne hroom _ request hold)

/-- What a submission does when its bind has failed: nothing if no pending request has its serial,
else it fails the request that has it. -/
inductive Refused (before : Hub) (serial : Serial) : Progress → Hub → Prop
  | nothing {after : Hub} (none : ∀ request ∈ before.ledger.requests, request.serial ≠ serial)
      (same : after.ledger = before.ledger) :
      Refused before serial (.ends (.submitted serial)) after
  | fails {after : Hub} {request : PendingRequest} (mem : request ∈ before.ledger.requests)
      (same : request.serial = serial)
      (completed : Ledger.Completed before.ledger request after.ledger) :
      Refused before serial
        (.waits (.deliver ⟨request.target, .error .unavailable⟩ (.refusal serial))) after

/-- A failed bind of a submission fails the request that has the serial, whosever it is; an overflow
may stop it, but no request of another serial is lost. -/
theorem bindAnswered_refused {cookie : Epoch} (serial : Serial) (kind : RequestKind)
    (payload : Payload) {answer : Except LinkFault Handle} {fault : LinkFault}
    (hwf : hub.ledger.WellFormed) (hfault : (hub.link.endBind cookie answer).1 = .error fault) :
    wp (bindAnswered cookie (.submission serial kind payload) answer) (Refused hub serial)
      (fun after => ∀ request ∈ hub.ledger.requests, request.serial ≠ serial →
        request ∈ after.ledger.requests) hub := by
  have hbound : ∀ after : Hub, after.ledger = hub.ledger →
      wp (bound (.submission serial kind payload) (.error fault)) (Refused hub serial)
        (fun after => ∀ request ∈ hub.ledger.requests, request.serial ≠ serial →
          request ∈ after.ledger.requests) after := by
    intro after hafter
    simp only [bound, wp_bind, wp_atStation]
    have hwf' : after.ledger.WellFormed := by rwa [hafter]
    refine Station.wp_complete hwf' (fun hnone => ?_) fun request hmem hserial ledger hout => ?_
    · exact .nothing (by rwa [← hafter]) hafter
    · simp only [wp_bind, wp_atStation]
      rw [show after.station.ledger = hub.ledger from hafter] at hmem hout
      refine Station.wp_settle (fun _ _ _ _ => .fails hmem hserial hout) ?_
      intro _ _ other hother hne
      rcases List.mem_cons.mp (hout.requests.mem_iff.mp hother) with rfl | hrest
      · exact absurd hserial hne
      · exact hrest
  simp only [bindAnswered, wp_bind, wp_get, wp_set, hfault, record, wp_atStation]
  refine Station.wp_record (fun recorder _ => ?_) fun _ _ h _ => h
  exact wp_scheduleReconnect (fun timeline retryArmed => hbound _ rfl) fun _ _ h _ => h

end Hub

namespace Engine

variable {e after : Engine}

/-- When a submission waits for its bind, its serial is that of its own request. -/
theorem Step.submit_serial {kind kind' : RequestKind} {payload payload' : Payload}
    {target : TargetId} {source : Option WorkSource} {cookie : Epoch} {serial : Serial}
    (hwf : e.hub.ledger.WellFormed)
    (hstep : e.Step (.call (.submit kind payload target source)) after)
    (hcalling : after.calling = some (.bind cookie (.submission serial kind' payload'))) :
    ∀ request ∈ after.hub.ledger.requests, request.serial = serial → request.target = target := by
  cases hstep with
  | call call hcontrol hroom =>
      have hwp := Hub.submit_serial kind payload target source hwf hroom
      change (e.follow none (Hub.submit kind payload target source)).calling = _ at hcalling
      change ∀ request ∈
        (e.follow none (Hub.submit kind payload target source)).hub.ledger.requests, _
      rcases follow_of_wp none e hwp with
        ⟨made, final, hown, heq⟩ | ⟨returned, final, control, -, hcontrol', heq⟩ |
        ⟨overflow, final, -, heq⟩
      · rw [heq] at hcalling
        obtain rfl : made = .bind cookie (.submission serial kind' payload') :=
          Option.some.inj hcalling
        rw [heq]
        exact hown cookie serial kind' payload' rfl
      · rw [heq, calling_of_control hcontrol'] at hcalling
        cases hcalling
      · rw [heq, calling_of_control (by simp)] at hcalling
        cases hcalling

/-- What the answer to a failed bind of a submission comes to: it is cut off before or after a
request of its serial was taken out, or there is none, or the one there is gets its failure. -/
theorem Step.refused {cookie : Epoch} {serial : Serial} {kind : RequestKind} {payload : Payload}
    {answer : Except LinkFault Handle} {fault : LinkFault} (hwf : e.hub.ledger.WellFormed)
    (hfault : (e.hub.link.endBind cookie answer).1 = .error fault)
    (hstep : e.Step (.answer (.bind cookie (.submission serial kind payload)) answer) after) :
    (after.IsCut ∧ after.calling = none ∧
      ∀ request ∈ e.hub.ledger.requests, request.serial ≠ serial →
        request ∈ after.hub.ledger.requests) ∨
    ((∀ request ∈ e.hub.ledger.requests, request.serial ≠ serial) ∧
      after.hub.ledger = e.hub.ledger ∧ after.calling = none) ∨
    ∃ request ∈ e.hub.ledger.requests, request.serial = serial ∧
      Ledger.Completed e.hub.ledger request after.hub.ledger ∧
      after.calling =
        some (.deliver ⟨request.target, .error .unavailable⟩ (.refusal serial)) := by
  have hwp := Hub.bindAnswered_refused serial kind payload hwf hfault
  obtain ⟨advance, hafter⟩ : ∃ advance, after = follow advance
      (Hub.bindAnswered cookie (.submission serial kind payload) answer)
      { e with stack := e.stack.tail } := by
    cases hstep with
    | answer advance call answer last hcontrol hstack => exact ⟨_, rfl⟩
  rcases follow_of_wp advance { e with stack := e.stack.tail } hwp with
    ⟨made, final, hrefused, heq⟩ | ⟨returned, final, control, hrefused, hcontrol, heq⟩ |
    ⟨overflow, final, hothers, heq⟩
  · rw [hafter, heq]
    cases hrefused with
    | fails hmem hserial hout => exact .inr (.inr ⟨_, hmem, hserial, hout, rfl⟩)
  · rw [hafter, heq]
    cases hrefused with
    | nothing hnone hsame => exact .inr (.inl ⟨hnone, hsame, calling_of_control hcontrol⟩)
  · rw [hafter, heq]
    exact .inl ⟨⟨overflow, rfl⟩, calling_of_control (by simp), hothers⟩

/-- Between two moments no request but that of a target is taken out of the ledger, and no other
target is handed a result. -/
def FailsOnly (before after : Engine) (target : TargetId) : Prop :=
  (∀ request ∈ before.hub.ledger.requests, request ∉ after.hub.ledger.requests →
    request.target = target) ∧
  ∀ delivery use, after.calling = some (.deliver delivery use) → delivery.target = target

section

variable {cookie : Epoch} {serial : Serial} {kind : RequestKind} {payload : Payload}
  {answer : Except LinkFault Handle} {fault : LinkFault} {target : TargetId}

/-- If only the request of a target can have the serial, no other is failed. -/
theorem Step.failsOnly_of_own (hwf : e.hub.ledger.WellFormed)
    (hfault : (e.hub.link.endBind cookie answer).1 = .error fault)
    (hstep : e.Step (.answer (.bind cookie (.submission serial kind payload)) answer) after)
    (hown : ∀ request ∈ e.hub.ledger.requests, request.serial = serial →
      request.target = target) : e.FailsOnly after target := by
  rcases hstep.refused hwf hfault with ⟨-, hcalling, hothers⟩ | ⟨-, hsame, hcalling⟩ |
    ⟨failed, hfailed, hserial, hcompleted, hcalling⟩
  · refine ⟨fun request hmem hgone => hown request hmem ?_, fun delivery use hdeliver => ?_⟩
    · by_contra hne
      exact hgone (hothers request hmem hne)
    · rw [hcalling] at hdeliver
      cases hdeliver
  · refine ⟨fun request hmem hgone => ?_, fun delivery use hdeliver => ?_⟩
    · rw [hsame] at hgone
      exact absurd hmem hgone
    · rw [hcalling] at hdeliver
      cases hdeliver
  · refine ⟨fun request hmem hgone => ?_, fun delivery use hdeliver => ?_⟩
    · rcases List.mem_cons.mp (hcompleted.requests.mem_iff.mp hmem) with rfl | hrest
      · exact hown request hmem hserial
      · exact absurd hrest hgone
    · rw [hcalling] at hdeliver
      cases hdeliver
      exact hown failed hfailed hserial

/-- If no other request than that of a target was failed, no other had the serial. -/
theorem Step.own_of_failsOnly (hwf : e.hub.ledger.WellFormed)
    (hfault : (e.hub.link.endBind cookie answer).1 = .error fault)
    (hstep : e.Step (.answer (.bind cookie (.submission serial kind payload)) answer) after)
    (huncut : ¬ after.IsCut) (honly : e.FailsOnly after target) :
    ∀ request ∈ e.hub.ledger.requests, request.serial = serial → request.target = target := by
  intro request hmem hserial
  rcases hstep.refused hwf hfault with ⟨hcut, -⟩ | ⟨hnone, -⟩ | ⟨failed, hfailed, hsame, -,
      hcalling⟩
  · exact absurd hcut huncut
  · exact absurd hserial (hnone request hmem)
  · obtain rfl : failed = request := hwf.serial_inj hfailed hmem (hsame.trans hserial.symm)
    exact honly.2 _ _ hcalling

end

end Engine

/-- One of the moments submitted a request that got a serial and is still pending under it. -/
def Reissued (moments : History) (serial : Serial) (e : Engine) : Prop :=
  ∃ m ∈ moments, ∃ target ∈ m.move.submitted,
    (∃ request ∈ m.after.hub.ledger.requests,
      request.target = target ∧ request.serial = serial) ∧
    ∃ request ∈ e.hub.ledger.requests, request.target = target ∧ request.serial = serial

section

variable {c : Config} {seed : Option Int} {entropy : Entropy} {outside : OutsideStore}
  {later earlier : History} {m : Moment} {e : Engine} {kind : RequestKind} {payload : Payload}
  {target : TargetId} {source : Option WorkSource} {cookie : Epoch} {serial : Serial}

/-- A pending request with the serial of a submission that waits for its bind is its own, unless the
serial was given away since. -/
theorem Run.own_or_reissued
    (run : Run (Engine.start c seed entropy outside) (later ++ m :: earlier) e)
    (submits : m.move = .call (.submit kind payload target source))
    (waits : m.made = some (.bind cookie (.submission serial kind payload)))
    {request : PendingRequest} (hmem : request ∈ e.hub.ledger.requests)
    (hserial : request.serial = serial) :
    request.target = target ∨ Reissued later serial e := by
  rcases run.origin hmem with ⟨old, hold, hsame⟩ | ⟨n, hn, hnew, new, hmem', hsame⟩
  · obtain ⟨hbefore, hstep⟩ := run.split
    rw [submits] at hstep
    have hcalling : m.after.calling = some (.bind cookie (.submission serial kind payload)) := by
      rw [← waits, Moment.made, submits]
    have hown := hstep.submit_serial hbefore.wellFormed hcalling old hold
      ((PendingRequest.serial_of_identity hsame).trans hserial)
    exact .inl ((PendingRequest.target_of_identity hsame).symm.trans hown)
  · exact .inr ⟨n, hn, request.target, hnew,
      ⟨new, hmem', PendingRequest.target_of_identity hsame,
        (PendingRequest.serial_of_identity hsame).trans hserial⟩,
      request, hmem, rfl, hserial⟩

/-- **What a failed bind fails.**  A submission whose bind has failed fails its own request or
none, unless its serial was given to another request while the bind was under way and that request
is still pending: then it fails that one. -/
theorem Run.refuses_own_iff
    (run : Run (Engine.start c seed entropy outside) (later ++ m :: earlier) e)
    (submits : m.move = .call (.submit kind payload target source))
    (waits : m.made = some (.bind cookie (.submission serial kind payload)))
    {answer : Except LinkFault Handle} {fault : LinkFault}
    (fails : (e.hub.link.endBind cookie answer).1 = .error fault) {after : Engine}
    (answered :
      e.Step (.answer (.bind cookie (.submission serial kind payload)) answer) after) :
    (¬ Reissued later serial e → e.FailsOnly after target) ∧
      (¬ after.IsCut → e.FailsOnly after target → ¬ Reissued later serial e) := by
  have hwf := run.wellFormed
  constructor
  · intro hkept
    refine answered.failsOnly_of_own hwf fails fun request hmem hserial => ?_
    exact (run.own_or_reissued submits waits hmem hserial).resolve_right hkept
  · rintro huncut honly ⟨n, hn, other, hother, -, request, hmem, htarget, hserial⟩
    have hsame : other = target := by
      rw [← htarget]
      exact answered.own_of_failsOnly hwf fails huncut honly request hmem hserial
    -- Targets are for one request each, so the other submission was not the one that waits.
    have hnodup := run.nodup_submitted
    rw [History.submitted, List.flatMap_append, List.nodup_append] at hnodup
    refine hnodup.2.2 other (List.mem_flatMap.mpr ⟨n, hn, hother⟩) target ?_ hsame
    exact List.mem_flatMap.mpr ⟨m, List.mem_cons_self .., by simp [submits, Move.submitted]⟩

end

/-- So the first request of an engine is failed by its own bind. -/
theorem refuses_own_of_failed_bind :
    ∃ history e after, Run .plain history e ∧ history.submitted = [⟨0⟩] ∧
      e.Step (.answer (.bind ⟨1⟩ (.submission ⟨100⟩ .getImei .empty))
        (Except.error LinkFault.disconnected)) after ∧
      e.FailsOnly after ⟨0⟩ := by
  have started : Run .plain [] .plain := .start
  have waiting := started.call (.submit .getImei .empty ⟨0⟩ none) none rfl (by decide)
    (by simp [History.submitted])
  have run : Run .plain ([] ++ _ :: []) _ := waiting
  have answered : Engine.Step _ (.answer (.bind ⟨1⟩ (.submission ⟨100⟩ .getImei .empty))
      (Except.error LinkFault.disconnected)) _ :=
    .answer (e := Engine.plain.call (.submit .getImei .empty ⟨0⟩ none)) none _ _ none rfl rfl
  refine ⟨_, _, _, waiting, rfl, answered, ?_⟩
  exact (Run.refuses_own_iff run rfl rfl rfl answered).1 (by simp [Reissued])

/-- The serial 100 is drawn again after a death under the bind of a first request, and given to a
second one, which is sent on a new link; then the bind of the first request ends, stale, and the
second request is failed. -/
theorem refuses_other_after_death :
    ∃ later m earlier e after,
      Run (.start {} (some 100) ⟨[100]⟩ .silent) (later ++ m :: earlier) e ∧
      m.move = .call (.submit .getImei .empty ⟨0⟩ none) ∧
      m.made = some (.bind ⟨1⟩ (.submission ⟨100⟩ .getImei .empty)) ∧
      (e.hub.link.endBind ⟨1⟩ (.ok ⟨1⟩)).1 = .error .disconnected ∧
      e.hub.link.current = some ⟨⟨0⟩, ⟨3⟩⟩ ∧
      e.Step (.answer (.bind ⟨1⟩ (.submission ⟨100⟩ .getImei .empty)) (Except.ok (⟨1⟩ : Handle)))
        after ∧
      after.calling = some (.deliver ⟨⟨1⟩, .error .unavailable⟩ (.refusal ⟨100⟩)) ∧
      ¬ e.FailsOnly after ⟨0⟩ := by
  have started : Run (.start {} (some 100) ⟨[100]⟩ .silent) [] _ := .start
  have waiting := started.call (.submit .getImei .empty ⟨0⟩ none) none rfl (by decide)
    (by simp [History.submitted])
  have dead := waiting.call (.die ⟨1⟩) none rfl trivial (by simp [Move.submitted])
  have resubmitted := dead.call (.submit .getImsi .empty ⟨1⟩ none) none (by cbv) (by cbv)
    (by simp [History.submitted, Move.submitted])
  have rebound := resubmitted.answer none (.bind ⟨3⟩ (.submission ⟨100⟩ .getImsi .empty))
    (Except.ok (⟨0⟩ : Handle)) none (by cbv) (by cbv)
  have sent := rebound.answer none (.send ⟨⟨0⟩, ⟨3⟩⟩ ⟨100⟩ .getImsi .empty) (Except.ok ()) none
    (by cbv) (by cbv)
  have drained := sent.answer none (.deliver ⟨⟨0⟩, .error .unavailable⟩ (.drain [] .report)) ()
    (some (.submitted ⟨100⟩)) (by cbv) (by cbv)
  refine ⟨[_, _, _, _, _], _, [], _, _, drained, rfl, rfl, by cbv, by cbv,
    .answer none (.bind ⟨1⟩ (.submission ⟨100⟩ .getImei .empty)) (Except.ok (⟨1⟩ : Handle))
      (some .handled) (by cbv) (by cbv), by cbv, ?_⟩
  rintro ⟨-, honly⟩
  have h := honly ⟨⟨1⟩, .error .unavailable⟩ (.refusal ⟨100⟩) (by cbv)
  cases h

end ModemLink
