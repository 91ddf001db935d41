import ModemLink.Proofs.Transitions

/-!
# What is pending was submitted

No transition makes up a request or changes whose request it is.  Whatever is in the ledger after a
move was in it before, under the same serial, or the move submitted it.  This holds of every move,
also of one that an overflow cuts off.

* `Ledger.Keeps` -- the statement about two ledgers, a partial order;
* `Station.keeps`, `Hub.keeps` -- every action and every transition but a submission;
* `Hub.keeps_submit` -- a submission enters one request;
* `Engine.Step.keeps`, `Run.wellFormed` -- every move, and the ledger of every run;
* `Run.origin` -- where a pending request comes from, seen from any earlier moment of its run.
-/

namespace ModemLink

/-- A serial, the kind of the request that has it, and the target of its result. -/
abbrev Identity := Serial × RequestKind × TargetId

/-- Whose request it is: what an acknowledgment leaves alone. -/
def PendingRequest.identity (request : PendingRequest) : Identity :=
  (request.serial, request.kind, request.target)

namespace PendingRequest

variable {a b : PendingRequest}

theorem serial_of_identity (h : a.identity = b.identity) : a.serial = b.serial :=
  congrArg (·.1) h

theorem target_of_identity (h : a.identity = b.identity) : a.target = b.target :=
  congrArg (·.2.2) h

end PendingRequest

namespace Ledger

/-- Whatever is pending afterwards was pending before or belongs to one of the submitted targets;
and the ledger is still well formed. -/
structure Keeps (submitted : List TargetId) (before after : Ledger) : Prop where
  wellFormed : after.WellFormed
  pending : ∀ request ∈ after.requests, request.target ∈ submitted ∨
    ∃ old ∈ before.requests, old.identity = request.identity

namespace Keeps

variable {submitted : List TargetId} {a b c : Ledger}

theorem refl (h : a.WellFormed) : Keeps submitted a a :=
  ⟨h, fun request hmem => .inr ⟨request, hmem, rfl⟩⟩

theorem trans (hab : Keeps submitted a b) (hbc : Keeps submitted b c) : Keeps submitted a c := by
  refine ⟨hbc.wellFormed, fun request hmem => ?_⟩
  rcases hbc.pending request hmem with hnew | ⟨old, hold, hsame⟩
  · exact .inl hnew
  · rcases hab.pending old hold with hnew | ⟨older, holder, hsame'⟩
    · exact .inl (PendingRequest.target_of_identity hsame ▸ hnew)
    · exact .inr ⟨older, holder, hsame'.trans hsame⟩

theorem of_completed {request : PendingRequest} (h : Completed a request b) :
    Keeps submitted a b :=
  ⟨h.wellFormed, fun other hmem =>
    .inr ⟨other, h.requests.mem_iff.mpr (List.mem_cons_of_mem _ hmem), rfl⟩⟩

theorem of_empty (hwf : b.WellFormed) (hempty : b.requests = []) : Keeps submitted a b :=
  ⟨hwf, by simp [hempty]⟩

theorem of_acknowledged {serial : Serial} {outcome : AckOutcome} (hwf : a.WellFormed)
    (h : Acknowledged a serial outcome b) : Keeps submitted a b := by
  cases h with
  | unknown _ => exact .refl hwf
  | duplicate _ _ _ => exact .refl hwf
  | @first request after hmem _ _ hwf' hrequests =>
      refine ⟨hwf', fun other hother => ?_⟩
      rcases List.mem_cons.mp (hrequests.mem_iff.mp (List.mem_cons_of_mem _ hother)) with rfl | hold
      · exact .inr ⟨request, hmem, rfl⟩
      · exact .inr ⟨other, hold, rfl⟩

theorem of_enroll (hwf : a.WellFormed) (hroom : a.size < Serial.space) {enrollment : Enrollment}
    (hnew : enrollment.target ∈ submitted) : Keeps submitted a (a.enroll enrollment).2 := by
  refine ⟨hwf.enroll hroom enrollment, fun request hmem => ?_⟩
  rcases List.mem_cons.mp ((hwf.perm_requests_enroll enrollment).mem_iff.mp hmem) with rfl | hold
  · exact .inl hnew
  · exact .inr ⟨request, hold, rfl⟩

end Keeps

end Ledger

namespace Station

open Clocked

variable {submitted : List TargetId}

/-- What a station does to a well-formed ledger enters no request but the submitted ones. -/
def Keeps (submitted : List TargetId) (before after : Station) : Prop :=
  before.ledger.WellFormed → before.ledger.Keeps submitted after.ledger

instance : IsPreorder Station (Keeps submitted) where
  refl _ h := .refl h
  trans _ _ _ hab hbc h := (hab h).trans (hbc (hab h).wellFormed)

/-- No action but the enrolling of a request enters one. -/
theorem keeps : Tends (Keeps submitted) where
  recorder _ _ := .refl
  governor _ _ := .refl
  subscribers _ _ := .refl
  timeline _ _ _ _ _ _ := .refl
  completed s serial hwf := by
    by_cases hnone : ∀ request ∈ s.ledger.requests, request.serial ≠ serial
    · rw [hwf.complete_of_none hnone]
      exact .refl hwf
    · push Not at hnone
      obtain ⟨request, hmem, rfl⟩ := hnone
      obtain ⟨after, heq, hout⟩ := hwf.complete_of_mem hmem
      rw [heq]
      exact .of_completed hout
  marked s serial hwf := .of_acknowledged hwf (hwf.acknowledged serial)
  drained _ _ := .of_empty (Ledger.wellFormed_snd_drain _) (Ledger.requests_snd_drain _)

end Station

namespace Hub

open Clocked

variable {submitted : List TargetId}

/-- The ledger of a hub. -/
abbrev ledger (hub : Hub) : Ledger := hub.station.ledger

/-- What a hub does to a well-formed ledger enters no request but the submitted ones. -/
def Keeps (submitted : List TargetId) (before after : Hub) : Prop :=
  before.station.Keeps submitted after.station

instance : IsPreorder Hub (Keeps submitted) where
  refl hub := Std.Refl.refl hub.station
  trans a b c := IsTrans.trans a.station b.station c.station

/-- The link is no business of the ledger. -/
theorem keeps : Tends (Station.Keeps submitted) (Keeps submitted) where
  station := Station.keeps
  lift _ _ := id
  begun _ := .refl
  ended _ _ _ := .refl
  died _ _ _ _ := .refl
  scheduleReconnect _ := wp_scheduleReconnect (fun _ _ => .refl) fun _ => .refl

/-- Whatever a transition finds entered, it enters no more. -/
theorem wp_keeps {transition : Clocked Hub Progress} {hub : Hub} {first : Ledger}
    (hfirst : first.Keeps submitted hub.ledger)
    (h : wp transition (fun _ after => Keeps submitted hub after) (Keeps submitted hub) hub) :
    wp transition (fun _ after => first.Keeps submitted after.ledger)
      (fun after => first.Keeps submitted after.ledger) hub :=
  h.mono (fun _ _ hafter => hfirst.trans (hafter hfirst.wellFormed))
    fun _ hafter => hfirst.trans (hafter hfirst.wellFormed)

/-- A submission enters one request, that of its target. -/
theorem keeps_submit (kind : RequestKind) (payload : Payload) (target : TargetId)
    (source : Option WorkSource) {hub : Hub} (hwf : hub.ledger.WellFormed)
    (hroom : hub.ledger.size < Serial.space) :
    wp (submit kind payload target source)
      (fun _ after => Ledger.Keeps [target] hub.ledger after.ledger)
      (fun after => Ledger.Keeps [target] hub.ledger after.ledger) hub := by
  simp only [submit, wp_bind, wp_get, record, wp_atStation]
  refine Station.wp_record (fun recorder _ => ?_) fun _ => .refl hwf
  refine Station.wp_acquire (fun timeline => ?_) (.refl hwf)
  rw [Station.wp_enroll]
  exact wp_keeps (.of_enroll hwf hroom (List.mem_singleton.mpr rfl)) (keeps.bind _ _)

end Hub

namespace Engine

open Clocked

variable {e after : Engine} {move : Move}

/-- A transition of a move enters no request but the one that the move submits. -/
theorem Passage.keeps {advance : Option Advance} {base : List Suspension} {hub : Hub}
    {transition : Clocked Hub Progress} (hwf : e.hub.ledger.WellFormed)
    (h : e.Passage move advance base hub transition) :
    wp transition (fun _ after => Ledger.Keeps move.submitted e.hub.ledger after.ledger)
      (fun after => Ledger.Keeps move.submitted e.hub.ledger after.ledger) hub := by
  cases h with
  | submit room => exact Hub.keeps_submit _ _ _ _ hwf room
  | connect => exact Hub.wp_keeps (.refl hwf) (Hub.keeps.bind _ _)
  | receive => exact Hub.wp_keeps (.refl hwf) (Hub.keeps.receive _ _)
  | die => exact Hub.wp_keeps (.refl hwf) (Hub.keeps.die _ _ _)
  | answer answer stack => exact Hub.wp_keeps (.refl hwf) (Hub.keeps.answered _ _ _)
  | task => exact Hub.wp_keeps (.refl hwf) (Hub.keeps.runTask fun _ => .refl)

/-- A move enters no request but the one it submits. -/
theorem Step.keeps (hwf : e.hub.ledger.WellFormed) (h : e.Step move after) :
    Ledger.Keeps move.submitted e.hub.ledger after.hub.ledger := by
  cases h.course with
  | @passage advance base hub transition hpassage =>
      have hwp := hpassage.keeps hwf
      rcases follow_of_wp advance { e with hub, stack := base } hwp with
        ⟨call, final, hkept, heq⟩ | ⟨returned, final, control, hkept, -, heq⟩ |
        ⟨overflow, final, hkept, heq⟩
      · rw [heq]
        exact hkept
      · rw [heq]
        exact hkept
      · rw [heq]
        exact hkept
  | quiet _ _ _ _ => exact .refl hwf
  | abandoned _ => exact .refl hwf

end Engine

/-- The ledger of every run is well formed. -/
theorem Run.wellFormed {c : Config} {seed : Option Int} {entropy : Entropy} {outside : OutsideStore}
    {history : History} {e : Engine} (run : Run (Engine.start c seed entropy outside) history e) :
    e.hub.ledger.WellFormed := by
  induction run with
  | start => exact Ledger.wellFormed_empty _ _
  | step run hstep fresh ih => exact (hstep.keeps ih).wellFormed

/-- What is pending was pending at any earlier moment, or was submitted since. -/
theorem Run.origin {c : Config} {seed : Option Int} {entropy : Entropy} {outside : OutsideStore}
    {later earlier : History} {m : Moment} {e : Engine}
    (run : Run (Engine.start c seed entropy outside) (later ++ m :: earlier) e)
    {request : PendingRequest} (hmem : request ∈ e.hub.ledger.requests) :
    (∃ old ∈ m.after.hub.ledger.requests, old.identity = request.identity) ∨
    ∃ n ∈ later, request.target ∈ n.move.submitted ∧
      ∃ new ∈ n.after.hub.ledger.requests, new.identity = request.identity := by
  induction later generalizing e request with
  | nil =>
      cases run with
      | step run hstep fresh => exact .inl ⟨request, hmem, rfl⟩
  | cons last later ih =>
      cases run with
      | step run hstep fresh =>
          rcases (hstep.keeps run.wellFormed).pending request hmem with hnew | ⟨old, hold, hsame⟩
          · exact .inr ⟨_, List.mem_cons_self .., hnew, request, hmem, rfl⟩
          · rcases ih run hold with ⟨older, holder, hsame'⟩ | ⟨n, hn, hnew, new, hmem', hsame'⟩
            · exact .inl ⟨older, holder, hsame'.trans hsame⟩
            · exact .inr ⟨n, List.mem_cons_of_mem _ hn,
                PendingRequest.target_of_identity hsame ▸ hnew, new, hmem', hsame'.trans hsame⟩

end ModemLink
