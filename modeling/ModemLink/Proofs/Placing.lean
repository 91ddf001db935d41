import ModemLink.Proofs.Keeping
import ModemLink.Proofs.LiveLinks

/-!
# Where the pending requests are

A request is in the ledger before there is a link to send it on, and it stays there while links come
and go under the calls that wait.  What holds at every moment is that each pending request is in
good hands: its command was sent on the live link, or some call that waits will see to it when its
answer comes -- the bind of its submission, or its command on its way on the live link.

* `Outgoing.Serves` -- whether a call that waits will see to a request;
* `Hub.Placed` -- each pending request is in good hands;
* `Hub.placed_submit`, `Hub.placed_runTask`, `Hub.placed_answered` and the others -- every
  transition leaves it so.
-/

namespace ModemLink

/-- Whether a handle is wanted for a request. -/
def BindUse.Wants (identity : Identity) : BindUse → Prop
  | .submission serial kind _ => identity.1 = serial ∧ identity.2.1 = kind
  | _ => False

/-- Whether a call that waits will see to a request: a bind for it, or its command on a link of the
present epoch. -/
def Outgoing.Serves (epoch : Epoch) (identity : Identity) : Outgoing → Prop
  | .bind _ use => use.Wants identity
  | .send live serial kind _ => live.epoch = epoch ∧ identity.1 = serial ∧ identity.2.1 = kind
  | _ => False

/-- The call that a transition leaves waiting. -/
def Progress.calls : Progress → List Outgoing
  | .waits call => [call]
  | .ends _ => []

namespace Hub

open Clocked

/-- Each pending request is in good hands: it is among those that the transition under way sees to,
or it was sent on the live link, or a call that waits serves it. -/
structure Placed (sent : LiveLink → Identity → Prop) (granted : LiveLink → Prop)
    (loose : Identity → Prop) (calls : List Outgoing) (hub : Hub) : Prop where
  ledger : hub.ledger.WellFormed
  link : hub.link.Anchored granted calls
  pending : ∀ request ∈ hub.ledger.requests, loose request.identity ∨
    (∃ live, hub.link.current = some live ∧ sent live request.identity) ∨
    ∃ call ∈ calls, call.Serves hub.link.epoch request.identity

/-- What a transition that began in an epoch leaves behind: the same epoch or the next, and every
pending request in good hands. -/
structure Leaves (sent : LiveLink → Identity → Prop) (granted : LiveLink → Prop)
    (calls : List Outgoing) (epoch : Epoch) (progress : Progress) (after : Hub) : Prop where
  epoch : after.link.epoch = epoch ∨ after.link.epoch = epoch.next
  placed : after.Placed sent granted (fun _ => False) (progress.calls ++ calls)

variable {sent sent' : LiveLink → Identity → Prop} {granted granted' : LiveLink → Prop}
  {loose loose' : Identity → Prop} {calls : List Outgoing} {hub : Hub}

namespace Placed

theorem mono (h : Placed sent granted loose calls hub)
    (hsent : ∀ live identity, sent live identity → sent' live identity)
    (hgranted : ∀ live, granted live → granted' live) :
    Placed sent' granted' loose calls hub := by
  refine ⟨h.ledger, h.link.mono hgranted, fun request hmem => (h.pending request hmem).imp_right ?_⟩
  rintro (⟨live, hlive, hreq⟩ | hreq)
  · exact .inl ⟨live, hlive, hsent _ _ hreq⟩
  · exact .inr hreq

theorem mono_loose (h : Placed sent granted loose calls hub)
    (hloose : ∀ identity, loose identity → loose' identity) :
    Placed sent granted loose' calls hub :=
  ⟨h.ledger, h.link, fun request hmem => (h.pending request hmem).imp_left (hloose _)⟩

/-- What takes requests out of the ledger, or changes them without changing whose they are. -/
theorem station {station : Station} (h : Placed sent granted loose calls hub)
    (hkeeps : Ledger.Keeps [] hub.ledger station.ledger) :
    Placed sent granted loose calls { hub with station } := by
  refine ⟨hkeeps.wellFormed, h.link, fun request hmem => ?_⟩
  rcases hkeeps.pending request hmem with hnew | ⟨old, hold, hsame⟩
  · simp at hnew
  · rw [← hsame]
    exact h.pending old hold

/-- The clock and the subscribers are no business of the requests. -/
theorem surroundings (h : Placed sent granted loose calls hub) (timeline : Timeline Task)
    (subscribers : Subscribers) :
    Placed sent granted loose calls
      { hub with station := { hub.station with timeline, subscribers } } :=
  ⟨h.ledger, h.link, h.pending⟩

theorem wp_atStation {α : Type} {act : Clocked Station α} {post : α → Hub → Prop}
    (h : Placed sent granted loose calls hub)
    (hact : Moves (Station.Keeps []) (Station.Keeps []) act)
    (hpost : ∀ a station, Placed sent granted loose calls { hub with station } →
      post a { hub with station }) : wp (atStation act) post (fun _ => True) hub := by
  rw [Hub.wp_atStation]
  exact (hact hub.station).mono
    (fun a station hkeeps => hpost a station (h.station (hkeeps h.ledger))) fun _ _ => trivial

theorem wp_scheduleReconnect {post : Unit → Hub → Prop} (h : Placed sent granted loose calls hub)
    (hpost : ∀ after : Hub, after.link.epoch = hub.link.epoch →
      after.link.current = hub.link.current → Placed sent granted loose calls after →
      post () after) : wp scheduleReconnect post (fun _ => True) hub :=
  Hub.wp_scheduleReconnect
    (fun _ retryArmed => hpost _ rfl rfl ⟨h.ledger, h.link.retry retryArmed, h.pending⟩)
    fun _ => trivial

/-- A call that serves no request comes to wait. -/
theorem waits {call : Outgoing} (h : Placed sent granted loose calls hub)
    (hcookie : call.cookie? = none) (hlive : call.live? = none) :
    Placed sent granted loose (call :: calls) hub := by
  refine ⟨h.ledger, h.link.cons_other hcookie hlive, fun request hmem => ?_⟩
  rcases h.pending request hmem with hreq | hreq | ⟨other, hother, hreq⟩
  · exact .inl hreq
  · exact .inr (.inl hreq)
  · exact .inr (.inr ⟨other, List.mem_cons_of_mem _ hother, hreq⟩)

/-- The loose requests are put on the live link. -/
theorem cons_send {live : LiveLink} {serial : Serial} {kind : RequestKind} {payload : Payload}
    (h : Placed sent granted (BindUse.submission serial kind payload).Wants calls hub)
    (hlive : hub.link.current = some live) :
    Placed sent granted (fun _ => False) (.send live serial kind payload :: calls) hub := by
  refine ⟨h.ledger, h.link.cons_send hlive, fun request hmem => ?_⟩
  rcases h.pending request hmem with hreq | hreq | ⟨other, hother, hreq⟩
  · exact .inr (.inr ⟨_, List.mem_cons_self .., (Link.current_eq_some hlive).2.2, hreq⟩)
  · exact .inr (.inl hreq)
  · exact .inr (.inr ⟨other, List.mem_cons_of_mem _ hother, hreq⟩)

/-- The loose requests wait for a bind.  No command was on its way, and none was sent, on the live
link, for there is none. -/
theorem beginBind {use : BindUse} (h : Placed sent granted use.Wants calls hub)
    (hnone : hub.link.current = none) (hnext : hub.link.epoch.HasNext) :
    Placed sent granted (fun _ => False) (.bind hub.link.epoch.next use :: calls)
      { hub with link := hub.link.beginBind } := by
  refine ⟨h.ledger, h.link.beginBind hnext use, fun request hmem => .inr (.inr ?_)⟩
  rcases h.pending request hmem with hreq | ⟨live, hlive, -⟩ | ⟨other, hother, hreq⟩
  · exact ⟨_, List.mem_cons_self .., hreq⟩
  · rw [hnone] at hlive
    cases hlive
  · refine ⟨other, List.mem_cons_of_mem _ hother, ?_⟩
    cases other with
    | bind cookie use => exact hreq
    | send live serial kind payload =>
        -- A command of the epoch that ends here would be on the live link.
        have hlive := h.link.sending _ hother live rfl hreq.1
        rw [hnone] at hlive
        cases hlive
    | deliver delivery use => exact hreq
    | sendAck live => exact hreq

/-- A bind ends, and what it was for is loose. -/
theorem endBind {cookie : Epoch} {use : BindUse} {answer : Except LinkFault Handle}
    (h : Placed sent granted (fun _ => False) (.bind cookie use :: calls) hub)
    (hgranted : ∀ handle, answer = .ok handle → granted ⟨handle, cookie⟩) :
    Placed sent granted use.Wants calls
      { hub with link := (hub.link.endBind cookie answer).2 } := by
  refine ⟨h.ledger, h.link.endBind hgranted, fun request hmem => ?_⟩
  rcases h.pending request hmem with hreq | ⟨live, hlive, hreq⟩ | ⟨other, hother, hreq⟩
  · exact hreq.elim
  · exact .inr (.inl ⟨live, h.link.current_endBind_of_live hlive answer, hreq⟩)
  · rcases List.mem_cons.mp hother with rfl | hother
    · exact .inl hreq
    · refine .inr (.inr ⟨other, hother, ?_⟩)
      rw [Link.epoch_endBind]
      exact hreq

end Placed

theorem Leaves.ends {epoch : Epoch} {returned : Returned}
    (h : Placed sent granted (fun _ => False) calls hub)
    (hepoch : hub.link.epoch = epoch ∨ hub.link.epoch = epoch.next) :
    Leaves sent granted calls epoch (.ends returned) hub :=
  ⟨hepoch, h⟩

theorem Leaves.waits {epoch : Epoch} {call : Outgoing}
    (h : Placed sent granted (fun _ => False) (call :: calls) hub)
    (hepoch : hub.link.epoch = epoch ∨ hub.link.epoch = epoch.next) :
    Leaves sent granted calls epoch (.waits call) hub :=
  ⟨hepoch, h⟩

/-- What waits for a handle is sent on it, or leaves the ledger. -/
theorem placed_bound {use : BindUse} {answer : Except LinkFault LiveLink}
    (h : Placed sent granted use.Wants calls hub)
    (hlive : ∀ live, answer = .ok live → hub.link.current = some live) :
    wp (bound use answer) (Leaves sent granted calls hub.link.epoch) (fun _ => True) hub := by
  cases use with
  | connection => exact .ends h (.inl rfl)
  | retry => exact .ends h (.inl rfl)
  | submission serial kind payload =>
      cases answer with
      | ok live =>
          simp only [bound, wp_bind]
          refine h.wp_atStation (Station.keeps.arm _ _ _) fun armed station hstation => ?_
          exact .waits (hstation.cons_send (hlive live rfl)) (.inl rfl)
      | error fault =>
          simp only [bound, wp_bind, Hub.wp_atStation]
          -- Whoever has the serial goes out, so nothing that waits for the handle stays.
          refine Station.wp_complete h.ledger (fun hnone => ?_)
            fun request hmem hserial ledger hout => ?_
          · refine .ends ⟨h.ledger, h.link, fun request hmem => ?_⟩ (.inl rfl)
            exact .inr ((h.pending request hmem).resolve_left fun hreq => hnone request hmem hreq.1)
          · have hplaced : Placed sent granted (fun _ => False) calls
                { hub with station := { hub.station with ledger } } := by
              refine ⟨hout.wellFormed, h.link, fun other hother => .inr ?_⟩
              have hold := hout.requests.mem_iff.mpr (List.mem_cons_of_mem _ hother)
              refine (h.pending other hold).resolve_left fun hreq => ?_
              exact hout.serial_ne h.ledger other hother (hreq.1.trans hserial.symm)
            simp only [wp_bind]
            refine hplaced.wp_atStation (Station.keeps.settle _ _ _) fun _ station hstation => ?_
            exact .waits (hstation.waits rfl rfl) (.inl rfl)

/-- What waits for a handle gets the live one, or waits for a new one. -/
theorem placed_bind {use : BindUse} (h : Placed sent granted use.Wants calls hub)
    (hnext : hub.link.epoch.HasNext) :
    wp (bind use) (Leaves sent granted calls hub.link.epoch) (fun _ => True) hub := by
  simp only [bind, wp_bind, wp_get]
  split
  · rename_i live hlive
    exact placed_bound h fun _ heq => by rw [hlive, Except.ok.inj heq]
  · rename_i hnone
    exact .waits (h.beginBind hnone hnext) (.inr rfl)

theorem placed_bindAnswered {cookie : Epoch} {use : BindUse} {answer : Except LinkFault Handle}
    (h : Placed sent granted (fun _ => False) (.bind cookie use :: calls) hub)
    (hgranted : ∀ handle, answer = .ok handle → granted ⟨handle, cookie⟩) :
    wp (bindAnswered cookie use answer) (Leaves sent granted calls hub.link.epoch) (fun _ => True)
      hub := by
  have hended := h.endBind hgranted
  have hepoch := Link.epoch_endBind hub.link cookie answer
  have hcurrent : ∀ live, (hub.link.endBind cookie answer).1 = .ok live →
      (hub.link.endBind cookie answer).2.current = some live :=
    fun _ => Link.current_endBind
  simp only [bindAnswered, wp_bind, wp_get, wp_set]
  split
  · simp only [wp_bind]
    refine hended.wp_atStation (Station.keeps.record _) fun _ station hstation => ?_
    rw [← hepoch]
    exact placed_bound hstation hcurrent
  · rename_i fault hfault
    simp only [wp_bind]
    refine hended.wp_atStation (Station.keeps.record _) fun _ station hstation => ?_
    refine hstation.wp_scheduleReconnect fun after hafter _ hplaced => ?_
    rw [← hepoch, ← hafter]
    exact placed_bound hplaced fun _ hlive => by simp [hfault] at hlive

theorem placed_drainNext {requests : List PendingRequest} {use : DeathUse}
    (h : Placed sent granted (fun _ => False) calls hub) {epoch : Epoch}
    (hepoch : hub.link.epoch = epoch ∨ hub.link.epoch = epoch.next) :
    wp (drainNext requests use) (Leaves sent granted calls epoch) (fun _ => True) hub := by
  cases requests with
  | nil =>
      simp only [drainNext, wp_bind]
      refine h.wp_scheduleReconnect fun after hafter _ hplaced => ?_
      exact .ends hplaced (by rwa [hafter])
  | cons request rest =>
      simp only [drainNext, wp_bind]
      refine h.wp_atStation (Station.keeps.settle _ _ _) fun delivery station hstation => ?_
      exact .waits (hstation.waits rfl rfl) hepoch

/-- A death leaves no request pending, so that of the present link leaves none loose. -/
theorem placed_die {cookie : Epoch} {use : DeathUse}
    (h : Placed sent granted (fun _ => cookie = hub.link.epoch) calls hub)
    (hnext : hub.link.epoch.HasNext) :
    wp (die cookie use) (Leaves sent granted calls hub.link.epoch) (fun _ => True) hub := by
  simp only [die, wp_bind, wp_get]
  split
  · rename_i hstale
    refine .ends (h.mono_loose fun _ hcookie => ?_) (.inl rfl)
    simp [Link.confirmDeath, hcookie] at hstale
  · rename_i link hdeath
    simp only [wp_bind, wp_set, Hub.wp_atStation]
    refine Station.wp_drainAll (fun drained ledger entropy recorder _ hempty hwf _ => ?_)
      fun _ _ _ => trivial
    refine placed_drainNext ⟨hwf, h.link.confirmDeath hnext hdeath, fun request hmem => ?_⟩
      (.inr (Link.epoch_confirmDeath hdeath))
    rw [show Hub.ledger _ = ledger from rfl, hempty] at hmem
    cases hmem

theorem placed_acknowledge {live : Option LiveLink}
    (h : Placed sent granted (fun _ => False) calls hub) :
    wp (acknowledge live) (Leaves sent granted calls hub.link.epoch) (fun _ => True) hub := by
  cases live with
  | none => exact .ends h (.inl rfl)
  | some live =>
      simp only [acknowledge, wp_bind, wp_get]
      refine h.wp_atStation (Station.keeps.acquire _ _) fun ticket station hstation => ?_
      exact .waits (hstation.waits rfl rfl) (.inl rfl)

theorem placed_receive {frame : Frame} (h : Placed sent granted (fun _ => False) calls hub) :
    wp (receive frame) (Leaves sent granted calls hub.link.epoch) (fun _ => True) hub := by
  simp only [receive, wp_bind, wp_get]
  refine h.wp_atStation (Station.keeps.receive frame) fun reception station hstation => ?_
  cases reception with
  | replied serial delivery => exact .waits (hstation.waits rfl rfl) (.inl rfl)
  | _ => exact placed_acknowledge hstation

/-- A submitted request is loose until a handle is got for it. -/
theorem placed_submit {kind : RequestKind} {payload : Payload} {target : TargetId}
    {source : Option WorkSource} (h : Placed sent granted (fun _ => False) calls hub)
    (hroom : hub.ledger.size < Serial.space) (hnext : hub.link.epoch.HasNext) :
    wp (submit kind payload target source) (Leaves sent granted calls hub.link.epoch)
      (fun _ => True) hub := by
  simp only [submit, wp_bind, wp_get, record, Hub.wp_atStation]
  refine Station.wp_record (fun recorder _ => ?_) fun _ => trivial
  refine Station.wp_acquire (fun timeline => ?_) trivial
  rw [Station.wp_enroll]
  refine placed_bind ⟨h.ledger.enroll hroom _, h.link, fun request hmem => ?_⟩ hnext
  rcases List.mem_cons.mp ((h.ledger.perm_requests_enroll _).mem_iff.mp hmem) with rfl | hold
  · exact .inl ⟨rfl, rfl⟩
  · exact .inr ((h.pending request hold).resolve_left id)

theorem placed_runTask {task : Task} (h : Placed sent granted (fun _ => False) calls hub)
    (hnext : hub.link.epoch.HasNext) :
    wp (runTask task) (Leaves sent granted calls hub.link.epoch) (fun _ => True) hub := by
  cases task with
  | expiry guard sequence =>
      simp only [runTask, wp_bind]
      refine h.wp_atStation (Station.keeps.expire _ _) fun _ station hstation => ?_
      exact .ends hstation (.inl rfl)
  | deadline serial kind sentIn =>
      simp only [runTask, wp_bind, wp_get]
      refine h.wp_atStation (Station.keeps.overdue _ _ _) fun found station hstation => ?_
      cases found with
      | none => exact .ends hstation (.inl rfl)
      | some delivery => exact .waits (hstation.waits rfl rfl) (.inl rfl)
  | reconnect =>
      have hdisarmed : Placed sent granted BindUse.retry.Wants calls
          { hub with link := hub.link.disarmRetry } :=
        ⟨h.ledger, h.link.retry false, h.pending⟩
      simp only [runTask, wp_bind, wp_get, wp_set]
      split
      · exact .ends hdisarmed (.inl rfl)
      · exact placed_bind hdisarmed hnext

/-- A call is answered; the requests that it served are sent, or loose. -/
theorem Placed.answered {call : Outgoing}
    (h : Placed sent granted (fun _ => False) (call :: calls) hub)
    (hserves : ∀ request ∈ hub.ledger.requests, call.Serves hub.link.epoch request.identity →
      loose request.identity ∨ ∃ live, hub.link.current = some live ∧ sent live request.identity) :
    Placed sent granted loose calls hub := by
  refine ⟨h.ledger, h.link.tail, fun request hmem => ?_⟩
  rcases h.pending request hmem with hreq | hreq | ⟨other, hother, hreq⟩
  · exact hreq.elim
  · exact .inr (.inl hreq)
  · rcases List.mem_cons.mp hother with rfl | hother
    · rcases hserves request hmem hreq with hloose | hsent
      · exact .inl hloose
      · exact .inr (.inl hsent)
    · exact .inr (.inr ⟨other, hother, hreq⟩)

/-- Every answer: that of a bind grants a link, that of a command says that it was sent. -/
theorem placed_answered {call : Outgoing} {answer : call.Answer}
    (h : Placed sent granted (fun _ => False) (call :: calls) hub)
    (hnext : hub.link.epoch.HasNext)
    (hgranted : ∀ cookie use handle,
      Move.answer call answer = .answer (.bind cookie use) (Except.ok handle) →
      granted ⟨handle, cookie⟩)
    (hsent : ∀ live serial kind payload,
      Move.answer call answer = .answer (.send live serial kind payload) (Except.ok ()) →
      ∀ request ∈ hub.ledger.requests, request.serial = serial → request.kind = kind →
      sent live request.identity) :
    wp (answered call answer) (Leaves sent granted calls hub.link.epoch) (fun _ => True) hub := by
  cases call with
  | bind cookie use =>
      refine placed_bindAnswered h fun handle heq => hgranted cookie use handle ?_
      subst heq
      rfl
  | send live serial kind payload =>
      cases answer with
      | ok done =>
          refine .ends (h.answered fun request hmem hserves => .inr ?_) (.inl rfl)
          obtain ⟨hepoch, hserial, hkind⟩ := hserves
          exact ⟨live, h.link.sending _ (List.mem_cons_self ..) live rfl hepoch,
            hsent live serial kind payload rfl request hmem hserial hkind⟩
      | error fault => exact placed_die (h.answered fun _ _ hserves => .inl hserves.1) hnext
  | deliver delivery use =>
      have hrest : Placed sent granted (fun _ => False) calls hub :=
        h.answered fun _ _ hserves => hserves.elim
      cases use with
      | reply live => exact placed_acknowledge hrest
      | refusal serial => exact .ends hrest (.inl rfl)
      | drain rest use => exact placed_drainNext hrest (.inl rfl)
      | deadline => exact .ends hrest (.inl rfl)
  | sendAck live =>
      have hrest : Placed sent granted (fun _ => False) calls hub :=
        h.answered fun _ _ hserves => hserves.elim
      cases answer with
      | ok done =>
          simp only [answered, wp_bind]
          refine hrest.wp_atStation (Station.keeps.record _) fun _ station hstation => ?_
          exact .ends hstation (.inl rfl)
      | error fault => exact placed_die (hrest.mono_loose fun _ => False.elim) hnext

end Hub

end ModemLink
