import ModemLink.Proofs.Keeping
import ModemLink.Proofs.Settlements
import ModemLink.Proofs.Turns

/-!
# Replies in any order

Replies come in one after another, for different pending requests, at one reading of the clock;
none asks for a local acknowledgment, and the targets take their results without calling back.
Each reply takes its request out of the ledger and settles it.  What the others settle is not its
affair, so any order of the replies hands every target the same result and leaves the engine in the
same state, up to the places that the remaining requests have in the ledger.

* `Engine.takeAll` -- replies come in and their results are taken;
* `Engine.take_of_mem` -- a reply to a pending request settles it;
* `Engine.takeAll_spec` -- what a list of replies does, read off the account;
* `Run.replies_commute` -- the order of the replies does not matter.
-/

namespace ModemLink

open scoped List

/-- A reply that asks for no local acknowledgment. -/
structure Reply where
  serial : Serial
  code : Int
  payload : Payload

namespace Reply

/-- The frame that the reply comes in. -/
def frame (reply : Reply) : Frame := .reply reply.serial reply.code reply.payload false

/-- What the reply says. -/
def result (reply : Reply) : RequestResult := .ofReply reply.code reply.payload

/-- What is settled about a request by the reply. -/
def settlement (reply : Reply) (now : Duration) (request : PendingRequest) : Settlement :=
  ⟨request.ticket, request.kind, .ofResult reply.result, request.age now⟩

end Reply

namespace Engine

/-- A delivery under way is taken, by a target that calls nobody. -/
def handOver (e : Engine) : List Delivery × Engine :=
  match e.control, e.stack with
  | .outside none, ⟨advance, .deliver delivery use⟩ :: _ =>
    ([delivery], e.resume ⟨advance, .deliver delivery use⟩ ())
  | _, _ => ([], e)

/-- A reply comes in and its result is taken: what was delivered, and the engine after that, unless
an overflow cuts the call off. -/
def take (e : Engine) (reply : Reply) : Except Overflow (List Delivery × Engine) :=
  let (deliveries, after) := (e.call (.receive reply.frame)).handOver
  match after.control with
  | .outside (some (.cut overflow)) => .error overflow
  | _ => .ok (deliveries, after)

/-- Replies come in one after another. -/
def takeAll (e : Engine) : List Reply → Except Overflow (List Delivery × Engine)
  | [] => .ok ([], e)
  | reply :: rest => do
    let (first, after) ← e.take reply
    let (others, last) ← after.takeAll rest
    return (first ++ others, last)

/-- The books that settlements change. -/
abbrev account (e : Engine) : Station.Account := e.hub.station.account

/-- The pending requests. -/
abbrev requests (e : Engine) : List PendingRequest := e.hub.station.ledger.requests

/-- A reply has settled a request: it is out of the ledger, its result is delivered, its unit is
given back and its outcome is entered; nothing else has changed. -/
structure Settled (e : Engine) (reply : Reply) (request : PendingRequest) (after : Engine) :
    Prop where
  wellFormed : after.hub.ledger.WellFormed
  requests : e.requests ~ request :: after.requests
  counter : after.hub.ledger.counter = e.hub.ledger.counter
  account : Station.settled e.reading (reply.settlement e.reading request) e.account =
      some after.account
  reading : after.reading = e.reading
  frame : ∃ ledger governor recorder,
    after = { e with
      hub := { e.hub with station := { e.hub.station with ledger, governor, recorder } }
      control := .outside (some .handled) }

variable {e after : Engine} {reply : Reply} {request : PendingRequest}

/-- What a reply to a pending request comes to is what settling the request comes to. -/
theorem take_eq {ledger : Ledger}
    (hcomplete : e.hub.station.ledger.complete reply.serial = (some request, ledger)) :
    e.take reply =
      match Station.settle request reply.result (.ofResult reply.result)
        { e.hub.station with ledger } with
      | .ok delivery station =>
        .ok ([delivery],
          { e with hub := { e.hub with station }, control := .outside (some .handled) })
      | .error overflow _ => .error overflow := by
  cases hsettle : Station.settle request reply.result (.ofResult reply.result)
      { e.hub.station with ledger } with
  | error overflow station =>
      simp only [Reply.result] at hsettle
      have hreceive : Hub.receive reply.frame e.hub =
          .error overflow { e.hub with station } := by
        simp only [Hub.receive, Clocked.get_bind]
        simp [Hub.atStation, Clocked.within, Station.receive, Station.receiveReply, Reply.frame,
          Station.complete, hcomplete, bind, EStateM.bind, hsettle]
      simp [take, Engine.call, follow, hreceive, handOver]
  | ok delivery station =>
      simp only [Reply.result] at hsettle
      have hreceive : Hub.receive reply.frame e.hub =
          .ok (.waits (.deliver delivery (.reply none))) { e.hub with station } := by
        simp only [Hub.receive, Clocked.get_bind]
        simp [Hub.atStation, Clocked.within, Station.receive, Station.receiveReply, Reply.frame,
          Frame.requiresAck, Station.complete, hcomplete, bind, EStateM.bind, hsettle]
      simp [take, Engine.call, follow, hreceive, handOver, resume, Hub.answered, Hub.acknowledge]

/-- A reply to a pending request settles it and delivers its result, exactly if its settlement
succeeds on the account. -/
theorem take_of_mem (hwf : e.hub.ledger.WellFormed) (hmem : request ∈ e.requests)
    (hserial : request.serial = reply.serial) :
    (∀ {deliveries after}, e.take reply = .ok (deliveries, after) →
      deliveries = [⟨request.target, reply.result⟩] ∧ e.Settled reply request after) ∧
    ∀ {account}, Station.settled e.reading (reply.settlement e.reading request) e.account =
        some account →
      ∃ after, e.take reply = .ok ([⟨request.target, reply.result⟩], after) := by
  obtain ⟨ledger, hcomplete, hcompleted⟩ := hwf.complete_of_mem hmem
  rw [hserial] at hcomplete
  rw [take_eq hcomplete]
  -- The account does not look into the ledger.
  cases hsettle : Station.settle request reply.result (.ofResult reply.result)
      { e.hub.station with ledger } with
  | error overflow station =>
      have hnone := Station.settle_eq_error hsettle
      change Station.settled e.reading (reply.settlement e.reading request) e.account =
          none at hnone
      refine ⟨fun h => (by cases h), fun {account} h => ?_⟩
      rw [hnone] at h
      cases h
  | ok delivery station =>
      obtain ⟨rfl, ⟨governor, recorder, rfl⟩, haccount⟩ := Station.settle_eq_ok hsettle
      refine ⟨fun h => ?_, fun {account} _ => ⟨_, rfl⟩⟩
      cases h
      have hcounter : ledger.counter = e.hub.ledger.counter := by
        have hkept := Ledger.counter_complete e.hub.ledger reply.serial
        rwa [hcomplete] at hkept
      exact ⟨rfl, hcompleted.wellFormed, hcompleted.requests, hcounter, haccount, rfl, ledger,
        governor, recorder, rfl⟩

theorem takeAll_cons_eq_ok_iff {rest : List Reply} {deliveries : List Delivery} :
    e.takeAll (reply :: rest) = .ok (deliveries, after) ↔
      ∃ first middle others, e.take reply = .ok (first, middle) ∧
        middle.takeAll rest = .ok (others, after) ∧ deliveries = first ++ others := by
  constructor
  · intro h
    cases htake : e.take reply with
    | error overflow => simp [takeAll, htake, bind, Except.bind] at h
    | ok one =>
        cases hlast : one.2.takeAll rest with
        | error overflow => simp [takeAll, htake, hlast, bind, Except.bind] at h
        | ok more =>
            simp only [takeAll, htake, hlast, bind, Except.bind, pure, Except.pure] at h
            cases h
            exact ⟨one.1, one.2, more.1, rfl, hlast, rfl⟩
  · rintro ⟨first, middle, others, htake, hlast, rfl⟩
    simp [takeAll, htake, hlast, bind, Except.bind, pure, Except.pure]

/-- What is settled by replies, each about the request that it is for. -/
def settlements (e : Engine) (requestOf : Reply → PendingRequest) (replies : List Reply) :
    List Settlement :=
  replies.map fun reply => reply.settlement e.reading (requestOf reply)

/-- What is settled about other requests is still the same. -/
theorem Settled.settlements (h : e.Settled reply request after)
    (requestOf : Reply → PendingRequest) (replies : List Reply) :
    after.settlements requestOf replies = e.settlements requestOf replies := by
  unfold Engine.settlements
  rw [h.reading]

/-- The other requests are still pending. -/
theorem Settled.pending (h : e.Settled reply request after)
    (hserial : request.serial = reply.serial) {other : PendingRequest} (hmem : other ∈ e.requests)
    (hne : other.serial ≠ reply.serial) :
    other ∈ after.requests := by
  rcases List.mem_cons.mp (h.requests.mem_iff.mp hmem) with rfl | hleft
  · exact absurd hserial hne
  · exact hleft

/-- Replies have settled their requests. -/
structure SettledAll (e : Engine) (requestOf : Reply → PendingRequest) (replies : List Reply)
    (deliveries : List Delivery) (after : Engine) : Prop where
  deliveries : deliveries = replies.map fun reply => ⟨(requestOf reply).target, reply.result⟩
  requests : e.requests ~ replies.map requestOf ++ after.requests
  counter : after.hub.ledger.counter = e.hub.ledger.counter
  account : (e.settlements requestOf replies).foldlM
    (fun account item => Station.settled e.reading item account) e.account = some after.account
  frame : ∃ ledger governor recorder control,
    after = { e with
      hub := { e.hub with station := { e.hub.station with ledger, governor, recorder } }
      control }

/-- Replies to different pending requests settle them all, exactly if their settlements succeed on
the account. -/
theorem takeAll_spec {requestOf : Reply → PendingRequest} {replies : List Reply}
    (hwf : e.hub.ledger.WellFormed) (hdistinct : (replies.map (·.serial)).Nodup)
    (hpending : ∀ reply ∈ replies,
      requestOf reply ∈ e.requests ∧ (requestOf reply).serial = reply.serial) :
    (∀ {deliveries after}, e.takeAll replies = .ok (deliveries, after) →
      e.SettledAll requestOf replies deliveries after) ∧
    ∀ {account}, (e.settlements requestOf replies).foldlM
        (fun account item => Station.settled e.reading item account) e.account = some account →
      ∃ deliveries after, e.takeAll replies = .ok (deliveries, after) := by
  induction replies generalizing e with
  | nil =>
      refine ⟨fun h => ?_, fun _ => ⟨[], e, rfl⟩⟩
      cases h
      exact ⟨rfl, .refl _, rfl, rfl, e.hub.station.ledger, e.hub.station.governor,
        e.hub.station.recorder, e.control, rfl⟩
  | cons reply rest ih =>
      obtain ⟨hmem, hserial⟩ := hpending reply (List.mem_cons_self ..)
      obtain ⟨hfirst, hsuccess⟩ := take_of_mem hwf hmem hserial
      obtain ⟨hnot, hrest⟩ := List.nodup_cons.mp hdistinct
      have hothers : ∀ {middle : Engine}, e.Settled reply (requestOf reply) middle →
          ∀ other ∈ rest, requestOf other ∈ middle.requests ∧
            (requestOf other).serial = other.serial := by
        intro middle hsettled other hother
        obtain ⟨hin, hsame⟩ := hpending other (List.mem_cons_of_mem _ hother)
        refine ⟨hsettled.pending hserial hin fun heq => ?_, hsame⟩
        exact hnot (List.mem_map.mpr ⟨other, hother, hsame.symm.trans heq⟩)
      constructor
      · intro deliveries after h
        obtain ⟨first, middle, others, htake, hothers', rfl⟩ := takeAll_cons_eq_ok_iff.mp h
        obtain ⟨rfl, hsettled⟩ := hfirst htake
        have hlast := (ih hsettled.wellFormed hrest (hothers hsettled)).1 hothers'
        obtain ⟨ledger, governor, recorder, rfl⟩ := hsettled.frame
        refine ⟨?_, ?_, hlast.counter.trans hsettled.counter, ?_, hlast.frame⟩
        · rw [hlast.deliveries]
          rfl
        · exact hsettled.requests.trans (hlast.requests.cons _)
        · have hrestAccount := hlast.account
          rw [hsettled.settlements] at hrestAccount
          change List.foldlM _ _ (_ :: e.settlements requestOf rest) = _
          rw [List.foldlM_cons, hsettled.account]
          exact hrestAccount
      · intro account h
        change List.foldlM _ _ (_ :: e.settlements requestOf rest) = _ at h
        rw [List.foldlM_cons] at h
        obtain ⟨first, hone, hmany⟩ := Option.bind_eq_some_iff.mp h
        obtain ⟨middle, htake⟩ := hsuccess hone
        obtain ⟨-, hsettled⟩ := hfirst htake
        have hsame := hsettled.account
        rw [hone] at hsame
        cases hsame
        rw [← hsettled.settlements, ← hsettled.reading] at hmany
        obtain ⟨others, after, hlast⟩ := (ih hsettled.wellFormed hrest (hothers hsettled)).2 hmany
        exact ⟨_, after, takeAll_cons_eq_ok_iff.mpr ⟨_, middle, others, htake, hlast, rfl⟩⟩

/-- Each reply was handed to the target of its own request, and nothing else was. -/
def HandsOut (e : Engine) (replies : List Reply) (deliveries : List Delivery) : Prop :=
  List.Forall₂ (fun reply delivery => ∃ request ∈ e.requests, request.serial = reply.serial ∧
    delivery = ⟨request.target, reply.result⟩) replies deliveries

/-- Two engines are the same up to the places that pending requests have in the ledger, the order in
which the power manager was called, and the second store of measurements. -/
structure Alike (a b : Engine) : Prop where
  requests : a.requests ~ b.requests
  counter : a.hub.station.ledger.counter = b.hub.station.ledger.counter
  requestGuard : a.hub.station.governor.request = b.hub.station.governor.request
  ackGuard : a.hub.station.governor.ack = b.hub.station.governor.ack
  counters : a.hub.station.counters = b.hub.station.counters
  latencies : a.hub.station.recorder.books.latency.toList =
    b.hub.station.recorder.books.latency.toList
  timeline : a.hub.station.timeline = b.hub.station.timeline
  subscribers : a.hub.station.subscribers = b.hub.station.subscribers
  link : a.hub.link = b.hub.link
  stack : a.stack = b.stack

theorem SettledAll.handsOut {requestOf : Reply → PendingRequest} {replies : List Reply}
    {deliveries : List Delivery} (h : e.SettledAll requestOf replies deliveries after)
    (hpending : ∀ reply ∈ replies,
      requestOf reply ∈ e.requests ∧ (requestOf reply).serial = reply.serial) :
    e.HandsOut replies deliveries := by
  rw [h.deliveries, HandsOut, List.forall₂_map_right_iff, List.forall₂_same]
  intro reply hreply
  obtain ⟨hmem, hserial⟩ := hpending reply hreply
  exact ⟨requestOf reply, hmem, hserial, rfl⟩

/-- What is still pending is what no reply was for. -/
theorem SettledAll.mem_requests_iff {requestOf : Reply → PendingRequest} {replies : List Reply}
    {deliveries : List Delivery} (h : e.SettledAll requestOf replies deliveries after)
    (hwf : e.hub.ledger.WellFormed)
    (hpending : ∀ reply ∈ replies,
      requestOf reply ∈ e.requests ∧ (requestOf reply).serial = reply.serial)
    (other : PendingRequest) :
    other ∈ after.requests ↔
      other ∈ e.requests ∧ ∀ reply ∈ replies, other.serial ≠ reply.serial := by
  have hnodup := (h.requests.map (·.serial)).nodup_iff.mp hwf.nodup_serials
  rw [List.map_append, List.nodup_append] at hnodup
  have hmem := h.requests.mem_iff (a := other)
  rw [List.mem_append] at hmem
  constructor
  · intro hother
    refine ⟨hmem.mpr (.inr hother), fun reply hreply heq => ?_⟩
    have hreplied : (requestOf reply).serial ∈ (replies.map requestOf).map (·.serial) :=
      List.mem_map_of_mem (List.mem_map_of_mem hreply)
    exact hnodup.2.2 _ hreplied _ (List.mem_map_of_mem hother)
      ((hpending reply hreply).2.trans heq.symm)
  · rintro ⟨hother, hne⟩
    rcases hmem.mp hother with hreplied | hleft
    · obtain ⟨reply, hreply, rfl⟩ := List.mem_map.mp hreplied
      exact absurd (hpending reply hreply).2 (hne reply hreply)
    · exact hleft

theorem SettledAll.alike {requestOf : Reply → PendingRequest} {replies replies' : List Reply}
    {deliveries deliveries' : List Delivery} {other : Engine}
    (h : e.SettledAll requestOf replies deliveries after)
    (h' : e.SettledAll requestOf replies' deliveries' other) (hperm : replies ~ replies') :
    after.Alike other := by
  have hitems : e.settlements requestOf replies ~ e.settlements requestOf replies' :=
    hperm.map _
  have haccount : after.account = other.account := by
    have hsame := (Station.commutes_settled e.reading).foldlM_perm hitems e.account
    rw [h.account, h'.account] at hsame
    exact Option.some.inj hsame
  have hrequests : after.requests ~ other.requests := by
    refine (List.perm_append_left_iff (replies'.map requestOf)).mp ?_
    exact (((hperm.map requestOf).append_right _).symm.trans h.requests.symm).trans h'.requests
  have hcounter := h.counter.trans h'.counter.symm
  obtain ⟨_, _, _, _, rfl⟩ := h.frame
  obtain ⟨_, _, _, _, rfl⟩ := h'.frame
  have hguards := congrArg Prod.fst haccount
  have hfigures := congrArg Figures.counters (congrArg (·.2.1) haccount)
  have hlatency := congrArg Figures.latency (congrArg (·.2.1) haccount)
  refine ⟨hrequests, hcounter, congrArg Prod.fst hguards, congrArg Prod.snd hguards, hfigures, ?_,
    rfl, rfl, rfl, rfl⟩
  unfold LatencyTable.toList
  congr 1
  funext kind
  exact congrArg (Option.map _) (congrFun hlatency kind)

end Engine

namespace Engine

/-- Replies without a payload to all pending requests, in the order of their places. -/
def repliesToAll (e : Engine) : List Reply :=
  e.requests.map fun request => ⟨request.serial, 0, .empty⟩

/-- What they settle. -/
def settlementsOfAll (e : Engine) : List Settlement :=
  e.requests.map fun request => ⟨request.ticket, request.kind, .success, request.age e.reading⟩

theorem nodup_repliesToAll {e : Engine} (hwf : e.hub.ledger.WellFormed) :
    (e.repliesToAll.map (·.serial)).Nodup := by
  rw [repliesToAll, List.map_map]
  exact hwf.nodup_serials

theorem pending_repliesToAll (e : Engine) :
    ∀ reply ∈ e.repliesToAll, ∃ request ∈ e.requests, request.serial = reply.serial := by
  intro reply hreply
  obtain ⟨request, hmem, rfl⟩ := List.mem_map.mp hreply
  exact ⟨request, hmem, rfl⟩

/-- They are taken exactly if the settlements succeed on the account. -/
theorem isOk_takeAll_repliesToAll {e : Engine} (hwf : e.hub.ledger.WellFormed) :
    (e.takeAll e.repliesToAll).isOk =
      (e.settlementsOfAll.foldlM (fun account item => Station.settled e.reading item account)
        e.account).isSome := by
  have hinhabited : Nonempty PendingRequest :=
    ⟨⟨⟨0⟩, .getImei, ⟨0⟩, .phone, none, .sent, .zero⟩⟩
  have hall := e.pending_repliesToAll
  choose! requestOf hpending using hall
  have hitems : e.settlements requestOf e.repliesToAll = e.settlementsOfAll := by
    unfold settlements repliesToAll settlementsOfAll
    rw [List.map_map]
    refine List.map_congr_left fun request hmem => ?_
    obtain ⟨hfound, hserial⟩ := hpending ⟨request.serial, 0, .empty⟩ (List.mem_map_of_mem hmem)
    have hsame := hwf.serial_inj hfound hmem hserial
    simp only [Function.comp_apply, hsame]
    rfl
  have hspec := takeAll_spec hwf (nodup_repliesToAll hwf) hpending
  rw [hitems] at hspec
  cases htaken : e.takeAll e.repliesToAll with
  | ok taken =>
      have haccount := (hspec.1 htaken).account
      rw [hitems] at haccount
      rw [haccount]
      rfl
  | error overflow =>
      cases hfold : e.settlementsOfAll.foldlM
          (fun account item => Station.settled e.reading item account) e.account with
      | none => rfl
      | some account =>
          obtain ⟨deliveries, after, hok⟩ := hspec.2 hfold
          rw [htaken] at hok
          cases hok

/-- There is a run after which three requests of one kind wait for their replies, and a longer one
after which they have waited for a third of the range of durations. -/
theorem exists_run_waiting :
    ∃ history later e last, Run plain history e ∧ Run plain (later ++ history) last ∧
      History.Uncut (later ++ history) ∧ e.requests.length = 3 ∧ last.requests.length = 3 ∧
      (e.settlementsOfAll.foldlM (fun account item => Station.settled e.reading item account)
        e.account).isSome = true ∧
      (last.settlementsOfAll.foldlM (fun account item => Station.settled last.reading item account)
        last.account).isSome = false := by
  have started : Run plain [] plain := .start
  have waiting := started.call (.submit .getImei .empty ⟨0⟩ none) none rfl (by decide)
    (by simp [History.submitted])
  have bound := waiting.answer none (.bind ⟨1⟩ (.submission ⟨100⟩ .getImei .empty))
    (Except.ok (⟨0⟩ : Handle)) none rfl rfl
  have first := bound.answer none (.send ⟨⟨0⟩, ⟨1⟩⟩ ⟨100⟩ .getImei .empty) (Except.ok ()) none rfl
    rfl
  have sending := first.call (.submit .getImei .empty ⟨1⟩ none) (some (.submitted ⟨100⟩)) rfl
    (by decide +kernel) (by decide +kernel)
  have second := sending.answer none (.send ⟨⟨0⟩, ⟨1⟩⟩ _ .getImei .empty) (Except.ok ()) none
    rfl rfl
  have sending := second.call (.submit .getImei .empty ⟨2⟩ none) _ rfl
    (by decide +kernel) (by decide +kernel)
  have third := sending.answer none (.send ⟨⟨0⟩, ⟨1⟩⟩ _ .getImei .empty) (Except.ok ()) none
    rfl rfl
  have advancing := third.call (.advance (.ofSeconds 6148914691236517206 (by decide))) _ rfl
    trivial (by simp [Move.submitted])
  have stale := advancing.fire ⟨.ofSeconds 6148914691236517206 (by decide), 0⟩ rfl
  have stale := stale.fire ⟨.ofSeconds 6148914691236517206 (by decide), 1⟩ rfl
  have cleared := stale.fire ⟨.ofSeconds 6148914691236517206 (by decide), 2⟩ rfl
  have advanced := cleared.fire ⟨.ofSeconds 6148914691236517206 (by decide), 3⟩ rfl
  exact ⟨_, [_, _, _, _, _], _, _, third, advanced, by decide +kernel, by decide +kernel,
    by decide +kernel, by decide +kernel, by decide +kernel⟩

end Engine

/-- **Replies commute.**  Replies for different pending requests come in at one reading of the
clock, and no sum of durations overflows.  Then none overflows in any other order of the same
replies; in every order each of them is handed to the target of its own request and to nobody else;
and whatever the order, the same requests are left, and the engine is the same up to the places
they have. -/
theorem Run.replies_commute {c : Config} {seed : Option Int} {entropy : Entropy}
    {outside : OutsideStore} {history : History} {e after : Engine} {replies replies' : List Reply}
    {deliveries : List Delivery} (run : Run (Engine.start c seed entropy outside) history e)
    (distinct : (replies.map (·.serial)).Nodup)
    (pending : ∀ reply ∈ replies, ∃ request ∈ e.requests, request.serial = reply.serial)
    (perm : replies ~ replies') (taken : e.takeAll replies = .ok (deliveries, after)) :
    e.HandsOut replies deliveries ∧
    (∀ request, request ∈ after.requests ↔
      request ∈ e.requests ∧ ∀ reply ∈ replies, request.serial ≠ reply.serial) ∧
    ∃ deliveries' after', e.takeAll replies' = .ok (deliveries', after') ∧
      e.HandsOut replies' deliveries' ∧ after.Alike after' := by
  have hwf := run.wellFormed
  have hinhabited : Nonempty PendingRequest :=
    ⟨⟨⟨0⟩, .getImei, ⟨0⟩, .phone, none, .sent, .zero⟩⟩
  choose! requestOf hpending using pending
  have hpending' : ∀ reply ∈ replies',
      requestOf reply ∈ e.requests ∧ (requestOf reply).serial = reply.serial :=
    fun reply hreply => hpending reply (perm.mem_iff.mpr hreply)
  have hdistinct' : (replies'.map (·.serial)).Nodup :=
    (perm.map (·.serial)).nodup_iff.mp distinct
  have hsettled := (Engine.takeAll_spec hwf distinct hpending).1 taken
  -- the settlements of the other order succeed on the account as well
  have haccount := hsettled.account
  have hitems : e.settlements requestOf replies ~ e.settlements requestOf replies' := perm.map _
  rw [(Station.commutes_settled e.reading).foldlM_perm hitems] at haccount
  obtain ⟨deliveries', after', taken'⟩ :=
    (Engine.takeAll_spec hwf hdistinct' hpending').2 haccount
  have hsettled' := (Engine.takeAll_spec hwf hdistinct' hpending').1 taken'
  exact ⟨hsettled.handsOut hpending, hsettled.mem_requests_iff hwf hpending, deliveries', after',
    taken', hsettled'.handsOut hpending', hsettled.alike hsettled' perm⟩

/-- So three replies may come in the opposite order. -/
theorem replies_commute_of_three :
    ∃ history e after after' deliveries deliveries', Run .plain history e ∧
      e.requests.length = 3 ∧ e.takeAll e.repliesToAll = .ok (deliveries, after) ∧
      e.takeAll e.repliesToAll.reverse = .ok (deliveries', after') ∧
      e.HandsOut e.repliesToAll deliveries ∧
      e.HandsOut e.repliesToAll.reverse deliveries' ∧ after.Alike after' := by
  obtain ⟨history, -, e, -, run, -, -, hthree, -, hsuccess, -⟩ := Engine.exists_run_waiting
  rw [← Engine.isOk_takeAll_repliesToAll run.wellFormed] at hsuccess
  cases htaken : e.takeAll e.repliesToAll with
  | error overflow =>
      rw [htaken] at hsuccess
      cases hsuccess
  | ok taken =>
      obtain ⟨deliveries, after⟩ := taken
      obtain ⟨hout, -, deliveries', after', htaken', hout', halike⟩ :=
        Run.replies_commute run (Engine.nodup_repliesToAll run.wellFormed) e.pending_repliesToAll
          (List.reverse_perm _).symm htaken
      exact ⟨history, e, after, after', deliveries, deliveries', run, hthree, htaken, htaken', hout,
        hout', halike⟩

/-- Three requests of one kind are submitted at the start of the clock, and after 2^64 / 3 s they
are replied to.  The sum of their latencies leaves its range with the third reply: its call is cut
off, and its target gets nothing. -/
theorem reply_lost_after_overflow :
    ∃ history e, Run .plain history e ∧ history.Uncut ∧ e.requests.length = 3 ∧
      (e.takeAll e.repliesToAll).isOk = false := by
  obtain ⟨history, later, -, e, -, run, uncut, -, hthree, -, hfails⟩ := Engine.exists_run_waiting
  rw [← Engine.isOk_takeAll_repliesToAll run.wellFormed] at hfails
  exact ⟨_, e, run, uncut, hthree, hfails⟩

end ModemLink
