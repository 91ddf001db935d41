import Mathlib.Algebra.Order.Ring.Nat
import Mathlib.Algebra.Order.BigOperators.Group.List
import ModemLink.Proofs.Deadlines
import ModemLink.Proofs.Sending

/-!
# How requests are watched

A deadline names its request by a serial and an epoch only, and by the time it is due the request
may have left, and its serial may have been given to another one.  What rules out that the deadline
takes that one for its own is counted: a serial comes back in the same epoch only after the counter
has gone once round, and an epoch comes back only after all others.

So for each deadline of the present epoch it is kept how far the counter has gone since it was set,
and that whoever has its serial is the request it was set for.  And for each pending request with a
deadline it is kept that the deadline is there, or that a bind waits which will set it.

* `History.SerialsLast` -- the counter does not go once round while a deadline waits;
* `Hub.Armed` -- where a deadline was set, and what has happened since;
* `Hub.Watched` -- what is kept of all deadlines and requests;
* `Watched.deals` -- every transition keeps it.
-/

namespace ModemLink

namespace SerialCounter

/-- How many serials are handed out from one counter to the next, at least one. -/
def distance (first last : SerialCounter) : Nat :=
  (last.upcoming.val + (Serial.space - 1 - first.upcoming.val)) % Serial.space + 1

theorem distance_after (counter : SerialCounter) {steps : Nat} (h : steps < Serial.space) :
    counter.distance (counter.after (steps + 1)) = steps + 1 := by
  have hlt := counter.upcoming.isLt
  simp only [distance, after]
  unfold Serial.space at *
  omega

theorem after_after (counter : SerialCounter) (first second : Nat) :
    (counter.after first).after second = counter.after (first + second) := by
  simp only [after, Nat.mod_add_mod, Nat.add_assoc]

end SerialCounter

theorem PendingRequest.kind_of_identity {a b : PendingRequest} (h : a.identity = b.identity) :
    a.kind = b.kind :=
  congrArg (·.2.1) h

/-- How many serials the counter hands out at a moment.  That is none unless a request is submitted;
then those that are passed over count, too. -/
def Moment.strides (m : Moment) : Nat :=
  match m.move with
  | .call (.submit _ _ _ _) => m.before.hub.ledger.counter.distance m.after.hub.ledger.counter
  | _ => 0

theorem Moment.strides_of_not_submitted {m : Moment} (h : m.move.submitted = []) :
    m.strides = 0 := by
  unfold strides
  split
  · rename_i hmove
    rw [hmove] at h
    cases h
  · rfl

namespace History

/-- How many serials the counter hands out. -/
def strides (history : History) : Nat := (history.map Moment.strides).sum

theorem strides_cons (m : Moment) (history : History) :
    strides (m :: history) = m.strides + history.strides := by
  simp [strides]

/-- While a deadline of the present epoch waits, the counter of serials does not go once round. -/
def SerialsLast (history : History) : Prop :=
  ∀ stretch : History, stretch <:+: history → ∀ (timer : Timer Task) serial kind epoch,
    timer.task = .deadline serial kind epoch →
    (∀ m ∈ stretch, timer ∈ m.before.hub.timers ∧ m.before.hub.link.epoch = epoch) →
    stretch.strides < Serial.space

theorem SerialsLast.tail {m : Moment} {history : History} (h : SerialsLast (m :: history)) :
    history.SerialsLast :=
  fun stretch hpart => h stretch (hpart.trans (List.suffix_cons m history).isInfix)

/-- If the counter hands out fewer serials than there are, it does not go once round. -/
theorem serialsLast_of_strides_lt {history : History}
    (h : history.strides < Serial.space) : history.SerialsLast := by
  intro stretch hpart timer serial kind epoch _ _
  have hle : stretch.strides ≤ history.strides :=
    (hpart.sublist.map Moment.strides).sum_le_sum fun _ _ => Nat.zero_le _
  exact Nat.lt_of_le_of_lt hle h

/-- A pending request was submitted when it says. -/
def Submitted (history : History) (request : PendingRequest) : Prop :=
  ∃ m ∈ history, ∃ payload source,
    m.move = .call (.submit request.kind payload request.target source) ∧
    m.before.now = request.submittedAt

theorem Submitted.cons {history : History} {old request : PendingRequest}
    (h : history.Submitted old) (hsame : old.identity = request.identity)
    (htime : old.submittedAt = request.submittedAt) (m : Moment) :
    Submitted (m :: history) request := by
  obtain ⟨n, hn, payload, source, hmove, hnow⟩ := h
  rw [PendingRequest.kind_of_identity hsame, PendingRequest.target_of_identity hsame] at hmove
  exact ⟨n, List.mem_cons_of_mem _ hn, payload, source, hmove, hnow.trans htime⟩

end History

/-- The deadline of a request is set at a moment: its command is put on the link of an epoch, and a
timer that was not there before is due after the timeout. -/
structure Moment.Arms (m : Moment) (c : Config) (timer : Timer Task) (serial : Serial)
    (kind : RequestKind) (epoch : Epoch) : Prop where
  made : ∃ handle payload, m.made = some (.send ⟨handle, epoch⟩ serial kind payload)
  listed : kind ∈ c.blockingKinds
  new : timer ∉ m.before.hub.timers
  set : timer ∈ m.after.hub.timers
  due : timer.deadline.nanos = m.after.now.nanos + c.blockingResponseTimeout.nanos

/-- A transition of a moment starts from a hub: from the one before the moment, except that a timer
may have been taken off. -/
structure Moment.StartsFrom (m : Moment) (hub : Hub) : Prop where
  ledger : m.before.hub.ledger = hub.ledger
  epoch : m.before.hub.link.epoch = hub.link.epoch
  now : m.move ≠ .fire → m.before.now = hub.station.now
  timers : ∀ timer ∈ hub.timers, timer ∈ m.before.hub.timers
  numbered : ∀ timer ∈ m.before.hub.timers, timer.order < hub.station.timeline.nextOrder

/-- The bind that a move answers. -/
def Move.pops : Move → List Outgoing
  | .answer outgoing _ => [outgoing]
  | _ => []

theorem Move.sought_of_pops {move : Move} {call : Outgoing} {identity : Identity}
    (hmem : call ∈ move.pops) (hseeks : call.Seeks identity) : move.Sought identity := by
  unfold pops at hmem
  split at hmem
  · obtain rfl := List.mem_singleton.mp hmem
    exact hseeks
  · cases hmem

theorem Move.not_sought {move : Move} (h : move.pops = []) (identity : Identity) :
    ¬ move.Sought identity := by
  intro hsought
  unfold Sought at hsought
  split at hsought
  · cases h
  · exact hsought

namespace Hub

variable {c : Config} {history : History} {hub after : Hub} {timer : Timer Task} {serial : Serial}
  {kind : RequestKind} {epoch : Epoch} {m : Moment}

/-! ## One deadline -/

/-- What is known of a deadline that was set at a moment in the epoch that is still the present one:
it has waited since, the counter of serials has gone so far since, and whoever has its serial is the
request that it was set for. -/
structure Unspent (c : Config) (since : History) (setting : Moment) (timer : Timer Task)
    (serial : Serial) (kind : RequestKind) (epoch : Epoch) (ledger : Ledger) : Prop where
  waited : ∀ m ∈ since, timer ∈ m.before.hub.timers ∧ m.before.hub.link.epoch = epoch
  counted : ∃ counter : SerialCounter, counter.peek = serial ∧
    ledger.counter = counter.after (since.strides + 1)
  owned : ∀ request ∈ ledger.requests, request.serial = serial → request.kind = kind ∧
    timer.deadline.nanos = request.submittedAt.nanos + c.blockingResponseTimeout.nanos ∧
    ∃ sent ∈ setting.after.hub.ledger.requests, sent.identity = request.identity

/-- A deadline was set at some moment, and its epoch is over or more is known of it. -/
def Armed (c : Config) (history : History) (timer : Timer Task) (serial : Serial)
    (kind : RequestKind) (epoch : Epoch) (hub : Hub) : Prop :=
  ∃ since setting earlier, history = since ++ setting :: earlier ∧
    setting.Arms c timer serial kind epoch ∧
    epoch.number.toNat ≤ hub.link.epoch.number.toNat ∧
    (hub.link.epoch = epoch → Unspent c since setting timer serial kind epoch hub.ledger)

namespace Armed

/-- When a new epoch starts that of the deadline is over. -/
theorem renew (h : hub.Armed c history timer serial kind epoch) (hnext : hub.link.epoch.HasNext)
    (hepoch : after.link.epoch = hub.link.epoch.next) (m : Moment) :
    after.Armed c (m :: history) timer serial kind epoch := by
  obtain ⟨since, setting, earlier, rfl, harms, hle, -⟩ := h
  have hnumber : after.link.epoch.number.toNat = hub.link.epoch.number.toNat + 1 := by
    rw [hepoch, Epoch.toNat_next hnext]
  refine ⟨m :: since, setting, earlier, rfl, harms, by omega, fun heq => ?_⟩
  rw [heq] at hnumber
  omega

/-- Within an epoch the counter goes on, and nobody else gets the serial. -/
theorem step (h : hub.Armed c history timer serial kind epoch) (hm : m.StartsFrom hub)
    (hwaits : timer ∈ hub.timers) (hepoch : after.link.epoch = hub.link.epoch)
    (hcounter : ∀ counter steps, hub.ledger.counter = SerialCounter.after counter steps →
      after.ledger.counter = counter.after (steps + m.strides))
    (hpending : hub.link.epoch = epoch → ∀ request ∈ after.ledger.requests,
      request.serial = serial → ∃ old ∈ hub.ledger.requests, old.identity = request.identity ∧
        old.submittedAt = request.submittedAt) :
    after.Armed c (m :: history) timer serial kind epoch := by
  obtain ⟨since, setting, earlier, rfl, harms, hle, hunspent⟩ := h
  refine ⟨m :: since, setting, earlier, rfl, harms, by rwa [hepoch], fun heq => ?_⟩
  rw [hepoch] at heq
  obtain ⟨hwaited, ⟨counter, hpeek, hcount⟩, howned⟩ := hunspent heq
  refine ⟨List.forall_mem_cons.mpr ⟨⟨hm.timers timer hwaits, hm.epoch.trans heq⟩, hwaited⟩,
    ⟨counter, hpeek, ?_⟩, fun request hmem hserial => ?_⟩
  · rw [hcounter counter _ hcount, History.strides_cons]
    congr 1
    omega
  · obtain ⟨old, hold, hsame, htime⟩ := hpending heq request hmem hserial
    obtain ⟨hkind, hdue, sent, hsent, hidentity⟩ :=
      howned old hold ((PendingRequest.serial_of_identity hsame).trans hserial)
    rw [PendingRequest.kind_of_identity hsame] at hkind
    rw [htime] at hdue
    exact ⟨hkind, hdue, sent, hsent, hidentity.trans hsame⟩

/-- While the deadline of a serial waits that serial is not given out again: the counter has not
gone round. -/
theorem serial_ne (h : hub.Armed c history timer serial kind epoch)
    (htask : timer.task = .deadline serial kind epoch) (hpresent : hub.link.epoch = epoch)
    (hm : m.StartsFrom hub) (hwaits : timer ∈ hub.timers)
    (hserials : History.SerialsLast (m :: history)) {steps : Nat} (hsteps : m.strides = steps + 1) :
    serial ≠ (hub.ledger.counter.after steps).peek := by
  obtain ⟨since, setting, earlier, rfl, -, -, hunspent⟩ := h
  obtain ⟨hwaited, ⟨counter, rfl, hcount⟩, -⟩ := hunspent hpresent
  have hstretch : History.strides (m :: since) < Serial.space := by
    refine hserials (m :: since) ⟨[], setting :: earlier, by simp⟩ timer _ kind epoch htask ?_
    exact List.forall_mem_cons.mpr
      ⟨⟨hm.timers timer hwaits, hm.epoch.trans hpresent⟩, hwaited⟩
  rw [History.strides_cons, hsteps] at hstretch
  rw [hcount, SerialCounter.after_after]
  intro hsame
  rw [← SerialCounter.after_zero counter, SerialCounter.after_after, Nat.zero_add] at hsame
  have hzero := SerialCounter.peek_after_inj (by decide) (by omega) hsame
  omega

end Armed

/-! ## All of them -/

/-- The deadline of a request waits in the present epoch, and the link is live. -/
def Covers (c : Config) (hub : Hub) (request : PendingRequest) : Prop :=
  hub.link.current.isSome ∧ ∃ timer ∈ hub.timers,
    timer.task = .deadline request.serial request.kind hub.link.epoch ∧
    timer.deadline.nanos = request.submittedAt.nanos + c.blockingResponseTimeout.nanos

/-- What is kept of requests and deadlines: each pending request was submitted when it says; if its
kind has a deadline, that waits, or a bind waits that is wanted for the request; the present bind
knows the latest serial, and its request was submitted just now; and each deadline was set at some
moment. -/
structure Watched (c : Config) (history : History) (calls : List Outgoing) (hub : Hub) :
    Prop where
  settings : hub.station.settings = .ofConfig c
  clock : hub.station.clock = id
  ordered : hub.station.timeline.Ordered
  numbered : hub.station.timeline.Numbered
  submitted : ∀ request ∈ hub.ledger.requests, history.Submitted request
  sought : ∀ serial kind payload,
    .bind hub.link.epoch (.submission serial kind payload) ∈ calls →
    (∃ counter : SerialCounter, counter.peek = serial ∧ hub.ledger.counter = counter.next) ∧
    ∀ request ∈ hub.ledger.requests, request.serial = serial →
      request.kind = kind ∧ request.submittedAt = hub.station.now
  covered : ∀ request ∈ hub.ledger.requests, request.kind ∈ c.blockingKinds →
    (∃ call ∈ calls, call.Seeks request.identity) ∨ hub.Covers c request
  armed : ∀ timer ∈ hub.timers, ∀ serial kind epoch, timer.task = .deadline serial kind epoch →
    hub.Armed c history timer serial kind epoch

/-- Timers that were added and are no deadlines leave the deadlines as they were. -/
theorem mem_timers_of_gains {before after : Station}
    (h : Timeline.Gains (fun timer => ¬ timer.task.IsDeadline) before.timeline after.timeline)
    {timer : Timer Task} (hmem : timer ∈ after.timeline.queue) {serial : Serial}
    {kind : RequestKind} {epoch : Epoch} (htask : timer.task = .deadline serial kind epoch) :
    timer ∈ before.timeline.queue := by
  rcases h.added timer hmem with hold | hother
  · exact hold
  · rw [htask] at hother
    exact absurd trivial hother

namespace Watched

variable {granted : LiveLink → Prop} {rest : List Outgoing} {progress : Progress}

/-- The clock shows the time on the timeline, and goes on to. -/
theorem reading_idle {calls : List Outgoing} {idle : Station} (h : hub.Watched c history calls)
    (hidles : hub.station.Idles idle) : idle.reading = hub.station.now :=
  (Station.reading_eq_now (hidles.clock.trans h.clock)).trans hidles.timeline.now

/-- The requests that are left were there before. -/
theorem submitted_wanes {calls : List Outgoing} (h : hub.Watched c history calls)
    (hwf : hub.ledger.WellFormed) {ledger : Ledger} (hwanes : hub.ledger.Wanes ledger)
    (m : Moment) :
    ∀ request ∈ ledger.requests, History.Submitted (m :: history) request := by
  intro request hmem
  obtain ⟨old, hold, hsame, htime⟩ := hwanes.pending hwf request hmem
  exact (h.submitted old hold).cons hsame htime m

/-- While there is no live link each request with a deadline has a bind that waits for it. -/
theorem exists_seeks {calls : List Outgoing} (h : hub.Watched c history calls)
    (hfree : hub.link.current = none) {request : PendingRequest}
    (hmem : request ∈ hub.ledger.requests) (hkind : request.kind ∈ c.blockingKinds) :
    ∃ call ∈ calls, call.Seeks request.identity := by
  rcases h.covered request hmem hkind with hseeks | ⟨hlive, -⟩
  · exact hseeks
  · rw [hfree] at hlive
    cases hlive

/-- No request is entered or sent. -/
theorem eases (h : hub.Watched c history (m.move.pops ++ rest)) (hm : m.StartsFrom hub)
    (hwf : hub.ledger.WellFormed) (heases : hub.Eases after) (hbinds : progress.binds = false)
    (hsubmitted : m.move.submitted = [])
    (hleft : ∀ request ∈ after.ledger.requests, ¬ m.move.Sought request.identity) :
    after.Watched c (m :: history) (progress.calls ++ rest) := by
  have hpending := heases.station.ledger.pending hwf
  have hgains := heases.station.timeline
  refine ⟨heases.station.settings.trans h.settings, heases.station.clock.trans h.clock,
    hgains.ordered h.ordered, hgains.numbered h.numbered,
        h.submitted_wanes hwf heases.station.ledger m,
    fun serial kind payload hcall => ?_, fun request hmem hkind => ?_,
    fun timer hmem serial kind epoch htask => ?_⟩
  · rw [heases.epoch] at hcall
    have hrest : .bind hub.link.epoch (.submission serial kind payload) ∈ rest := by
      rcases List.mem_append.mp hcall with hmade | hrest
      · cases progress with
        | ends returned => cases hmade
        | waits call =>
            obtain rfl := List.mem_singleton.mp hmade
            cases hbinds
      · exact hrest
    obtain ⟨hcounter, hlatest⟩ := h.sought serial kind payload (List.mem_append_right _ hrest)
    refine ⟨?_, fun request hmem hserial => ?_⟩
    · rw [show after.ledger.counter = _ from heases.station.ledger.counter]
      exact hcounter
    · obtain ⟨old, hold, hsame, htime⟩ := hpending request hmem
      obtain ⟨hkind, hnow⟩ :=
        hlatest old hold ((PendingRequest.serial_of_identity hsame).trans hserial)
      refine ⟨(PendingRequest.kind_of_identity hsame).symm.trans hkind, ?_⟩
      exact htime.symm.trans (hnow.trans hgains.now.symm)
  · obtain ⟨old, hold, hsame, htime⟩ := hpending request hmem
    rw [← PendingRequest.kind_of_identity hsame] at hkind
    rcases h.covered old hold hkind with ⟨call, hcall, hseeks⟩ | ⟨hlive, timer, hwaits, htask, hdue⟩
    · rw [hsame] at hseeks
      rcases List.mem_append.mp hcall with hpopped | hrest
      · exact absurd (Move.sought_of_pops hpopped hseeks) (hleft request hmem)
      · exact .inl ⟨call, List.mem_append_right _ hrest, hseeks⟩
    · refine .inr ⟨heases.live hlive, timer, hgains.kept timer hwaits, ?_, ?_⟩
      · rw [heases.epoch, ← PendingRequest.serial_of_identity hsame,
          ← PendingRequest.kind_of_identity hsame]
        exact htask
      · rwa [← htime]
  · have hwaits := mem_timers_of_gains hgains hmem htask
    refine (h.armed timer hwaits serial kind epoch htask).step hm hwaits heases.epoch
      (fun counter steps hcount => ?_) fun _ request hmem _ => hpending request hmem
    rw [show after.ledger.counter = _ from heases.station.ledger.counter, hcount,
      Moment.strides_of_not_submitted hsubmitted]
    rfl

/-- Nothing happens at all. -/
theorem stays {calls : List Outgoing} (h : hub.Watched c history calls) (hm : m.StartsFrom hub)
    (hwf : hub.ledger.WellFormed) (hsubmitted : m.move.submitted = []) (hpops : m.move.pops = []) :
    hub.Watched c (m :: history) calls := by
  have hkept : hub.Watched c (m :: history) ((Progress.ends .handled).calls ++ calls) :=
    eases (by rwa [hpops]) hm hwf (.refl hub) rfl hsubmitted fun _ _ => Move.not_sought hpops _
  exact hkept

/-- A new epoch starts with a bind that is wanted for no request. -/
theorem renews {use : BindUse} (h : hub.Watched c history (m.move.pops ++ rest))
    (hwf : hub.ledger.WellFormed) (hlink : hub.link.Anchored granted (m.move.pops ++ rest))
    (hnext : hub.link.epoch.HasNext) (hplain : ∀ identity, ¬ use.Wants identity)
    (hcalm : ∀ identity, ¬ m.move.Sought identity) (hfree : hub.link.current = none)
    (hwanes : hub.station.Wanes after.station) (hepoch : after.link.epoch = hub.link.epoch.next) :
    after.Watched c (m :: history) (.bind hub.link.epoch.next use :: rest) := by
  refine ⟨hwanes.settings.trans h.settings, hwanes.clock.trans h.clock,
    hwanes.timeline.ordered h.ordered, hwanes.timeline.numbered h.numbered,
        h.submitted_wanes hwf hwanes.ledger m,
    fun serial kind payload hcall => ?_, fun request hmem hkind => ?_,
    fun timer hmem serial kind epoch htask => ?_⟩
  · rw [hepoch] at hcall
    rcases List.mem_cons.mp hcall with hmade | hrest
    · cases hmade
      exact absurd ⟨rfl, rfl⟩ (hplain (serial, kind, ⟨0⟩))
    · exact absurd rfl
        ((hlink.new_epoch hnext).1 _ (List.mem_append_right _ hrest) _ rfl)
  · obtain ⟨old, hold, hsame, -⟩ := hwanes.ledger.pending hwf request hmem
    rw [← PendingRequest.kind_of_identity hsame] at hkind
    obtain ⟨call, hcall, hseeks⟩ := h.exists_seeks hfree hold hkind
    rw [hsame] at hseeks
    rcases List.mem_append.mp hcall with hpopped | hrest
    · exact absurd (Move.sought_of_pops hpopped hseeks) (hcalm _)
    · exact .inl ⟨call, List.mem_cons_of_mem _ hrest, hseeks⟩
  · have hwaits := mem_timers_of_gains hwanes.timeline hmem htask
    exact (h.armed timer hwaits serial kind epoch htask).renew hnext hepoch m

/-- The link dies, and a new epoch starts without requests. -/
theorem dies (h : hub.Watched c history (m.move.pops ++ rest))
    (hlink : hub.link.Anchored granted (m.move.pops ++ rest)) (hnext : hub.link.epoch.HasNext)
    (hdrains : hub.station.Drains after.station) (hbinds : progress.binds = false)
    (hepoch : after.link.epoch = hub.link.epoch.next) :
    after.Watched c (m :: history) (progress.calls ++ rest) := by
  have hnone : ∀ request, request ∉ after.ledger.requests := by
    simp [ledger, hdrains.empty]
  refine ⟨hdrains.settings.trans h.settings, hdrains.clock.trans h.clock,
    hdrains.timeline.ordered h.ordered, hdrains.timeline.numbered h.numbered, fun request hmem =>
        absurd hmem (hnone request),
    fun serial kind payload hcall => ?_, fun request hmem _ => absurd hmem (hnone request),
    fun timer hmem serial kind epoch htask => ?_⟩
  · rw [hepoch] at hcall
    rcases List.mem_append.mp hcall with hmade | hrest
    · cases progress with
      | ends returned => cases hmade
      | waits call =>
          obtain rfl := List.mem_singleton.mp hmade
          cases hbinds
    · exact absurd rfl
        ((hlink.new_epoch hnext).1 _ (List.mem_append_right _ hrest) _ rfl)
  · have hwaits := mem_timers_of_gains hdrains.timeline hmem htask
    exact (h.armed timer hwaits serial kind epoch htask).renew hnext hepoch m

/-- A request that is entered was submitted just now. -/
theorem submitted_enrolls {calls : List Outgoing} (h : hub.Watched c history calls)
    (hm : m.StartsFrom hub) {payload : Payload} {target : TargetId} {source : Option WorkSource}
    {idle entered : Station} (hmove : m.move = .call (.submit kind payload target source))
    (hidles : hub.station.Idles idle) (henrolls : idle.Enrolls kind target serial entered) :
    ∀ request ∈ entered.ledger.requests, History.Submitted (m :: history) request := by
  intro request hmem
  rcases henrolls.pending request hmem with hold | ⟨-, rfl, rfl, htime⟩
  · rw [hidles.ledger] at hold
    exact (h.submitted request hold).cons rfl rfl m
  · refine ⟨m, List.mem_cons_self .., payload, source, hmove, ?_⟩
    rw [htime, hm.now (by rw [hmove]; simp)]
    exact (h.reading_idle hidles).symm

/-- A request is entered, and a new epoch starts with a bind that is wanted for it. -/
theorem seeks {payload : Payload} {target : TargetId} {source : Option WorkSource} {idle : Station}
    (h : hub.Watched c history rest) (hm : m.StartsFrom hub)
    (hlink : hub.link.Anchored granted rest) (hnext : hub.link.epoch.HasNext)
    (hmove : m.move = .call (.submit kind payload target source))
    (hidles : hub.station.Idles idle) (henrolls : idle.Enrolls kind target serial after.station)
    (hfree : hub.link.current = none) (hepoch : after.link.epoch = hub.link.epoch.next) :
    after.Watched c (m :: history)
      (.bind hub.link.epoch.next (.submission serial kind payload) :: rest) := by
  have hgains := hidles.timeline
  rw [← henrolls.timeline] at hgains
  refine ⟨henrolls.settings.trans (hidles.settings.trans h.settings),
    henrolls.clock.trans (hidles.clock.trans h.clock), hgains.ordered h.ordered,
        hgains.numbered h.numbered, h.submitted_enrolls hm hmove hidles henrolls,
    fun serial' kind' payload' hcall => ?_, fun request hmem hkind => ?_,
    fun timer hmem serial' kind' epoch htask => ?_⟩
  · rw [hepoch] at hcall
    rcases List.mem_cons.mp hcall with hmade | hrest
    · cases hmade
      obtain ⟨steps, -, hpeek, hcount⟩ := henrolls.counter
      refine ⟨⟨_, hpeek, ?_⟩, fun request hmem hserial => ?_⟩
      · rw [SerialCounter.next_after]
        exact hcount
      · rcases henrolls.pending request hmem with hold | ⟨-, hkind, -, htime⟩
        · exact absurd hserial (henrolls.fresh request hold)
        · refine ⟨hkind, ?_⟩
          rw [htime, h.reading_idle hidles]
          exact hgains.now.symm
    · exact absurd rfl ((hlink.new_epoch hnext).1 _ hrest _ rfl)
  · rcases henrolls.pending request hmem with hold | ⟨hserial, hsame, -⟩
    · rw [hidles.ledger] at hold
      obtain ⟨call, hcall, hseeks⟩ := h.exists_seeks hfree hold hkind
      exact .inl ⟨call, List.mem_cons_of_mem _ hcall, hseeks⟩
    · exact .inl ⟨_, List.mem_cons_self .., hserial, hsame⟩
  · have hwaits := mem_timers_of_gains hgains hmem htask
    exact (h.armed timer hwaits serial' kind' epoch htask).renew hnext hepoch m

end Watched

/-! ## Deadlines that are set -/

/-- Among the timers that were added there is the deadline of one request, if its kind is listed,
and no other. -/
structure Sets (c : Config) (serial : Serial) (kind : RequestKind) (epoch : Epoch)
    (before after : Station) : Prop where
  settings : after.settings = .ofConfig c
  clock : after.clock = before.clock
  timeline : Timeline.Gains
    (fun timer => timer.task.IsDeadline → kind ∈ c.blockingKinds ∧
      timer.task = .deadline serial kind epoch ∧
      timer.deadline.nanos = before.now.nanos + c.blockingResponseTimeout.nanos ∧
      before.timeline.nextOrder ≤ timer.order) before.timeline after.timeline
  set : kind ∈ c.blockingKinds → ∃ timer ∈ after.timeline.queue,
    timer.task = .deadline serial kind epoch ∧
      timer.deadline.nanos = before.now.nanos + c.blockingResponseTimeout.nanos

/-- The kinds with a deadline are those that the configuration lists: each of them has a neutral
result. -/
theorem hasDeadline_iff {station : Station} (valid : c.validate = .ok c)
    (hsettings : station.settings = .ofConfig c) :
    station.hasDeadline kind = true ↔ kind ∈ c.blockingKinds := by
  obtain ⟨-, -, hneutral⟩ := (Config.validate_eq_ok_iff c c).mp valid
  have hlisted : station.hasDeadline kind = true ↔
      kind ∈ c.blockingKinds ∧ kind.neutralResult?.isSome := by
    simp [Station.hasDeadline, hsettings, StationSettings.ofConfig]
  rw [hlisted]
  exact and_iff_left_of_imp (hneutral kind)

theorem sets_of_arms {before middle after : Station} (valid : c.validate = .ok c)
    (hsettings : before.settings = .ofConfig c) (hsame : middle.settings = before.settings)
    (hclock : middle.clock = before.clock)
    (hgains : Timeline.Gains (fun timer => ¬ timer.task.IsDeadline) before.timeline middle.timeline)
    (harms : middle.Arms serial kind epoch after) : Sets c serial kind epoch before after := by
  have hmiddle := hsame.trans hsettings
  have hnow : middle.now = before.now := hgains.now
  have htimeout : middle.settings.deadline = c.blockingResponseTimeout := by
    rw [hmiddle]
    rfl
  refine ⟨harms.settings.trans hmiddle, harms.clock.trans hclock, ?_, fun hkind => ?_⟩
  · refine IsTrans.trans _ _ _ (hgains.imp fun timer hother hdeadline => absurd hdeadline hother)
      (harms.timeline.imp fun timer ⟨hkind, htask, hdue, horder⟩ _ => ?_)
    refine ⟨(hasDeadline_iff valid hmiddle).mp hkind, htask, ?_, ?_⟩
    · rw [hdue, hnow, htimeout]
    · rw [horder]
      exact hgains.next
  · obtain ⟨timer, hmem, htask, hdue⟩ := harms.set ((hasDeadline_iff valid hmiddle).mpr hkind)
    exact ⟨timer, hmem, htask, by rw [hdue, hnow, htimeout]⟩

namespace Watched

variable {granted : LiveLink → Prop} {calls rest : List Outgoing} {live : LiveLink}
  {payload : Payload}

/-- The deadline that is set at a moment is the only one that is new. -/
theorem armed_sets (hm : m.StartsFrom hub) (hafter : m.after.hub = after)
    (hmade : m.made = some (.send live serial kind payload))
    (hcurrent : after.link.current = some live)
    (hsets : Sets c serial kind live.epoch hub.station after.station)
    (hcounter : ∃ counter : SerialCounter, counter.peek = serial ∧
      after.ledger.counter = counter.next)
    (howned : ∀ request ∈ after.ledger.requests, request.serial = serial →
      request.kind = kind ∧ request.submittedAt = hub.station.now)
    (hold : ∀ timer ∈ hub.timers, ∀ serial kind epoch, timer.task = .deadline serial kind epoch →
      after.Armed c (m :: history) timer serial kind epoch) :
    ∀ timer ∈ after.timers, ∀ serial kind epoch, timer.task = .deadline serial kind epoch →
      after.Armed c (m :: history) timer serial kind epoch := by
  intro timer hmem serial' kind' epoch' htask
  rcases hsets.timeline.added timer hmem with hwaits | hnew
  · exact hold timer hwaits serial' kind' epoch' htask
  · obtain ⟨hlisted, htask', hdue, horder⟩ := hnew (by rw [htask]; trivial)
    rw [htask] at htask'
    cases htask'
    have hnow : m.after.now = hub.station.now := by
      rw [Engine.now, hafter]
      exact hsets.timeline.now
    obtain ⟨counter, hpeek, hcount⟩ := hcounter
    refine ⟨[], m, history, rfl, ⟨⟨live.handle, payload, hmade⟩, hlisted, fun hin => ?_, ?_, ?_⟩,
      ?_, fun _ => ⟨by simp, ⟨counter, hpeek, ?_⟩, fun request hrequest hserial => ?_⟩⟩
    · have := hm.numbered timer hin
      omega
    · rw [hafter]
      exact hmem
    · rw [hdue, hnow]
    · rw [(Link.current_eq_some hcurrent).2.2]
    · rw [hcount]
      change _ = counter.after (0 + 1)
      rw [← SerialCounter.next_after, SerialCounter.after_zero]
    · obtain ⟨hsame, htime⟩ := howned request hrequest hserial
      exact ⟨hsame, by rw [hdue, htime], request, by rw [hafter]; exact hrequest, rfl⟩

/-- A request is entered and sent on the live link. -/
theorem sends {target : TargetId} {source : Option WorkSource} {idle entered : Station}
    (valid : c.validate = .ok c) (h : hub.Watched c history rest) (hm : m.StartsFrom hub)
    (hafter : m.after.hub = after) (hmade : m.made = some (.send live serial kind payload))
    (hmove : m.move = .call (.submit kind payload target source))
    (hserials : History.SerialsLast (m :: history)) (hlink : hub.link.Anchored granted rest)
    (hidles : hub.station.Idles idle) (henrolls : idle.Enrolls kind target serial entered)
    (harms : entered.Arms serial kind live.epoch after.station)
    (hcurrent : hub.link.current = some live) (hsame : after.link = hub.link) :
    after.Watched c (m :: history) (.send live serial kind payload :: rest) := by
  have hgains := hidles.timeline
  rw [← henrolls.timeline] at hgains
  have hsets := sets_of_arms valid h.settings (henrolls.settings.trans hidles.settings)
    (henrolls.clock.trans hidles.clock) hgains harms
  have hledger : after.ledger = entered.ledger := harms.ledger
  have hlive : after.link.current = some live := by rw [hsame, hcurrent]
  have hpending : ∀ request ∈ after.ledger.requests, request ∈ hub.ledger.requests ∨
      (request.serial = serial ∧ request.kind = kind ∧ request.submittedAt = hub.station.now) := by
    intro request hmem
    rw [hledger] at hmem
    rcases henrolls.pending request hmem with hold | ⟨hserial, hkind, -, htime⟩
    · rw [hidles.ledger] at hold
      exact .inl hold
    · exact .inr ⟨hserial, hkind, htime.trans (h.reading_idle hidles)⟩
  obtain ⟨steps, hsteps, hpeek, hcount⟩ := henrolls.counter
  have hfresh := henrolls.fresh
  rw [hidles.ledger] at hpeek hcount hfresh
  have hstrides : m.strides = steps + 1 := by
    unfold Moment.strides
    rw [hmove]
    change m.before.hub.ledger.counter.distance m.after.hub.ledger.counter = _
    rw [hm.ledger, hafter, hledger, hcount]
    exact SerialCounter.distance_after _ hsteps
  refine ⟨hsets.settings, hsets.clock.trans h.clock, hsets.timeline.ordered h.ordered,
    hsets.timeline.numbered h.numbered, ?_,
    fun serial' kind' payload' hcall => ?_, fun request hmem hkind => ?_,
    armed_sets hm hafter hmade hlive hsets ⟨_, hpeek, ?_⟩ (fun request hmem hserial => ?_)
      fun timer hwaits serial' kind' epoch' htask => ?_⟩
  · rw [hledger]
    exact h.submitted_enrolls hm hmove hidles henrolls
  · -- While the link is live no bind of the present epoch waits.
    rw [hsame] at hcall
    rcases List.mem_cons.mp hcall with hmade | hrest
    · cases hmade
    · have hbinding := hlink.binding _ hrest rfl
      rw [(Link.current_eq_some hcurrent).1] at hbinding
      cases hbinding
  · rcases hpending request hmem with hold | ⟨rfl, rfl, htime⟩
    · rcases h.covered request hold hkind with ⟨call, hcall, hseeks⟩ | ⟨hsome, timer, hwaits, hrest⟩
      · exact .inl ⟨call, List.mem_cons_of_mem _ hcall, hseeks⟩
      · refine .inr ⟨by rwa [hsame], timer, hsets.timeline.kept timer hwaits, ?_⟩
        rwa [hsame]
    · obtain ⟨timer, hset, htask, hdue⟩ := hsets.set hkind
      refine .inr ⟨by rw [hlive]; rfl, timer, hset, ?_, ?_⟩
      · rw [htask, (Link.current_eq_some hlive).2.2]
      · rw [hdue, htime]
  · rw [hledger, hcount, SerialCounter.next_after]
  · rcases hpending request hmem with hold | ⟨-, hkind, htime⟩
    · exact absurd hserial (hfresh request hold)
    · exact ⟨hkind, htime⟩
  · have harmed := h.armed timer hwaits serial' kind' epoch' htask
    refine harmed.step hm hwaits (by rw [hsame]) (fun counter taken htaken => ?_)
      fun hpresent request hmem hserial => ?_
    · rw [hledger, hcount, htaken, SerialCounter.after_after, hstrides]
    · rcases hpending request hmem with hold | ⟨hnew, -⟩
      · exact ⟨request, hold, rfl, rfl⟩
      · have hne := harmed.serial_ne htask hpresent hm hwaits hserials hstrides
        exact absurd (hserial.symm.trans (hnew.trans hpeek.symm)) hne

/-- The present bind ends well, and the request that it was wanted for is sent. -/
theorem grants {idle : Station} (valid : c.validate = .ok c)
    (h : hub.Watched c history (.bind hub.link.epoch (.submission serial kind payload) :: rest))
    (hm : m.StartsFrom hub) (hafter : m.after.hub = after)
    (hmade : m.made = some (.send live serial kind payload)) (hstrides : m.strides = 0)
    (hwf : hub.ledger.WellFormed)
    (hlink : hub.link.Anchored granted
      (.bind hub.link.epoch (.submission serial kind payload) :: rest))
    (hwanes : hub.station.Wanes idle) (harms : idle.Arms serial kind live.epoch after.station)
    (hlive : after.link.current = some live) (hepoch : after.link.epoch = hub.link.epoch) :
    after.Watched c (m :: history) (.send live serial kind payload :: rest) := by
  have hsets := sets_of_arms valid h.settings hwanes.settings hwanes.clock hwanes.timeline harms
  have hfewer : hub.ledger.Wanes after.ledger := by
    rw [show after.ledger = idle.ledger from harms.ledger]
    exact hwanes.ledger
  obtain ⟨hcounter, hlatest⟩ := h.sought serial kind payload (List.mem_cons_self ..)
  refine ⟨hsets.settings, hsets.clock.trans h.clock, hsets.timeline.ordered h.ordered,
    hsets.timeline.numbered h.numbered, h.submitted_wanes hwf hfewer m,
        fun serial' kind' payload' hcall => ?_,
    fun request hmem hkind => ?_,
    armed_sets hm hafter hmade hlive hsets ?_ (fun request hmem hserial => ?_)
      fun timer hwaits serial' kind' epoch' htask => ?_⟩
  · -- No other bind of the present epoch waits.
    rw [hepoch] at hcall
    rcases List.mem_cons.mp hcall with hmade | hrest
    · cases hmade
    · have hdistinct := hlink.distinct
      rw [List.filterMap_cons_some (show (Outgoing.bind _ _).cookie? = some _ from rfl),
        List.nodup_cons] at hdistinct
      have hin : hub.link.epoch ∈ rest.filterMap Outgoing.cookie? :=
        List.mem_filterMap.mpr ⟨_, hrest, rfl⟩
      exact absurd hin hdistinct.1
  · obtain ⟨old, hold, hsame, htime⟩ := hfewer.pending hwf request hmem
    rw [← PendingRequest.kind_of_identity hsame] at hkind
    rcases h.covered old hold hkind with ⟨call, hcall, hseeks⟩ | ⟨-, timer, hwaits, htask, hdue⟩
    · rcases List.mem_cons.mp hcall with rfl | hrest
      · obtain ⟨hserial, hsame'⟩ := hseeks
        obtain ⟨timer, hset, htask, hdue⟩ := hsets.set (hsame' ▸ hkind)
        refine .inr ⟨by rw [hlive]; rfl, timer, hset, ?_, ?_⟩
        · rw [htask, (Link.current_eq_some hlive).2.2,
            ← PendingRequest.serial_of_identity hsame, ← PendingRequest.kind_of_identity hsame]
          exact congrArg₂ (Task.deadline · · _) hserial.symm hsame'.symm
        · rw [hdue, ← htime, (hlatest old hold hserial).2]
      · exact .inl ⟨call, List.mem_cons_of_mem _ hrest, hsame ▸ hseeks⟩
    · refine .inr ⟨by rw [hlive]; rfl, timer, hsets.timeline.kept timer hwaits, ?_, ?_⟩
      · rw [htask, hepoch, PendingRequest.serial_of_identity hsame,
          PendingRequest.kind_of_identity hsame]
      · rw [hdue, htime]
  · rw [hfewer.counter]
    exact hcounter
  · obtain ⟨old, hold, hsame, htime⟩ := hfewer.pending hwf request hmem
    obtain ⟨hkind, hnow⟩ :=
      hlatest old hold ((PendingRequest.serial_of_identity hsame).trans hserial)
    exact ⟨(PendingRequest.kind_of_identity hsame).symm.trans hkind, htime.symm.trans hnow⟩
  · refine (h.armed timer hwaits serial' kind' epoch' htask).step hm hwaits hepoch
      (fun counter taken htaken => ?_) fun _ request hmem _ => hfewer.pending hwf request hmem
    rw [hfewer.counter, htaken, hstrides]
    rfl

/-- Every transition that is no deadline. -/
theorem deals {e final : Engine} {move : Move} {progress : Progress} (valid : c.validate = .ok c)
    (h : hub.Watched c history (move.pops ++ rest)) (hm : Moment.StartsFrom ⟨e, move, final⟩ hub)
    (hdeals : hub.Deals move progress final.hub)
    (hmade : ∀ call, progress = .waits call → (Moment.mk e move final).made = some call)
    (hwf : hub.ledger.WellFormed) (hlink : hub.link.Anchored granted (move.pops ++ rest))
    (hnext : hub.link.epoch.HasNext)
    (hserials : History.SerialsLast (⟨e, move, final⟩ :: history)) :
    final.hub.Watched c (⟨e, move, final⟩ :: history) (progress.calls ++ rest) := by
  cases hdeals with
  | eases eases binds submitted left => exact h.eases hm hwf eases binds submitted left
  | renews plain calm free station epoch =>
      exact h.renews hwf hlink hnext plain calm free station epoch
  | dies drains binds epoch => exact h.dies hlink hnext drains binds epoch
  | sends idles enrolls arms current link =>
      exact sends valid h hm rfl (hmade _ rfl) rfl hserials hlink idles enrolls arms current link
  | seeks idles enrolls free epoch =>
      exact seeks h hm hlink hnext rfl idles enrolls free epoch
  | grants present wanes arms current epoch =>
      subst present
      exact grants valid h hm rfl (hmade _ rfl) rfl hwf hlink wanes arms current epoch

/-! ## The clock goes on -/

/-- The first timer may be taken off if it is the deadline of no pending request.  No bind waits
then, for whom the clock would have to stand. -/
theorem pop {target : Duration} {task : Task} {timeline : Timeline Task}
    (h : hub.Watched c history calls) (hcalls : ∀ call ∈ calls, call.cookie? = none)
    (hdue : hub.station.timeline.popDue? target = some (task, timeline))
    (hspared : ∀ request ∈ hub.ledger.requests,
      task ≠ .deadline request.serial request.kind hub.link.epoch) :
    Watched c history calls { hub with station := { hub.station with timeline } } := by
  have hordered := (h.ordered.popDue hdue).1
  obtain ⟨first, others, hqueue, rfl, -, rfl⟩ := Timeline.popDue?_eq_some hdue
  change hub.timers = _ at hqueue
  have hold : ∀ timer ∈ others, timer ∈ hub.timers := fun timer hmem => by
    rw [hqueue]
    exact List.mem_cons_of_mem _ hmem
  refine ⟨h.settings, h.clock, hordered, fun timer hmem => h.numbered timer (hold timer hmem),
      h.submitted,
    fun serial kind payload hcall => ?_, fun request hmem hkind => ?_,
    fun timer hmem => h.armed timer (hold timer hmem)⟩
  · cases hcalls _ hcall
  · refine (h.covered request hmem hkind).imp_right
      fun ⟨hlive, timer, hwaits, htask, hdeadline⟩ => ?_
    refine ⟨hlive, timer, ?_, htask, hdeadline⟩
    rw [hqueue] at hwaits
    rcases List.mem_cons.mp hwaits with rfl | hother
    · exact absurd htask (hspared request hmem)
    · exact hother

/-- The task of a deadline is run. -/
theorem lapses {target : Duration} {timeline : Timeline Task} {progress : Progress}
    (h : hub.Watched c history []) (hm : m.StartsFrom hub) (hmove : m.move = .fire)
    (hwf : hub.ledger.WellFormed)
    (hdue : hub.station.timeline.popDue? target = some (.deadline serial kind epoch, timeline))
    (hlapses : Lapses { hub with station := { hub.station with timeline } } serial epoch progress
      after) : after.Watched c (m :: history) progress.calls := by
  have hpops : m.move.pops = [] := by rw [hmove]; rfl
  have hsubmitted : m.move.submitted = [] := by rw [hmove]; rfl
  cases hlapses with
  | misses missed =>
      have hkept := h.stays hm hwf hsubmitted hpops
      refine hkept.pop (by simp) hdue fun request hmem htask => ?_
      cases htask
      exact missed.elim (absurd rfl) fun hnone => hnone request hmem rfl
  | @completes request ledger governor recorder present mem same completed wanes =>
      have hleft : Watched c (m :: history)
          ((Progress.waits (.deliver ⟨request.target,
            .ok (request.kind.neutralResult?.getD .empty)⟩ .deadline)).calls ++ [])
          { hub with station := { hub.station with ledger } } :=
        eases (by rwa [hpops]) hm hwf
          ((Eases.refl hub).atStation (Station.wanes_ledger wanes)) rfl hsubmitted
          fun _ _ => Move.not_sought hpops _
      have hpopped := hleft.pop (by simp [Progress.calls, Outgoing.cookie?]) hdue
        fun other hmem htask => ?_
      · exact ⟨hpopped.settings, hpopped.clock, hpopped.ordered, hpopped.numbered,
          hpopped.submitted, hpopped.sought, hpopped.covered, hpopped.armed⟩
      · cases htask
        exact completed.serial_ne hwf other hmem same.symm

/-- The clock is set to where nothing is due yet. -/
theorem arrives {target : Duration} (h : hub.Watched c history [])
    (hdue : hub.station.timeline.popDue? target = none) :
    Watched c history []
      { hub with station := { hub.station with timeline := hub.station.timeline.setNow target } } :=
  ⟨h.settings, h.clock, h.ordered.setNow hdue, h.numbered, h.submitted, by simp, h.covered, h.armed⟩

end Watched

end Hub

end ModemLink
