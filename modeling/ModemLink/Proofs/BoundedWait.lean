import ModemLink.Proofs.Recovery
import ModemLink.Proofs.Watching

/-!
# Bounded wait

A request whose kind has a deadline does not wait longer than the timeout.  While no call and no
advance is under way it is younger than that, and what times out does so exactly the timeout after
it was submitted, in the epoch it was sent in, by the deadline that was set for it and no other.

* `Engine.Dealing` -- how an uncut move comes about, as far as requests and deadlines are concerned;
* `Engine.Punctual` -- which advance is under way, and that no deadline is overdue without one;
* `Run.watched` -- what is kept of requests and deadlines in every run;
* `Run.bounded_wait` -- what follows from it.
-/

namespace ModemLink

/-- What is shorter ago than a length of time is not shown as older. -/
theorem Duration.elapsed_lt {now since length : Duration} (hle : since.nanos ≤ now.nanos)
    (hlt : now.nanos < since.nanos + length.nanos) : now.elapsed since < length := by
  change (now.elapsed since).nanos < length.nanos
  rw [nanos_elapsed]
  omega

namespace Hub

variable {c : Config} {before after : Hub} {move : Move} {progress : Progress}

/-- Every transition leaves the clock and the timers, and a deadline that it sets is due later than
now. -/
theorem Deals.gains (h : before.Deals move progress after) (valid : c.validate = .ok c)
    (hsettings : before.station.settings = .ofConfig c) :
    Timeline.Gains (fun timer => timer.task.IsDeadline →
      before.station.now.nanos < timer.deadline.nanos)
      before.station.timeline after.station.timeline := by
  have hpositive := c.blockingResponseTimeout_pos valid
  have hsets : ∀ {serial kind epoch}, Sets c serial kind epoch before.station after.station →
      Timeline.Gains (fun timer => timer.task.IsDeadline →
        before.station.now.nanos < timer.deadline.nanos)
        before.station.timeline after.station.timeline := by
    intro serial kind epoch hsets
    refine hsets.timeline.imp fun timer hnew hdeadline => ?_
    obtain ⟨-, -, hdue, -⟩ := hnew hdeadline
    omega
  cases h with
  | eases eases binds submitted left =>
      exact eases.station.timeline.imp fun _ hother hdeadline => absurd hdeadline hother
  | renews plain calm free station epoch =>
      exact station.timeline.imp fun _ hother hdeadline => absurd hdeadline hother
  | dies drains binds epoch =>
      exact drains.timeline.imp fun _ hother hdeadline => absurd hdeadline hother
  | sends idles enrolls arms current link =>
      have hgains := idles.timeline
      rw [← enrolls.timeline] at hgains
      exact hsets (sets_of_arms valid hsettings (enrolls.settings.trans idles.settings)
        (enrolls.clock.trans idles.clock) hgains arms)
  | seeks idles enrolls free epoch =>
      rw [enrolls.timeline]
      exact idles.timeline.imp fun _ hother hdeadline => absurd hdeadline hother
  | grants present wanes arms current epoch =>
      exact hsets (sets_of_arms valid hsettings wanes.settings wanes.clock wanes.timeline arms)

/-- Nothing times out but by a deadline. -/
theorem Deals.timedOut (h : before.Deals move progress after) :
    after.station.counters.timedOut = before.station.counters.timedOut := by
  cases h with
  | eases eases binds submitted left => exact eases.station.timedOut
  | renews plain calm free station epoch => exact station.timedOut
  | dies drains binds epoch => exact drains.timedOut
  | sends idles enrolls arms current link =>
      exact arms.timedOut.trans (enrolls.timedOut.trans idles.timedOut)
  | seeks idles enrolls free epoch => exact enrolls.timedOut.trans idles.timedOut
  | grants present wanes arms current epoch => exact arms.timedOut.trans wanes.timedOut

end Hub

namespace Engine

open Clocked

variable {c : Config} {e after : Engine} {move : Move} {history : History}

/-- How an uncut move comes about. -/
inductive Dealing (e : Engine) : Move → Engine → Prop
  | called {call : Call} {last : Option Returned} {progress : Progress} {hub : Hub}
      (control : e.control = .outside last) (deals : e.hub.Deals (.call call) progress hub) :
      Dealing e (.call call) (e.reach none progress hub)
  | answered {advance : Option Advance} {call : Outgoing} {answer : call.Answer}
      {rest : List Suspension} {last : Option Returned} {progress : Progress} {hub : Hub}
      (control : e.control = .outside last) (stack : e.stack = ⟨advance, call⟩ :: rest)
      (deals : e.hub.Deals (.answer call answer) progress hub) :
      Dealing e (.answer call answer) ({ e with stack := rest }.reach advance progress hub)
  /-- A task other than a deadline was run, or passed over because its owner is gone. -/
  | ran {advance : Advance} {task : Task} {timeline : Timeline Task} {progress : Progress}
      {hub : Hub} (control : e.control = .firing advance)
      (due : e.hub.station.timeline.popDue? advance.target = some (task, timeline))
      (other : ¬ task.IsDeadline) (deals : (e.withTimeline timeline).hub.Deals .fire progress hub) :
      Dealing e .fire ((e.withTimeline timeline).reach (some advance) progress hub)
  | lapsed {advance : Advance} {serial : Serial} {kind : RequestKind} {sentIn : Epoch}
      {timeline : Timeline Task} {progress : Progress} {hub : Hub}
      (control : e.control = .firing advance)
      (due : e.hub.station.timeline.popDue? advance.target =
        some (.deadline serial kind sentIn, timeline))
      (lapses : (e.withTimeline timeline).hub.Lapses serial sentIn progress hub) :
      Dealing e .fire ((e.withTimeline timeline).reach (some advance) progress hub)
  | departs {length : Duration} {last : Option Returned} {advance : Advance}
      (control : e.control = .outside last)
      (target : advance.target.nanos = e.now.nanos + length.nanos) :
      Dealing e (.call (.advance length)) { e with control := .firing advance }
  | arrives {advance : Advance} (control : e.control = .firing advance)
      (due : e.hub.station.timeline.popDue? advance.target = none) :
      Dealing e .fire
        { e.withTimeline (e.hub.station.timeline.setNow advance.target) with
          control := .outside (some (.advanced advance.fired)) }
  | owned {last : Option Returned} {count : Nat} (control : e.control = .outside last) :
      Dealing e (.owners count) { e with owners := count }
  | subscribed {last : Option Returned} {subscribers : Subscribers}
      (control : e.control = .outside last) :
      Dealing e (.subscribers subscribers)
        { e with hub := { e.hub with station := { e.hub.station with subscribers } } }

theorem dealing_call {call : Call} {last : Option Returned} {transition : Clocked Hub Progress}
    (control : e.control = .outside last) (hcall : e.call call = e.follow none transition)
    (hwp : wp transition (e.hub.Deals (.call call)) (fun _ => True) e.hub)
    (huncut : ¬ (e.call call).IsCut) : Dealing e (.call call) (e.call call) := by
  rw [hcall] at huncut ⊢
  obtain ⟨progress, hub, hdeals, heq⟩ := follow_eq_reach hwp huncut
  rw [heq]
  exact .called control hdeals

theorem dealing_fire {advance : Advance} (control : e.control = .firing advance)
    (hwf : e.hub.ledger.WellFormed) (huncut : ¬ (e.fire advance).IsCut) :
    Dealing e .fire (e.fire advance) := by
  cases hdue : e.hub.station.timeline.popDue? advance.target with
  | none =>
      simp only [fire, hdue]
      exact .arrives control hdue
  | some due =>
      obtain ⟨task, timeline⟩ := due
      simp only [fire, hdue] at huncut ⊢
      by_cases hdeadline : task.IsDeadline
      · cases task with
        | expiry guard sequence => cases hdeadline
        | reconnect => cases hdeadline
        | deadline serial kind sentIn =>
            -- What a deadline works on is still there, for the deadline keeps it.
            have hserves : (e.withTimeline timeline).serves (.deadline serial kind sentIn) = true :=
              rfl
            rw [if_pos hserves] at huncut ⊢
            obtain ⟨progress, hub, hlapses, heq⟩ :=
              follow_eq_reach (e := e.withTimeline timeline) (Hub.lapses_runTask hwf) huncut
            rw [heq]
            exact .lapsed control hdue hlapses
      · by_cases hserves : (e.withTimeline timeline).serves task = true
        · rw [if_pos hserves] at huncut ⊢
          obtain ⟨progress, hub, hdeals, heq⟩ :=
            follow_eq_reach (Hub.deals_runTask hdeadline) huncut
          rw [heq]
          exact .ran control hdue hdeadline hdeals
        · rw [if_neg hserves]
          have hpassed : Dealing e .fire ((e.withTimeline timeline).reach (some advance)
              (.ends .handled) (e.withTimeline timeline).hub) :=
            .ran control hdue hdeadline (.eases (.refl _) rfl rfl fun _ _ => id)
          exact hpassed

/-- Every uncut move is one of these. -/
theorem Step.dealing (h : e.Step move after) (huncut : ¬ after.IsCut)
    (hwf : e.hub.ledger.WellFormed)
    (hfree : ∀ suspension ∈ e.stack, e.hub.link.epoch ∈ suspension.call.cookie? →
      e.hub.link.current = none) : Dealing e move after := by
  cases h with
  | call call control admits =>
      cases call with
      | submit kind payload target source =>
          exact dealing_call control rfl (Hub.deals_submit hwf admits) huncut
      | connect =>
          exact dealing_call control rfl
            (Hub.deals_bind (.refl _) rfl hwf (fun _ => id) rfl fun _ => id) huncut
      | receive frame =>
          exact dealing_call control rfl
            (Hub.Deals.of_quiet ((Hub.Eases.refl _).wp_receive frame) rfl fun _ => id) huncut
      | die cookie => exact dealing_call control rfl (Hub.deals_die rfl fun _ => id) huncut
      | advance length =>
          obtain ⟨advance, htarget, heq⟩ := exists_advance_of_not_isCut huncut
          rw [heq]
          exact .departs control htarget
  | @answer rest advance call answer last control stack =>
      have hpopped : e.resume ⟨advance, call⟩ answer =
          { e with stack := rest }.follow advance (Hub.answered call answer) := by
        simp only [resume, stack, List.tail_cons]
      rw [hpopped] at huncut ⊢
      have hwp : wp (Hub.answered call answer) (e.hub.Deals (.answer call answer)) (fun _ => True)
          e.hub :=
        Hub.deals_answered hwf
          (hfree ⟨advance, call⟩ (by rw [stack]; exact List.mem_cons_self ..))
      obtain ⟨progress, hub, hdeals, heq⟩ :=
        follow_eq_reach (e := { e with stack := rest }) hwp huncut
      rw [heq]
      exact .answered control stack hdeals
  | fire control => exact dealing_fire control hwf huncut
  | abandon control stack => exact absurd ⟨_, rfl⟩ huncut
  | owners count control => exact .owned control
  | subscribers subscribers control => exact .subscribed control

/-- The calls that wait after a transition. -/
theorem stack_reach {advance : Option Advance} {progress : Progress} {hub : Hub} :
    (e.reach advance progress hub).stack.map (·.call) =
      progress.calls ++ e.stack.map (·.call) := by
  unfold reach Progress.calls
  split
  · rfl
  · split <;> rfl

/-- While an advance is under way it has not gone too far; without one no deadline is overdue, not
even just now. -/
structure Punctual (e : Engine) (limit : Option Duration) : Prop where
  advancing : Advancing limit e
  reached : ∀ target ∈ limit, e.now.nanos ≤ target.nanos
  later : limit = none → ∀ timer ∈ e.hub.timers, timer.task.IsDeadline →
    e.now.nanos < timer.deadline.nanos

theorem Punctual.of_gains {limit : Option Duration} (h : e.Punctual limit)
    (hgains : Timeline.Gains (fun timer => timer.task.IsDeadline →
      e.now.nanos < timer.deadline.nanos) e.hub.station.timeline after.hub.station.timeline)
    (hadvancing : Advancing limit after) : after.Punctual limit := by
  have hnow : after.now = e.now := hgains.now
  refine ⟨hadvancing, by rw [hnow]; exact h.reached, fun hlimit timer hmem hdeadline => ?_⟩
  rw [hnow]
  rcases hgains.added timer hmem with hold | hnew
  · exact h.later hlimit timer hold hdeadline
  · exact hnew hdeadline

/-- The tasks of an advance are run until the clock shows where it leads, and then no deadline is
left that was due by then. -/
theorem Dealing.punctual (valid : c.validate = .ok c) (h : Dealing e move after)
    (hsettings : e.hub.station.settings = .ofConfig c) (hordered : e.hub.station.timeline.Ordered)
    (hpunctual : ∃ limit, e.Punctual limit)
    (houtermost : move.advances = true → e.stack = []) : ∃ limit, after.Punctual limit := by
  obtain ⟨limit, hpunctual⟩ := hpunctual
  have hrun : ∀ {advance : Advance} {timeline : Timeline Task} {progress : Progress} {hub : Hub},
      e.control = .firing advance → hub.station.now.nanos ≤ advance.target.nanos →
      ((e.withTimeline timeline).reach (some advance) progress hub).Punctual
        (some advance.target) := by
    intro advance timeline progress hub control hreached
    obtain ⟨hempty, -⟩ := (advancing_firing control).mp hpunctual.advancing
    refine ⟨advancing_reach (bottoms_task hempty), ?_, fun hlimit => by cases hlimit⟩
    rintro _ ⟨⟩
    rw [now, hub_reach]
    exact hreached
  cases h with
  | called control deals =>
      have hbottom := (advancing_outside control).mp hpunctual.advancing
      refine ⟨limit, hpunctual.of_gains ?_ (advancing_reach hbottom.cons_none)⟩
      rw [hub_reach]
      exact deals.gains valid hsettings
  | answered control stack deals =>
      have hbottom := (advancing_outside control).mp hpunctual.advancing
      rw [stack] at hbottom
      refine ⟨limit, hpunctual.of_gains ?_ (advancing_reach hbottom.replace)⟩
      rw [hub_reach]
      exact deals.gains valid hsettings
  | ran control due other deals =>
      have hnow := (deals.gains valid hsettings).now
      refine ⟨_, hrun control ?_⟩
      rw [Station.now, hnow]
      exact (hordered.popDue due).2.2
  | lapsed control due lapses =>
      refine ⟨_, hrun control ?_⟩
      cases lapses with
      | misses missed => exact (hordered.popDue due).2.2
      | completes present mem same completed wanes => exact (hordered.popDue due).2.2
  | @departs length last advance control target =>
      refine ⟨some advance.target, (advancing_firing rfl).mpr ⟨houtermost rfl, rfl⟩, ?_,
        fun hlimit => by cases hlimit⟩
      rintro _ ⟨⟩
      change e.now.nanos ≤ advance.target.nanos
      omega
  | @arrives advance control due =>
      obtain ⟨hempty, -⟩ := (advancing_firing control).mp hpunctual.advancing
      refine ⟨none, (advancing_outside rfl).mpr ?_, by simp, fun _ timer hmem _ => ?_⟩
      · change Bottoms none e.stack
        rw [hempty]
        rfl
      · exact hordered.lt_deadline due timer hmem
  | owned control =>
      have hbottom := (advancing_outside control).mp hpunctual.advancing
      exact ⟨limit, (advancing_outside control).mpr hbottom, hpunctual.reached, hpunctual.later⟩
  | subscribed control =>
      have hbottom := (advancing_outside control).mp hpunctual.advancing
      exact ⟨limit, (advancing_outside control).mpr hbottom, hpunctual.reached, hpunctual.later⟩

/-- The clock does not go back. -/
theorem Dealing.clock_le (valid : c.validate = .ok c) (h : Dealing e move after)
    (hsettings : e.hub.station.settings = .ofConfig c) (hordered : e.hub.station.timeline.Ordered)
    (hpunctual : ∃ limit, e.Punctual limit) : e.now.nanos ≤ after.now.nanos := by
  obtain ⟨limit, hpunctual⟩ := hpunctual
  unfold now
  cases h with
  | called control deals =>
      rw [hub_reach]
      exact Nat.le_of_eq (congrArg Duration.nanos (deals.gains valid hsettings).now.symm)
  | answered control stack deals =>
      rw [hub_reach]
      exact Nat.le_of_eq (congrArg Duration.nanos (deals.gains valid hsettings).now.symm)
  | @ran advance task timeline progress hub control due other deals =>
      have hnow : hub.station.now = timeline.now := (deals.gains valid hsettings).now
      rw [hub_reach, hnow]
      exact (hordered.popDue due).2.1
  | lapsed control due lapses =>
      rw [hub_reach]
      cases lapses with
      | misses missed => exact (hordered.popDue due).2.1
      | completes present mem same completed wanes => exact (hordered.popDue due).2.1
  | departs control target => exact Nat.le_refl _
  | arrives control due =>
      obtain ⟨-, rfl⟩ := (advancing_firing control).mp hpunctual.advancing
      exact hpunctual.reached _ rfl
  | owned control => exact Nat.le_refl _
  | subscribed control => exact Nat.le_refl _

/-- A transition that runs a task starts from where the timer of the task was taken off. -/
theorem startsFrom_pop {target : Duration} {task : Task} {timeline : Timeline Task}
    (hnumbered : e.hub.station.timeline.Numbered)
    (hdue : e.hub.station.timeline.popDue? target = some (task, timeline)) :
    Moment.StartsFrom ⟨e, .fire, after⟩ (e.withTimeline timeline).hub := by
  obtain ⟨first, others, hqueue, -, -, rfl⟩ := Timeline.popDue?_eq_some hdue
  refine ⟨rfl, rfl, fun hfire => absurd rfl hfire, fun timer hmem => ?_, hnumbered⟩
  change timer ∈ e.hub.station.timeline.queue
  rw [hqueue]
  exact List.mem_cons_of_mem _ hmem

/-- Requests and deadlines are watched through every uncut move. -/
theorem Dealing.watched (valid : c.validate = .ok c) (h : Dealing e move after)
    (hwatched : e.hub.Watched c history (e.stack.map (·.call)))
    (hpunctual : ∃ limit, e.Punctual limit) (hplaced : e.Placed history)
    (hnext : e.hub.link.epoch.HasNext)
    (hserials : History.SerialsLast (⟨e, move, after⟩ :: history)) :
    after.hub.Watched c (⟨e, move, after⟩ :: history) (after.stack.map (·.call)) := by
  have hwf := hplaced.hub.ledger
  have hlink := hplaced.hub.link
  have hstarts : Moment.StartsFrom ⟨e, move, after⟩ e.hub :=
    ⟨rfl, rfl, fun _ => rfl, fun _ h => h, hwatched.numbered⟩
  have hempty : ∀ {advance : Advance}, e.control = .firing advance → e.stack = [] := by
    intro advance control
    obtain ⟨limit, hpunctual⟩ := hpunctual
    exact ((advancing_firing control).mp hpunctual.advancing).1
  cases h with
  | called control deals =>
      rw [stack_reach]
      refine .deals valid hwatched hstarts (by rwa [hub_reach]) (fun call hcall => ?_) hwf hlink
        hnext hserials
      rw [hcall]
      rfl
  | @answered advance call answer rest last progress hub control stack deals =>
      rw [stack, List.map_cons] at hwatched hlink
      rw [stack_reach]
      refine .deals valid hwatched hstarts (by rwa [hub_reach]) (fun call hcall => ?_) hwf hlink
        hnext hserials
      rw [hcall]
      rfl
  | @ran advance task timeline progress hub control due other deals =>
      rw [hempty control] at hwatched hlink
      have hpopped := hwatched.pop (by simp) due fun request _ htask => by
        rw [htask] at other
        exact other trivial
      rw [stack_reach, show (e.withTimeline timeline).stack = [] from hempty control]
      refine .deals valid hpopped (startsFrom_pop hwatched.numbered due) (by rwa [hub_reach])
        (fun call hcall => ?_) hwf hlink hnext hserials
      rw [hcall]
      rfl
  | @lapsed advance serial kind sentIn timeline progress hub control due lapses =>
      rw [hempty control] at hwatched
      rw [stack_reach, show (e.withTimeline timeline).stack = [] from hempty control, hub_reach]
      have hafter := hwatched.lapses hstarts rfl hwf due lapses
      rwa [List.map_nil, List.append_nil]
  | departs control target => exact hwatched.stays hstarts hwf rfl rfl
  | @arrives advance control due =>
      have hnone : e.stack.map (·.call) = [] := by rw [hempty control]; rfl
      rw [hnone] at hwatched
      change Hub.Watched c _ (e.stack.map (·.call)) _
      rw [hnone]
      exact (hwatched.arrives due).stays
        ⟨rfl, rfl, fun hfire => absurd rfl hfire, fun _ h => h, hwatched.numbered⟩ hwf rfl rfl
  | owned control => exact hwatched.stays hstarts hwf rfl rfl
  | @subscribed last subscribers control =>
      have hsame : Hub.Watched c history (e.stack.map (·.call))
          { e.hub with station := { e.hub.station with subscribers } } :=
        ⟨hwatched.settings, hwatched.clock, hwatched.ordered, hwatched.numbered,
          hwatched.submitted, hwatched.sought, hwatched.covered, hwatched.armed⟩
      exact hsame.stays ⟨rfl, rfl, fun _ => rfl, fun _ h => h, hwatched.numbered⟩ hwf rfl rfl

/-- In good hands, the present bind has no live link to lose. -/
theorem Placed.dealing (h : e.Placed history) (hstep : e.Step move after)
    (huncut : ¬ after.IsCut) : Dealing e move after := by
  refine hstep.dealing huncut h.hub.ledger fun suspension hmem hcookie => ?_
  refine Link.current_of_phase_ne ?_
  rw [h.hub.link.binding _ (List.mem_map_of_mem hmem) hcookie]
  simp

end Engine

/-! ## Deadlines that run out -/

/-- The task of a timer is run at a moment: the timer is the first one, and it is due in the advance
that is under way. -/
def Moment.Runs (m : Moment) (timer : Timer Task) : Prop :=
  m.move = .fire ∧ ∃ advance, m.before.control = .firing advance ∧
    timer.deadline ≤ advance.target ∧ ∃ others, m.before.hub.timers = timer :: others

/-- A request times out at a moment: its deadline is run, in the epoch that the request was sent in.
The request leaves the ledger, and the neutral result of its kind is handed to its target.  It was
submitted exactly the timeout before, and this timer was set for it. -/
structure Moment.TimesOut (m : Moment) (c : Config) (earlier : History) (timer : Timer Task)
    (request : PendingRequest) : Prop where
  runs : m.Runs timer
  task : timer.task = .deadline request.serial request.kind m.before.hub.link.epoch
  pending : request ∈ m.before.hub.ledger.requests
  completed : Ledger.Completed m.before.hub.ledger request m.after.hub.ledger
  delivered : ∃ neutral, request.kind.neutralResult? = some neutral ∧
    m.made = some (.deliver ⟨request.target, .ok neutral⟩ .deadline)
  submitted : ∃ n ∈ earlier, ∃ payload source,
    n.move = .call (.submit request.kind payload request.target source) ∧
    m.after.now.nanos = n.before.now.nanos + c.blockingResponseTimeout.nanos
  armed : ∃ n ∈ earlier,
    n.Arms c timer request.serial request.kind m.before.hub.link.epoch ∧
    ∃ sent ∈ n.after.hub.ledger.requests, sent.identity = request.identity

namespace Engine

variable {c : Config} {e after : Engine} {move : Move} {history : History}

/-- Only a deadline that finds its request counts as a request that timed out. -/
theorem Dealing.timesOut (h : Dealing e move after) (valid : c.validate = .ok c)
    {calls : List Outgoing} (hwatched : e.hub.Watched c history calls)
    (hchanged : after.hub.station.counters.timedOut ≠ e.hub.station.counters.timedOut) :
    ∃ timer request, (Moment.mk e move after).TimesOut c history timer request := by
  cases h with
  | called control deals =>
      rw [hub_reach] at hchanged
      exact absurd deals.timedOut hchanged
  | answered control stack deals =>
      rw [hub_reach] at hchanged
      exact absurd deals.timedOut hchanged
  | ran control due other deals =>
      rw [hub_reach] at hchanged
      exact absurd deals.timedOut hchanged
  | @lapsed advance serial kind sentIn timeline progress hub control due lapses =>
      obtain ⟨timer, others, hqueue, htask, hdue, rfl⟩ := Timeline.popDue?_eq_some due
      have hfirst : e.hub.timers = timer :: others := hqueue
      obtain ⟨since, setting, earlier, rfl, harms, -, hunspent⟩ :=
        hwatched.armed timer (by rw [hfirst]; exact List.mem_cons_self ..) serial kind sentIn htask
      cases lapses with
      | misses missed => exact absurd rfl hchanged
      | @completes request ledger governor recorder present mem same completed wanes =>
          obtain rfl : sentIn = e.hub.link.epoch := present
          subst same
          obtain ⟨rfl, hdeadline, sent, hsent, hidentity⟩ :=
            (hunspent rfl).owned request mem rfl
          obtain ⟨-, -, hneutral⟩ := (Config.validate_eq_ok_iff c c).mp valid
          obtain ⟨neutral, hneutral⟩ :=
            Option.isSome_iff_exists.mp (hneutral _ harms.listed)
          obtain ⟨n, hn, payload, source, hmove, hnow⟩ := hwatched.submitted request mem
          have hsetting : setting ∈ since ++ setting :: earlier :=
            List.mem_append_right _ (List.mem_cons_self ..)
          refine ⟨timer, request, ⟨rfl, advance, control, hdue, others, hfirst⟩, htask, mem,
            completed, ⟨neutral, hneutral, ?_⟩, ⟨n, hn, payload, source, hmove, ?_⟩,
            setting, hsetting, harms, sent, hsent, hidentity⟩
          · rw [hneutral]
            rfl
          · rw [hnow]
            exact hdeadline
  | departs control target => exact absurd rfl hchanged
  | arrives control due => exact absurd rfl hchanged
  | owned control => exact absurd rfl hchanged
  | subscribed control => exact absurd rfl hchanged

/-- The deadline of another epoch completes nothing. -/
theorem Dealing.stale (h : Dealing e move after) {timer : Timer Task} {serial : Serial}
    {kind : RequestKind} {epoch : Epoch} (hruns : (Moment.mk e move after).Runs timer)
    (htask : timer.task = .deadline serial kind epoch) (hstale : epoch ≠ e.hub.link.epoch) :
    after.hub.ledger = e.hub.ledger ∧ (Moment.mk e move after).made = none := by
  obtain ⟨hmove, advance, hcontrol, hdue, others, hqueue⟩ := hruns
  have hfirst : ∀ {target task timeline}, e.hub.station.timeline.popDue? target =
      some (task, timeline) → task = .deadline serial kind epoch := by
    intro target task timeline hpop
    obtain ⟨first, rest, hcons, rfl, -⟩ := Timeline.popDue?_eq_some hpop
    change e.hub.timers = _ at hcons
    rw [hqueue] at hcons
    cases hcons
    exact htask
  cases h with
  | called control deals => cases hmove
  | answered control stack deals => cases hmove
  | ran control due other deals =>
      rw [hfirst due] at other
      exact absurd trivial other
  | lapsed control due lapses =>
      cases hfirst due
      cases lapses with
      | misses missed => exact ⟨rfl, rfl⟩
      | completes present mem same completed wanes => exact absurd present hstale
  | departs control target => cases hmove
  | arrives control due => exact ⟨rfl, rfl⟩
  | owned control => cases hmove
  | subscribed control => cases hmove

end Engine

/-! ## A request without a reply -/

namespace Engine

open Clocked

/-- A plain engine that has sent a request with a deadline. -/
def listed : Engine :=
  ((plain.call (.submit .getActivityInfo .empty ⟨0⟩ none)).resume
    ⟨none, .bind ⟨1⟩ (.submission ⟨100⟩ .getActivityInfo .empty)⟩
      (Except.ok (⟨0⟩ : Handle))).resume
    ⟨none, .send ⟨⟨0⟩, ⟨1⟩⟩ ⟨100⟩ .getActivityInfo .empty⟩ (Except.ok ())

theorem exists_run_listed :
    ∃ history, Run plain history listed ∧ history.Uncut ∧ history.AdvancesOutermost ∧
      history.strides = 1 ∧ history.length = 3 := by
  have started : Run plain [] plain := .start
  have waiting := started.call (.submit .getActivityInfo .empty ⟨0⟩ none) none rfl (by decide)
    (by simp [History.submitted])
  have bound := waiting.answer none (.bind ⟨1⟩ (.submission ⟨100⟩ .getActivityInfo .empty))
    (Except.ok (⟨0⟩ : Handle)) none rfl rfl
  have sent := bound.answer none (.send ⟨⟨0⟩, ⟨1⟩⟩ ⟨100⟩ .getActivityInfo .empty) (Except.ok ())
    none rfl rfl
  exact ⟨_, sent, by decide +kernel, by decide +kernel, by decide +kernel, rfl⟩

/-- The same engine while it advances to where the deadline is due. -/
def overdue : Engine := listed.call (.advance (.ofMillis 2000))

/-- The deadline takes the request out. -/
theorem wp_overdue (hwf : listed.hub.ledger.WellFormed) :
    ∃ timeline, overdue.hub.station.timeline.popDue? (.ofMillis 2000) =
        some (.deadline ⟨100⟩ .getActivityInfo ⟨1⟩, timeline) ∧
      wp (Hub.runTask (.deadline ⟨100⟩ .getActivityInfo ⟨1⟩))
        (fun progress after =>
          progress = .waits (.deliver ⟨⟨0⟩, .ok (.ints [0, 0, 0, 0, 0, 0, 0, 0, 0])⟩ .deadline) ∧
            after.station.counters.timedOut = 1)
        (fun _ => False)
        (overdue.withTimeline timeline).hub := by
  refine ⟨_, rfl, ?_⟩
  generalize heq : (overdue.withTimeline _).hub = hub
  have hpresent : ¬ hub.link.epoch ≠ ⟨1⟩ := by subst heq; exact not_not.mpr rfl
  have hledger : hub.station.ledger = listed.hub.ledger := by subst heq; rfl
  simp only [Hub.runTask, wp_bind, wp_get, Hub.wp_atStation, Station.overdue, if_neg hpresent]
  refine Station.wp_complete (by rwa [hledger]) (fun hnone => ?_) fun request hmem _ ledger _ => ?_
  · rw [hledger] at hnone
    exact absurd rfl (hnone _ (List.mem_singleton.mpr rfl))
  · rw [hledger] at hmem
    obtain rfl := List.mem_singleton.mp hmem
    subst heq
    rw [wp_bind]
    cbv

theorem fire_overdue (hwf : listed.hub.ledger.WellFormed) :
    ¬ (overdue.fire ⟨.ofMillis 2000, 0⟩).IsCut ∧
      (overdue.fire ⟨.ofMillis 2000, 0⟩).hub.station.counters.timedOut = 1 := by
  obtain ⟨timeline, hdue, hwp⟩ := wp_overdue hwf
  have hfire : overdue.fire ⟨.ofMillis 2000, 0⟩ = (overdue.withTimeline timeline).follow
      (some ⟨.ofMillis 2000, 0⟩) (Hub.runTask (.deadline ⟨100⟩ .getActivityInfo ⟨1⟩)) := by
    simp only [fire, hdue]
    rfl
  rw [hfire]
  rcases follow_of_wp (some ⟨.ofMillis 2000, 0⟩) _ hwp with
    ⟨call, hub, hpost, heq⟩ | ⟨returned, hub, control, hpost, -⟩ | ⟨_, _, hcut, -⟩
  · rw [heq]
    exact ⟨not_isCut none rfl (by simp), hpost.2⟩
  · cases hpost.1
  · exact hcut.elim

/-- There is a run in which a request times out. -/
theorem exists_run_timedOut :
    ∃ m earlier e, Run plain (m :: earlier) e ∧ History.Uncut (m :: earlier) ∧
      History.AdvancesOutermost (m :: earlier) ∧ History.strides (m :: earlier) = 1 ∧
      earlier.length = 4 ∧
      m.after.hub.station.counters.timedOut ≠ m.before.hub.station.counters.timedOut := by
  obtain ⟨history, run, uncut, outermost, strides, hlength⟩ := exists_run_listed
  have advancing := run.call (.advance (.ofMillis 2000)) (some (.submitted ⟨100⟩)) (by cbv) trivial
    (by simp [Move.submitted])
  have fired := advancing.fire ⟨.ofMillis 2000, 0⟩ (by cbv)
  obtain ⟨huncut, hcounted⟩ := fire_overdue run.wellFormed
  refine ⟨_, _, _, fired, ?_, ?_, ?_, ?_, ?_⟩
  · exact History.uncut_cons.mpr ⟨huncut, History.uncut_cons.mpr ⟨by decide +kernel, uncut⟩⟩
  · exact List.forall_mem_cons.mpr ⟨fun hadvances => absurd hadvances Bool.false_ne_true,
      List.forall_mem_cons.mpr ⟨fun _ => by rfl, outermost⟩⟩
  · rw [History.strides_cons, History.strides_cons, strides]
    rfl
  · rw [List.length_cons, hlength]
  · change (overdue.fire ⟨.ofMillis 2000, 0⟩).hub.station.counters.timedOut ≠ _
    rw [hcounted]
    decide +kernel

end Engine

/-! ## Every run -/

/-- What is asked of a run: no overflow cuts off a call or an advance, time moves on only while no
other call waits, and neither the epochs nor, while a deadline waits, the serials start over. -/
structure History.Orderly (history : History) : Prop where
  uncut : history.Uncut
  outermost : history.AdvancesOutermost
  epochs : history.epochs < UInt64.size
  serials : history.SerialsLast

theorem History.Orderly.tail {m : Moment} {history : History}
    (h : History.Orderly (m :: history)) : history.Orderly :=
  ⟨(List.forall_mem_cons.mp h.uncut).2, (List.forall_mem_cons.mp h.outermost).2,
    Nat.lt_of_le_of_lt (History.epochs_le_cons m history) h.epochs, h.serials.tail⟩

theorem History.Orderly.earlier {m : Moment} {later earlier : History}
    (h : History.Orderly (later ++ m :: earlier)) : History.Orderly (m :: earlier) := by
  induction later with
  | nil => exact h
  | cons last later ih => exact ih h.tail

section

variable {c : Config} {seed : Option Int} {entropy : Entropy} {outside : OutsideStore}
  {history : History} {e : Engine}

/-- Requests and deadlines are watched through every run. -/
theorem Run.watched (run : Run (Engine.start c seed entropy outside) history e)
    (valid : c.validate = .ok c) (orderly : history.Orderly) :
    e.hub.Watched c history (e.stack.map (·.call)) ∧ ∃ limit, e.Punctual limit := by
  induction run with
  | start =>
      refine ⟨⟨rfl, rfl, Timeline.ordered_start, ?_, ?_, ?_, ?_, ?_⟩, none, rfl, by simp, ?_⟩
      · exact fun timer hmem => absurd hmem List.not_mem_nil
      · exact fun request hmem => absurd hmem List.not_mem_nil
      · exact fun serial kind payload hmem => absurd hmem List.not_mem_nil
      · exact fun request hmem => absurd hmem List.not_mem_nil
      · exact fun timer hmem => absurd hmem List.not_mem_nil
      · exact fun _ timer hmem => absurd hmem List.not_mem_nil
  | @step history e after move run hstep fresh ih =>
      obtain ⟨hwatched, hpunctual⟩ := ih orderly.tail
      have hplaced := run.placed orderly.tail.uncut orderly.tail.epochs
      have hdealing := hplaced.dealing hstep (History.uncut_cons.mp orderly.uncut).1
      have hnext : e.hub.link.epoch.HasNext := by
        rw [Epoch.HasNext, hplaced.counted]
        exact orderly.tail.epochs
      refine ⟨hdealing.watched valid hwatched hpunctual hplaced hnext orderly.serials, ?_⟩
      exact hdealing.punctual valid hwatched.settings hwatched.ordered hpunctual
        (List.forall_mem_cons.mp orderly.outermost).1

/-- No moment of a run shows a later time than its end. -/
theorem Run.clock_le (run : Run (Engine.start c seed entropy outside) history e)
    (valid : c.validate = .ok c) (orderly : history.Orderly) :
    ∀ m ∈ history, m.before.now.nanos ≤ e.now.nanos := by
  induction run with
  | start => simp
  | @step history e after move run hstep fresh ih =>
      obtain ⟨hwatched, hpunctual⟩ := run.watched valid orderly.tail
      have hplaced := run.placed orderly.tail.uncut orderly.tail.epochs
      have hdealing := hplaced.dealing hstep (History.uncut_cons.mp orderly.uncut).1
      have hlast := hdealing.clock_le valid hwatched.settings hwatched.ordered hpunctual
      refine List.forall_mem_cons.mpr ⟨hlast, fun m hm => ?_⟩
      exact Nat.le_trans (ih orderly.tail m hm) hlast

/-- **Bounded wait.**  The kinds that a valid configuration lists get a neutral result after the
timeout.  While no call and no advance is under way, each pending request of such a kind is younger
than the timeout.  Whatever is counted as timed out at a moment is a request that times out there:
exactly the timeout after it was submitted, in the epoch it was sent in, by the timer that was set
for it.  And the deadline of another epoch takes nothing out and hands nothing to anybody, whatever
serials were drawn meanwhile.

The count of epochs is a 64-bit number, and the run is asked to have fewer epochs than that; the
counter of serials is asked only not to go once round while a deadline of its epoch waits. -/
theorem Run.bounded_wait (run : Run (Engine.start c seed entropy outside) history e)
    (valid : c.validate = .ok c) (uncut : history.Uncut) (outermost : history.AdvancesOutermost)
    (epochs : history.epochs < UInt64.size) (serials : history.SerialsLast) :
    (e.stack = [] → (∃ last, e.control = .outside last) →
      ∀ request ∈ e.hub.ledger.requests, request.kind ∈ c.blockingKinds →
        request.age e.now < c.blockingResponseTimeout ∧
        e.now.nanos < request.submittedAt.nanos + c.blockingResponseTimeout.nanos) ∧
    ∀ later m earlier, history = later ++ m :: earlier →
      (m.after.hub.station.counters.timedOut ≠ m.before.hub.station.counters.timedOut →
        ∃ timer request, m.TimesOut c earlier timer request) ∧
      ∀ timer serial kind epoch, m.Runs timer → timer.task = .deadline serial kind epoch →
        epoch ≠ m.before.hub.link.epoch →
        m.after.hub.ledger = m.before.hub.ledger ∧ m.made = none := by
  have orderly : history.Orderly := ⟨uncut, outermost, epochs, serials⟩
  refine ⟨fun hempty ⟨last, control⟩ request hmem hkind => ?_, fun later m earlier heq => ?_⟩
  · obtain ⟨hwatched, limit, hpunctual⟩ := run.watched valid orderly
    have hbottom := (Engine.advancing_outside control).mp hpunctual.advancing
    rw [hempty] at hbottom
    obtain ⟨n, hn, -, -, -, hnow⟩ := hwatched.submitted request hmem
    have hle := run.clock_le valid orderly n hn
    rw [hnow] at hle
    -- No bind waits any more, so the deadline of the request does, and it is due later than now.
    rcases hwatched.covered request hmem hkind with
      ⟨call, hcall, -⟩ | ⟨-, timer, hwaits, htask, hdue⟩
    · simp [hempty] at hcall
    · have hlater := hpunctual.later hbottom timer hwaits (by rw [htask]; trivial)
      rw [hdue] at hlater
      exact ⟨Duration.elapsed_lt hle hlater, hlater⟩
  · subst heq
    obtain ⟨hrun, hstep⟩ := run.split
    have hearlier := orderly.earlier
    have hplaced := hrun.placed hearlier.tail.uncut hearlier.tail.epochs
    have hdealing := hplaced.dealing hstep (History.uncut_cons.mp hearlier.uncut).1
    have hwatched := (hrun.watched valid hearlier.tail).1
    exact ⟨hdealing.timesOut valid hwatched,
      fun timer serial kind epoch hruns htask hstale => hdealing.stale hruns htask hstale⟩

end

/-- So it is for a request that gets no reply: while nothing is under way it is young, and when its
deadline is run it times out. -/
theorem bounded_wait_of_listed :
    Config.validate {} = .ok {} ∧
    (∃ history e, Run .plain history e ∧ history.Uncut ∧ history.AdvancesOutermost ∧
      history.epochs < UInt64.size ∧ history.SerialsLast ∧ e.stack = [] ∧
      ∃ request ∈ e.hub.ledger.requests, request.kind = .getActivityInfo ∧
        request.age e.now < Config.blockingResponseTimeout {}) ∧
    ∃ m earlier e, Run .plain (m :: earlier) e ∧ History.Uncut (m :: earlier) ∧
      History.AdvancesOutermost (m :: earlier) ∧ History.epochs (m :: earlier) < UInt64.size ∧
      History.SerialsLast (m :: earlier) ∧
      ∃ timer request, m.TimesOut {} earlier timer request := by
  have valid : Config.validate {} = .ok {} := by decide +kernel
  refine ⟨valid, ?_, ?_⟩
  · obtain ⟨history, run, uncut, outermost, strides, hlength⟩ := Engine.exists_run_listed
    have epochs : history.epochs < UInt64.size :=
      Nat.lt_of_le_of_lt history.epochs_le (by rw [hlength]; decide)
    have serials : history.SerialsLast :=
      History.serialsLast_of_strides_lt (by rw [strides]; decide)
    have hbound := (Run.bounded_wait run valid uncut outermost epochs serials).1 rfl
      ⟨some (.submitted ⟨100⟩), by cbv⟩
    have hmem : _ ∈ Engine.listed.hub.ledger.requests := List.mem_singleton.mpr rfl
    exact ⟨history, Engine.listed, run, uncut, outermost, epochs, serials, rfl, _, hmem, rfl,
      (hbound _ hmem (by decide)).1⟩
  · obtain ⟨m, earlier, e, run, uncut, outermost, strides, hlength, hcounted⟩ :=
      Engine.exists_run_timedOut
    have epochs : History.epochs (m :: earlier) < UInt64.size :=
      Nat.lt_of_le_of_lt (History.epochs_le _) (by rw [List.length_cons, hlength]; decide)
    have serials : History.SerialsLast (m :: earlier) :=
      History.serialsLast_of_strides_lt (by rw [strides]; decide)
    exact ⟨m, earlier, e, run, uncut, outermost, epochs, serials,
      ((Run.bounded_wait run valid uncut outermost epochs serials).2 [] m earlier rfl).1 hcounted⟩

end ModemLink
