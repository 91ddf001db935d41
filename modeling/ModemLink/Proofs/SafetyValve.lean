import ModemLink.Proofs.UnitTimers

/-!
# When a guard is cleared by force

A guard that is held is never held past the timeout after its latest unit was taken, whatever mix of
calls led there; and a clearing comes at that very time.  Generations never go back, so the tickets
that a clearing has made worthless stay so.

* `Older` -- no action takes a generation back;
* `Watched.happens` -- what is true between two calls is kept by every call, and every timer that
  runs out meanwhile is on time;
* `GuardRun.cleared_on_time` -- how long a guard may be held, when it is cleared, and what a
  clearing does to the tickets that are out.
-/

namespace ModemLink

namespace Station

open Clocked

variable {s t : Station}

/-! ## Generations -/

/-- The generation of every guard has not gone back. -/
def Older (before after : Station) : Prop :=
  ∀ guard state, before.governor.state? guard = some state →
    ∃ changed, after.governor.state? guard = some changed ∧ state.generation ≤ changed.generation

instance : IsPreorder Station Older where
  refl _ _ state hstate := ⟨state, hstate, Nat.le_refl _⟩
  trans _ _ _ hab hbc guard state hstate := by
    obtain ⟨changed, hchanged, hle⟩ := hab guard state hstate
    obtain ⟨last, hlast, hle'⟩ := hbc guard changed hchanged
    exact ⟨last, hlast, Nat.le_trans hle hle'⟩

theorem Older.of_governor_eq (h : t.governor = s.governor) : Older s t := by
  intro guard state hstate
  rw [h]
  exact ⟨state, hstate, Nat.le_refl _⟩

/-- The present generation of a guard. -/
def generation? (s : Station) (guard : Guard) : Option Nat :=
  (s.governor.state? guard).map (·.generation)

theorem generation?_acquire {guard other : Guard} {source : WorkSource} {issued : Option Ticket}
    (h : acquire guard source s = .ok issued t) : t.generation? other = s.generation? other := by
  rcases acquire_eq_ok h with ⟨-, -, rfl⟩ | ⟨state, timeline, hstate, -, -, rfl⟩
  · rfl
  unfold generation?
  by_cases hother : guard = other
  · subst hother
    rw [Governor.state?_update_self hstate, hstate]
    rfl
  · rw [Governor.state?_update_of_ne hother]

theorem generation?_release {guard : Guard} {ticket : Ticket} {good : Bool}
    (h : release ticket s = .ok good t) : t.generation? guard = s.generation? guard := by
  have hsame : wp (release ticket) (fun _ t => t.generation? guard = s.generation? guard)
      (fun _ => True) s := by
    refine wp_release (fun good governor hrelease => ?_) fun _ => trivial
    unfold generation?
    cases hstate : s.governor.state? guard with
    | none =>
        cases guard with
        | unguarded => rfl
        | request => cases hstate
        | ack => cases hstate
    | some state =>
        obtain ⟨changed, hchanged, -, -, hgeneration⟩ := Governor.state?_release hstate hrelease
        rw [hchanged, Option.map_some, Option.map_some, hgeneration]
  exact (wp_of_ok h).mp hsame

theorem Older.of_generation?_eq (h : ∀ guard, t.generation? guard = s.generation? guard) :
    Older s t := by
  intro guard state hstate
  have hsame := h guard
  unfold generation? at hsame
  rw [hstate] at hsame
  obtain ⟨changed, hchanged, hgeneration⟩ := Option.map_eq_some_iff.mp hsame
  exact ⟨changed, hchanged, Nat.le_of_eq hgeneration.symm⟩

theorem older_acquire {guard : Guard} {source : WorkSource} {issued : Option Ticket}
    (h : acquire guard source s = .ok issued t) : Older s t :=
  .of_generation?_eq fun _ => generation?_acquire h

theorem older_release (ticket : Ticket) : Leads Older (release ticket) :=
  fun _ => wp_intro (fun _ _ h => .of_generation?_eq fun _ => generation?_release h)
    fun _ _ _ => trivial

theorem older_record (m : Measurement) : Leads Older (record m) :=
  fun _ => wp_record (fun _ _ => .of_governor_eq rfl) fun _ => trivial

theorem older_settle (request : PendingRequest) (result : RequestResult) (outcome : Outcome) :
    Leads Older (settle request result outcome) :=
  moves_settle older_release (fun _ _ => older_record _) request result

theorem older_expire (own : Guard) (sequence : Nat) : Leads Older (expire own sequence) := by
  refine fun s => wp_expire (fun cleared governor recorder hexpire _ guard state hstate => ?_)
    fun _ _ => trivial
  by_cases hguard : own = guard
  · subst hguard
    rcases Governor.state?_expire hstate hexpire with ⟨hsame, -⟩ | ⟨-, changed, hchanged, hclears⟩
    · exact ⟨state, hsame, Nat.le_refl _⟩
    · exact ⟨changed, hchanged, hclears.generation ▸ Nat.le_succ _⟩
  · exact ⟨state, (Governor.state?_expire_of_ne hguard hexpire).trans hstate, Nat.le_refl _⟩

theorem older_complete (serial : Serial) : Leads Older (complete serial) := by
  intro s
  change Older s { s with ledger := (s.ledger.complete serial).2 }
  exact .of_governor_eq rfl

theorem older_runTask {epoch : Epoch} {task : Task} {delivery : Option Delivery}
    (h : runTask epoch task s = .ok delivery t) : Older s t :=
  (wp_of_ok h).mp (leads_runTask older_complete older_settle older_expire epoch task s)

/-- An advance none of whose timers touches the books of a guard leaves them alone. -/
theorem Passes.state?_eq {guard : Guard} {epoch : Epoch} {target : Duration}
    {firings : List Firing} (h : Passes epoch target s firings t)
    (hsame : ∀ firing ∈ firings,
      firing.after.governor.state? guard = firing.before.governor.state? guard) :
    t.governor.state? guard = s.governor.state? guard := by
  induction h with
  | done _ => rfl
  | fire _ _ _ ih =>
      have hfirst := hsame _ (List.mem_cons_self ..)
      exact (ih fun firing hmem => hsame firing (List.mem_cons_of_mem _ hmem)).trans hfirst

/-- A ticket that a clearing has made worthless. -/
def Void (ticket : Ticket) (s : Station) : Prop :=
  ∃ state, s.governor.state? ticket.guard = some state ∧ ticket.generation < state.generation

/-- Once worthless, always worthless. -/
theorem Void.older {ticket : Ticket} (h : Void ticket s) (holder : Older s t) : Void ticket t := by
  obtain ⟨state, hstate, hlt⟩ := h
  obtain ⟨changed, hchanged, hle⟩ := holder ticket.guard state hstate
  exact ⟨changed, hchanged, Nat.lt_of_lt_of_le hlt hle⟩

/-- A worthless ticket is refused and changes nothing. -/
theorem Void.release {ticket : Ticket} (h : Void ticket s) :
    Station.release ticket s = .ok false s := by
  obtain ⟨state, hstate, hlt⟩ := h
  have hrefused := Governor.release_of_generation_ne hstate (Nat.ne_of_lt hlt) s.reading
  simp only [Station.release, within, hrefused]

end Station

open Station Clocked

/-! ## Runs -/

/-- A call to the governor of a station, or to its clock. -/
inductive GuardCall where
  | acquire (guard : Guard) (source : WorkSource)
  | release (ticket : Ticket)
  | advance (epoch : Epoch) (length : Duration)

/-- A call that was made: the station before and after it, the ticket that it issued, and the timers
that ran out during it, the first one in front. -/
structure GuardMoment where
  before : Station
  call : GuardCall
  issued : Option Ticket
  firings : List Firing
  after : Station

namespace GuardMoment

/-- What the calls do, as long as no overflow cuts them off. -/
inductive Happens : GuardMoment → Prop where
  | acquire {s t : Station} {guard : Guard} {source : WorkSource} {issued : Option Ticket}
      (hrun : Station.acquire guard source s = .ok issued t) :
      Happens ⟨s, .acquire guard source, issued, [], t⟩
  | release {s t : Station} {ticket : Ticket} {good : Bool}
      (hrun : Station.release ticket s = .ok good t) :
      Happens ⟨s, .release ticket, none, [], t⟩
  | advance {s : Station} {epoch : Epoch} {length : Duration} {firings : List Firing}
      (hover : (s.advance epoch length).overflow = none)
      (hlapses : s.Lapses epoch length firings (s.advance epoch length).station) :
      Happens ⟨s, .advance epoch length, none, firings, (s.advance epoch length).station⟩

/-- A new generation begins only where a timer runs out and changes the books. -/
theorem Happens.fired {m : GuardMoment} {guard : Guard}
    (h : m.Happens) (hnew : m.after.generation? guard ≠ m.before.generation? guard) :
    ∃ firing ∈ m.firings,
      firing.after.governor.state? guard ≠ firing.before.governor.state? guard := by
  cases h with
  | acquire hrun => exact absurd (generation?_acquire hrun) hnew
  | release hrun => exact absurd (generation?_release hrun) hnew
  | advance _ hlapses =>
      obtain ⟨target, -, hpasses⟩ := hlapses
      by_contra hnone
      push Not at hnone
      have hsame := hpasses.state?_eq hnone
      refine hnew ?_
      unfold generation?
      rw [hsame]

/-- When the call took a unit of a guard, if it did. -/
def takes? (m : GuardMoment) (guard : Guard) : Option Duration :=
  match m.call with
  | .acquire other _ => if guard = other then some m.before.now else none
  | _ => none

end GuardMoment

/-- When the latest unit of a guard was taken, in a history that has its latest call in front. -/
def latestTaken (history : List GuardMoment) (guard : Guard) : Option Duration :=
  history.findSome? (·.takes? guard)

/-- The calls made since a station was started, the latest in front, and the station after them. -/
inductive GuardRun (start : Station) : List GuardMoment → Station → Prop where
  | start : GuardRun start [] start
  | step {history : List GuardMoment} {m : GuardMoment} (hrun : GuardRun start history m.before)
      (hmoment : m.Happens) : GuardRun start (m :: history) m.after

theorem latestTaken_cons (m : GuardMoment) (history : List GuardMoment) (guard : Guard) :
    latestTaken (m :: history) guard = (m.takes? guard).or (latestTaken history guard) := by
  unfold latestTaken
  rw [List.findSome?_cons]
  cases m.takes? guard <;> rfl

/-- What is true between two calls: every guard is tied to its timers, none of which is due yet, and
every ticket is of a generation that has begun. -/
structure Watched (settings : StationSettings) (history : List GuardMoment) (s : Station) :
    Prop where
  guarded : Guarded settings (latestTaken history) s
  ordered : s.timeline.Ordered
  ahead : ∀ timer ∈ s.timeline.queue, s.now.nanos < timer.deadline.nanos
  past : ∀ old ∈ history, ∀ guard time, old.takes? guard = some time →
    ∃ taken, latestTaken history guard = some taken ∧ time.nanos ≤ taken.nanos
  passed : ∀ guard taken, latestTaken history guard = some taken → taken.nanos ≤ s.now.nanos
  begun : ∀ old ∈ history, ∀ ticket, old.issued = some ticket →
    ∃ state, s.governor.state? ticket.guard = some state ∧
      ticket.generation ≤ state.generation

namespace Watched

variable {settings : StationSettings} {history : List GuardMoment} {s : Station}

theorem start (settings : StationSettings) (spare : Nat) (seed : Option Int) (entropy : Entropy)
    (outside : OutsideStore) :
    Watched settings [] (Station.start settings spare seed entropy outside) := by
  refine ⟨⟨rfl, ?_, fun guard state hstate => ?_⟩, Timeline.ordered_start, ?_, by simp, ?_, by simp⟩
  · exact fun timer hmem => absurd hmem List.not_mem_nil
  · have hfresh : state = .fresh := by
      cases guard <;> cases hstate <;> rfl
    subst hfresh
    exact .fresh
  · exact fun timer hmem => absurd hmem List.not_mem_nil
  · intro guard taken htaken
    cases htaken

/-- What a call leaves as it was, apart from the unit that it takes. -/
theorem of_takes {m : GuardMoment} (h : Watched settings history m.before)
    (hguarded : Guarded settings (latestTaken (m :: history)) m.after)
    (hordered : m.after.timeline.Ordered)
    (hahead : ∀ timer ∈ m.after.timeline.queue, m.after.now.nanos < timer.deadline.nanos)
    (hnow : m.before.now.nanos ≤ m.after.now.nanos) (holder : Older m.before m.after)
    (hissued : ∀ ticket, m.issued = some ticket →
      ∃ state, m.before.governor.state? ticket.guard = some state ∧
        ticket.generation ≤ state.generation) :
    Watched settings (m :: history) m.after := by
  have htakes : ∀ guard time, m.takes? guard = some time → time = m.before.now := by
    intro guard time htime
    unfold GuardMoment.takes? at htime
    split at htime
    · split at htime <;> simp_all
    · cases htime
  have hlatest : ∀ guard taken, latestTaken (m :: history) guard = some taken →
      taken.nanos ≤ m.before.now.nanos := by
    intro guard taken htaken
    rw [latestTaken_cons, Option.or_eq_some_iff] at htaken
    rcases htaken with hown | ⟨-, hearlier⟩
    · rw [htakes guard taken hown]
    · exact h.passed guard taken hearlier
  refine ⟨hguarded, hordered, hahead, fun old hold guard time htime => ?_,
    fun guard taken htaken => Nat.le_trans (hlatest guard taken htaken) hnow,
    fun old hold ticket hticket => ?_⟩
  · rw [latestTaken_cons]
    rcases List.mem_cons.mp hold with rfl | hold
    · rw [htime]
      exact ⟨time, rfl, Nat.le_refl _⟩
    · obtain ⟨taken, htaken, hle⟩ := h.past old hold guard time htime
      cases hown : m.takes? guard with
      | none => exact ⟨taken, by rw [htaken]; rfl, hle⟩
      | some own =>
          refine ⟨own, rfl, ?_⟩
          rw [htakes guard own hown]
          exact Nat.le_trans hle (h.passed guard taken htaken)
  · have hbefore : ∃ state, m.before.governor.state? ticket.guard = some state ∧
        ticket.generation ≤ state.generation := by
      rcases List.mem_cons.mp hold with rfl | hold
      · exact hissued ticket hticket
      · exact h.begun old hold ticket hticket
    obtain ⟨state, hstate, hle⟩ := hbefore
    obtain ⟨changed, hchanged, hle'⟩ := holder ticket.guard state hstate
    exact ⟨changed, hchanged, Nat.le_trans hle hle'⟩

/-- A unit that is taken becomes the latest one of its guard, and its timer is not due yet. -/
theorem acquire {t : Station} {guard : Guard} {source : WorkSource} {issued : Option Ticket}
    (h : Watched settings history s) (hrequest : 0 < settings.requestTimeout.nanos)
    (hack : 0 < settings.ackTimeout.nanos) (hrun : Station.acquire guard source s = .ok issued t) :
    Watched settings (⟨s, .acquire guard source, issued, [], t⟩ :: history) t := by
  have hguarded := h.guarded.acquire hrun
  have hlatest : latestTaken (⟨s, .acquire guard source, issued, [], t⟩ :: history) =
      fun other => if other = guard then some s.now else latestTaken history other := by
    funext other
    rw [latestTaken_cons]
    unfold GuardMoment.takes?
    by_cases hother : other = guard <;> simp [hother]
  rw [← hlatest] at hguarded
  have holder := older_acquire hrun
  rcases acquire_eq_ok hrun with ⟨-, rfl, rfl⟩ | ⟨state, timeline, hstate, rfl, hschedule, rfl⟩
  · exact h.of_takes hguarded h.ordered h.ahead (Nat.le_refl _) holder (by simp)
  have hpositive : 0 < (s.settings.timeout guard).nanos := by
    rw [h.guarded.kept]
    cases guard <;> assumption
  refine h.of_takes hguarded (h.ordered.schedule hschedule) ?_ ?_ holder ?_
  · obtain ⟨deadline, hdeadline, rfl⟩ := Timeline.schedule_eq_ok hschedule
    intro timer hmem
    change s.timeline.now.nanos < timer.deadline.nanos
    rcases List.mem_cons.mp ((Timeline.perm_enqueue _ _).mem_iff.mp hmem) with rfl | hold
    · change s.timeline.now.nanos < deadline.nanos
      omega
    · exact h.ahead timer hold
  · obtain ⟨deadline, -, rfl⟩ := Timeline.schedule_eq_ok hschedule
    exact Nat.le_refl _
  · intro ticket hticket
    cases hticket
    exact ⟨state, hstate, Nat.le_refl _⟩

/-- A unit that is given back leaves the timers alone. -/
theorem release {t : Station} {ticket : Ticket} {good : Bool} (h : Watched settings history s)
    (hrun : Station.release ticket s = .ok good t) :
    Watched settings (⟨s, .release ticket, none, [], t⟩ :: history) t := by
  have holder : Older s t := (wp_of_ok hrun).mp (older_release ticket s)
  have hsame : wp (Station.release ticket) (fun _ t => t.timeline = s.timeline)
      (fun _ => True) s := wp_release (fun _ _ _ => rfl) fun _ => trivial
  have htimeline : t.timeline = s.timeline := (wp_of_ok hrun).mp hsame
  refine h.of_takes (h.guarded.release hrun) ?_ ?_ ?_ holder (by simp)
  · rw [htimeline]
    exact h.ordered
  · unfold Station.now
    rw [htimeline]
    exact h.ahead
  · unfold Station.now
    rw [htimeline]

/-- The timers that run out in an advance do so on time, and it leaves none that is due. -/
theorem advance {t : Station} {epoch : Epoch} {length : Duration} {firings : List Firing}
    (h : Watched settings history s) (hlapses : s.Lapses epoch length firings t)
    (holder : Older s t) :
    Watched settings (⟨s, .advance epoch length, none, firings, t⟩ :: history) t ∧
      ∀ firing ∈ firings, ∀ guard,
        firing.OnTime (settings.timeout guard) (latestTaken history guard) guard := by
  obtain ⟨target, hsum, hpasses⟩ := hlapses
  have htarget := Duration.add?_eq_ok_iff.mp hsum
  obtain ⟨hontime, last, hlast, hordered, hnone, rfl⟩ :=
    hpasses.keeps (Guarded settings (latestTaken history))
      (fun firing => ∀ guard,
        firing.OnTime (settings.timeout guard) (latestTaken history guard) guard)
      h.ordered h.guarded fun _ hguarded hpop hrun => hguarded.fire hpop hrun
  refine ⟨h.of_takes ?_ (hordered.setNow hnone) (hordered.lt_deadline hnone) ?_ holder (by simp),
    hontime⟩
  · exact ⟨hlast.kept, hlast.tasks, fun guard state hstate =>
      ⟨(hlast.valve guard state hstate).known, (hlast.valve guard state hstate).due,
        (hlast.valve guard state hstate).armed⟩⟩
  · change s.now.nanos ≤ target.nanos
    omega

/-- Every call keeps it, and every timer that runs out during it is on time. -/
theorem happens {m : GuardMoment} (h : Watched settings history m.before)
    (hrequest : 0 < settings.requestTimeout.nanos) (hack : 0 < settings.ackTimeout.nanos)
    (hmoment : m.Happens) :
    Watched settings (m :: history) m.after ∧
      (∀ firing ∈ m.firings, ∀ guard,
        firing.OnTime (settings.timeout guard) (latestTaken history guard) guard) ∧
      Older m.before m.after ∧
      ∀ firing ∈ m.firings, Older m.before firing.before ∧ Older firing.after m.after := by
  cases hmoment with
  | acquire hrun =>
      exact ⟨h.acquire hrequest hack hrun, by simp, older_acquire hrun, by simp⟩
  | release hrun =>
      exact ⟨h.release hrun, by simp, (wp_of_ok hrun).mp (older_release _ _), by simp⟩
  | advance hover hlapses =>
      obtain ⟨target, hsum, hpasses⟩ := hlapses
      have hbetween := hpasses.between (fun _ _ => Older.of_governor_eq rfl) older_runTask
      obtain ⟨hwatched, hontime⟩ := h.advance ⟨target, hsum, hpasses⟩ hbetween.1
      exact ⟨hwatched, hontime, hbetween.1, hbetween.2⟩

end Watched

namespace GuardRun

variable {settings : StationSettings} {spare : Nat} {seed : Option Int} {entropy : Entropy}
  {outside : OutsideStore} {history : List GuardMoment} {s : Station}

/-- Between two calls every guard is tied to its timers. -/
theorem watched (run : GuardRun (.start settings spare seed entropy outside) history s)
    (hrequest : 0 < settings.requestTimeout.nanos) (hack : 0 < settings.ackTimeout.nanos) :
    Watched settings history s := by
  induction run with
  | start => exact .start settings spare seed entropy outside
  | step _ hmoment ih => exact (ih.happens hrequest hack hmoment).1

/-- A guard that is held is younger than its timeout, counted from its latest unit. -/
theorem held_lt (run : GuardRun (.start settings spare seed entropy outside) history s)
    (hrequest : 0 < settings.requestTimeout.nanos) (hack : 0 < settings.ackTimeout.nanos)
    {guard : Guard} (hheld : 0 < s.governor.count guard) :
    ∃ taken, latestTaken history guard = some taken ∧
      s.now.nanos < taken.nanos + (settings.timeout guard).nanos := by
  have hwatched := run.watched hrequest hack
  unfold Governor.count at hheld
  cases hstate : s.governor.state? guard with
  | none =>
      rw [hstate] at hheld
      exact absurd hheld (Nat.lt_irrefl 0)
  | some state =>
      rw [hstate] at hheld
      have hvalve := hwatched.guarded.valve guard state hstate
      obtain ⟨timer, hmem, htask⟩ := hvalve.armed hheld
      obtain ⟨taken, htaken, hdue⟩ := hvalve.due timer hmem htask
      exact ⟨taken, htaken, hdue ▸ hwatched.ahead timer hmem⟩

/-- What a call did is seen in the history, and the calls before it are a run. -/
theorem split {start : Station} {later earlier : List GuardMoment} {m : GuardMoment}
    (run : GuardRun start (later ++ m :: earlier) s) :
    GuardRun start earlier m.before ∧ m.Happens ∧ GuardRun m.after later s := by
  induction later generalizing s with
  | nil =>
      cases run with
      | step hrun hmoment => exact ⟨hrun, hmoment, .start⟩
  | cons latest rest ih =>
      cases run with
      | step hrun hmoment =>
          obtain ⟨hearlier, hm, hrest⟩ := ih hrun
          exact ⟨hearlier, hm, hrest.step hmoment⟩

/-- No generation goes back in a run. -/
theorem older {start : Station} (run : GuardRun start history s) : Older start s := by
  induction run with
  | start => exact Std.Refl.refl start
  | @step history m hrun hmoment ih =>
      refine IsTrans.trans start m.before m.after ih ?_
      cases hmoment with
      | acquire hacquire => exact older_acquire hacquire
      | release hrelease => exact (wp_of_ok hrelease).mp (older_release _ _)
      | advance _ hlapses =>
          obtain ⟨target, -, hpasses⟩ := hlapses
          exact (hpasses.between (fun _ _ => Older.of_governor_eq rfl) older_runTask).1

/-- **The safety valve.**  Between two calls a guard that is held is younger than its timeout,
counted from the time its latest unit was taken.  A new generation begins only where a timer that
runs out during a call clears the guard.  It runs out exactly when the timeout has passed since the
latest unit was taken, so no unit that was ever taken is younger than that; the count is then zero;
and every ticket that was issued before is refused from then on, and changes nothing. -/
theorem cleared_on_time (run : GuardRun (.start settings spare seed entropy outside) history s)
    (hrequest : 0 < settings.requestTimeout.nanos) (hack : 0 < settings.ackTimeout.nanos)
    (guard : Guard) :
    (0 < s.governor.count guard →
      ∃ taken, latestTaken history guard = some taken ∧
        s.now.nanos < taken.nanos + (settings.timeout guard).nanos) ∧
    ∀ later m earlier, history = later ++ m :: earlier →
      (m.after.generation? guard ≠ m.before.generation? guard →
        ∃ firing ∈ m.firings,
          firing.after.governor.state? guard ≠ firing.before.governor.state? guard) ∧
      ∀ firing ∈ m.firings,
        firing.after.governor.state? guard ≠ firing.before.governor.state? guard →
        (∃ taken, latestTaken earlier guard = some taken ∧
          firing.before.now.nanos = taken.nanos + (settings.timeout guard).nanos) ∧
        (∀ old ∈ earlier, ∀ time, old.takes? guard = some time →
          time.nanos + (settings.timeout guard).nanos ≤ firing.before.now.nanos) ∧
        (∃ state cleared, firing.before.governor.state? guard = some state ∧
          firing.after.governor.state? guard = some cleared ∧ Governor.Clears state cleared) ∧
        ∀ old ∈ earlier, ∀ ticket, old.issued = some ticket → ticket.guard = guard →
          Station.release ticket s = .ok false s := by
  refine ⟨fun hheld => run.held_lt hrequest hack hheld, ?_⟩
  rintro later m earlier rfl
  obtain ⟨hearlier, hmoment, hlater⟩ := run.split
  refine ⟨hmoment.fired, fun firing hfiring hchanged => ?_⟩
  have hwatched := hearlier.watched hrequest hack
  obtain ⟨-, hontime, -, hbetween⟩ := hwatched.happens hrequest hack hmoment
  rcases hontime firing hfiring guard with hsame | ⟨⟨taken, htaken, hdue⟩, hcleared⟩
  · exact absurd hsame hchanged
  refine ⟨⟨taken, htaken, hdue⟩, fun old hold time htime => ?_, hcleared, ?_⟩
  · obtain ⟨latest, hlatest, hle⟩ := hwatched.past old hold guard time htime
    rw [htaken] at hlatest
    cases hlatest
    omega
  · rintro old hold ticket hticket rfl
    obtain ⟨state, cleared, hbefore, hafter, hclears⟩ := hcleared
    obtain ⟨first, hfirst, hle⟩ := hwatched.begun old hold ticket hticket
    obtain ⟨hto, hfrom⟩ := hbetween firing hfiring
    obtain ⟨known, hknown, hle'⟩ := hto ticket.guard first hfirst
    rw [hbefore] at hknown
    cases hknown
    have hvoid : Void ticket firing.after := by
      refine ⟨cleared, hafter, ?_⟩
      rw [hclears.generation]
      omega
    exact ((hvoid.older hfrom).older hlater.older).release

/-- Every call that no overflow cuts off can be made. -/
theorem acquire {start t : Station} (run : GuardRun start history s) (guard : Guard)
    (source : WorkSource) {issued : Option Ticket}
    (hcall : Station.acquire guard source s = .ok issued t) :
    GuardRun start (⟨s, .acquire guard source, issued, [], t⟩ :: history) t :=
  run.step (.acquire hcall)

theorem advance {start : Station} (run : GuardRun start history s) (epoch : Epoch)
    (length : Duration) (hover : (s.advance epoch length).overflow = none) :
    ∃ firings,
      GuardRun start
        (⟨s, .advance epoch length, none, firings, (s.advance epoch length).station⟩ :: history)
        (s.advance epoch length).station := by
  obtain ⟨firings, hlapses, -⟩ := advance_passes hover
  exact ⟨firings, run.step (.advance hover hlapses)⟩

end GuardRun

/-- A unit is taken at the start of the clock and another after 1 s.  With a timeout of 2 s the
timer of the first one is stale when it runs out, and the guard is cleared after 3 s.  From then on
the ticket of the first unit is refused. -/
theorem cleared_on_time_of_two_units :
    ∃ history s,
      GuardRun (.start ⟨.ofMillis 2000, .ofMillis 1000, .zero, [], .phone⟩ 0 (some 0) ⟨[]⟩ .silent)
        history s ∧
      (∃ m ∈ history, ∃ firing ∈ m.firings,
        firing.after.governor.state? .request ≠ firing.before.governor.state? .request ∧
          firing.before.now.nanos = 3000000000) ∧
      Station.release ⟨.request, 0, .phone⟩ s = .ok false s := by
  have started : GuardRun
      (.start ⟨.ofMillis 2000, .ofMillis 1000, .zero, [], .phone⟩ 0 (some 0) ⟨[]⟩ .silent) [] _ :=
    .start
  have first := started.acquire .request .phone rfl
  obtain ⟨early, waiting⟩ := first.advance .start (.ofMillis 1000) rfl
  have second := waiting.acquire .request .phone rfl
  obtain ⟨due, cleared⟩ := second.advance .start (.ofMillis 2000) rfl
  have hcleared := (cleared.cleared_on_time (by decide) (by decide) .request).2 []
    _ _ rfl
  obtain ⟨hnew, hfirings⟩ := hcleared
  obtain ⟨firing, hmem, hchanged⟩ := hnew (by dsimp only; decide +kernel)
  obtain ⟨⟨taken, htaken, hdue⟩, -, -, hrefused⟩ := hfirings firing hmem hchanged
  refine ⟨_, _, cleared, ⟨_, List.mem_cons_self .., firing, hmem, hchanged, ?_⟩, ?_⟩
  · obtain rfl : Duration.ofMillis 1000 = taken := Option.some.inj htaken
    rw [hdue]
    rfl
  · exact hrefused _
      (List.mem_cons_of_mem _ (List.mem_cons_of_mem _ (List.mem_cons_self ..))) _ rfl rfl

end ModemLink
