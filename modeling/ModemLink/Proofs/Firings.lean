import ModemLink.Proofs.StationRules
import ModemLink.Proofs.TimerQueue

/-!
# What an advance of the clock runs

An advance takes the tasks that are due off one by one and runs each with the clock at its deadline;
then it sets the clock to where it leads.  `Station.advance` counts the tasks it has run.  `Passes`
keeps each of them, with the station as the task found it and as it left it, so that a statement
about an advance can be made about each task of it.

* `runTask_timeline` -- a task leaves the timeline alone, so the tasks of an advance are some of
  those that waited when it began;
* `advance_passes` -- an advance that no overflow cuts off comes about in this way;
* `Passes.keeps`, `Passes.between` -- what every single task keeps an advance keeps, and where every
  task leads an advance leads.
-/

namespace ModemLink

namespace Station

open Clocked

/-! ## Actions that leave the timeline alone -/

/-- What happens to a station leaves its timeline as it is. -/
abbrev SameTimeline (before after : Station) : Prop := after.timeline = before.timeline

instance : IsPreorder Station SameTimeline where
  refl _ := rfl
  trans _ _ _ hab hbc := hbc.trans hab

theorem sameTimeline_complete (serial : Serial) : Leads SameTimeline (complete serial) := by
  intro s
  change SameTimeline s { s with ledger := (s.ledger.complete serial).2 }
  rfl

theorem sameTimeline_settle (request : PendingRequest) (result : RequestResult)
    (outcome : Outcome) : Leads SameTimeline (settle request result outcome) :=
  fun _ => wp_settle (fun _ _ _ _ => rfl) fun _ _ => trivial

theorem sameTimeline_expire (guard : Guard) (sequence : Nat) :
    Leads SameTimeline (expire guard sequence) :=
  fun _ => wp_expire (fun _ _ _ _ _ => rfl) fun _ _ => trivial

variable {epoch : Epoch} {s t : Station} {task : Task} {delivery : Option Delivery}

/-- A task leads where a completion, the settling of a request and the expiry of a unit lead. -/
theorem leads_runTask {r : Station → Station → Prop} [IsPreorder Station r]
    (hcomplete : ∀ serial, Leads r (complete serial))
    (hsettle : ∀ request result outcome, Leads r (settle request result outcome))
    (hexpire : ∀ guard sequence, Leads r (expire guard sequence)) (epoch : Epoch) (task : Task) :
    Leads r (runTask epoch task) := by
  cases task with
  | expiry guard sequence => exact (hexpire guard sequence).bind fun _ => moves_pure _
  | reconnect => exact moves_pure _
  | deadline serial kind sentIn => exact moves_overdue hcomplete hsettle serial sentIn epoch

/-- A task leaves the timeline alone. -/
theorem runTask_timeline (h : runTask epoch task s = .ok delivery t) :
    t.timeline = s.timeline :=
  (wp_of_ok h).mp (leads_runTask sameTimeline_complete sameTimeline_settle sameTimeline_expire
    epoch task s)

/-! ## The tasks of an advance -/

/-- A task that ran: the station as the task found it, the clock at its deadline, and as it left
it. -/
structure Firing where
  task : Task
  before : Station
  after : Station

/-- The tasks that are due by `target` run one after another, then the clock is set to `target`. -/
inductive Passes (epoch : Epoch) (target : Duration) : Station → List Firing → Station → Prop where
  | done {s : Station} (hnone : s.timeline.popDue? target = none) :
      Passes epoch target s [] { s with timeline := s.timeline.setNow target }
  | fire {s t u : Station} {task : Task} {timeline : Timeline Task} {delivery : Option Delivery}
      {firings : List Firing} (hpop : s.timeline.popDue? target = some (task, timeline))
      (htask : runTask epoch task { s with timeline } = .ok delivery t)
      (hrest : Passes epoch target t firings u) :
      Passes epoch target s (⟨task, { s with timeline }, t⟩ :: firings) u

/-- A length of time goes by at a station, and these tasks run in it. -/
def Lapses (epoch : Epoch) (length : Duration) (s : Station) (firings : List Firing)
    (t : Station) : Prop :=
  ∃ target, s.now.add? length = .ok target ∧ Passes epoch target s firings t

variable {target : Duration}

/-- Due tasks are run until there are none, if there is room for all that wait. -/
theorem runDue_passes {limit : Nat} {run : DueRun}
    (hlimit : run.station.timeline.waiting < limit)
    (hover : (runDue epoch target limit run).overflow = none) :
    ∃ firings, Passes epoch target run.station firings (runDue epoch target limit run).station ∧
      (runDue epoch target limit run).fired = run.fired + firings.length := by
  induction limit generalizing run with
  | zero => exact absurd hlimit (Nat.not_lt_zero _)
  | succ limit ih =>
      unfold runDue at hover ⊢
      cases hpop : run.station.timeline.popDue? target with
      | none => exact ⟨[], .done hpop, rfl⟩
      | some popped =>
          obtain ⟨task, timeline⟩ := popped
          simp only [hpop] at hover ⊢
          cases htask : runTask epoch task { run.station with timeline } with
          | error overflow t => simp [htask] at hover
          | ok delivery t =>
              simp only [htask] at hover ⊢
              have hfewer := Timeline.length_popDue? hpop
              have hsame : t.timeline = timeline := runTask_timeline htask
              have hroom : t.timeline.waiting < limit := by
                rw [hsame]
                unfold Timeline.waiting at hlimit ⊢
                omega
              obtain ⟨firings, hpasses, hfired⟩ := ih hroom hover
              refine ⟨_, .fire hpop htask hpasses, ?_⟩
              rw [hfired, List.length_cons]
              change run.fired + 1 + firings.length = run.fired + (firings.length + 1)
              omega

/-- An advance that no overflow cuts off runs the tasks that are due. -/
theorem advance_passes {length : Duration} (hover : (s.advance epoch length).overflow = none) :
    ∃ firings, s.Lapses epoch length firings (s.advance epoch length).station ∧
      (s.advance epoch length).fired = firings.length := by
  unfold Lapses now
  cases hsum : s.timeline.now.add? length with
  | error overflow => simp [advance, Timeline.beginAdvance, hsum, bind, Except.bind] at hover
  | ok target =>
      have hadvance : s.advance epoch length =
          runDue epoch target (s.timeline.waiting + 1) { station := s } := by
        simp [advance, Timeline.beginAdvance, hsum, bind, Except.bind, pure, Except.pure]
      rw [hadvance] at hover ⊢
      obtain ⟨firings, hpasses, hfired⟩ := runDue_passes (Nat.lt_succ_self _) hover
      exact ⟨firings, ⟨target, rfl, hpasses⟩, hfired.trans (Nat.zero_add _)⟩

/-- What every task keeps that is due by `target`, an advance to `target` keeps; and what is true of
each task that finds the station so is true of the tasks of the advance.  Until its end the advance
leaves the timeline in order. -/
theorem Passes.keeps {firings : List Firing} (h : Passes epoch target s firings t)
    (motive : Station → Prop) (fact : Firing → Prop) (hordered : s.timeline.Ordered) (hs : motive s)
    (hfire : ∀ {s t : Station} {task : Task} {timeline : Timeline Task}
      {delivery : Option Delivery}, s.timeline.Ordered → motive s →
      s.timeline.popDue? target = some (task, timeline) →
      runTask epoch task { s with timeline } = .ok delivery t →
      fact ⟨task, { s with timeline }, t⟩ ∧ motive t) :
    (∀ firing ∈ firings, fact firing) ∧
      ∃ last, motive last ∧ last.timeline.Ordered ∧ last.timeline.popDue? target = none ∧
        t = { last with timeline := last.timeline.setNow target } := by
  induction h with
  | done hnone => exact ⟨by simp, _, hs, hordered, hnone, rfl⟩
  | fire hpop htask _ ih =>
      have hsame := runTask_timeline htask
      have hordered' := (hordered.popDue hpop).1
      obtain ⟨hfact, hkept⟩ := hfire hordered hs hpop htask
      obtain ⟨hfacts, hlast⟩ := ih (by rw [hsame]; exact hordered') hkept
      refine ⟨fun firing hmem => ?_, hlast⟩
      rcases List.mem_cons.mp hmem with rfl | hrest
      · exact hfact
      · exact hfacts firing hrest

/-- If every task leads from a station to one that it is related to, then an advance does, and each
of its tasks lies in between. -/
theorem Passes.between {r : Station → Station → Prop} [IsPreorder Station r]
    {firings : List Firing} (h : Passes epoch target s firings t)
    (hclock : ∀ (s : Station) (timeline : Timeline Task), r s { s with timeline })
    (htask : ∀ {s t : Station} {task : Task} {delivery : Option Delivery},
      runTask epoch task s = .ok delivery t → r s t) :
    r s t ∧ ∀ firing ∈ firings, r s firing.before ∧ r firing.after t := by
  induction h with
  | done _ => exact ⟨hclock _ _, by simp⟩
  | @fire s t u task timeline _ firings _ hrun _ ih =>
      obtain ⟨hlast, hbetween⟩ := ih
      have hbefore : r s { s with timeline } := hclock s timeline
      have hafter : r s t := IsTrans.trans s _ t hbefore (htask hrun)
      refine ⟨IsTrans.trans s t u hafter hlast, fun firing hmem => ?_⟩
      rcases List.mem_cons.mp hmem with rfl | hrest
      · exact ⟨hbefore, hlast⟩
      · obtain ⟨hfirst, hlater⟩ := hbetween firing hrest
        exact ⟨IsTrans.trans s t _ hafter hfirst, hlater⟩

end Station

end ModemLink
