import Mathlib.Logic.Function.Basic
import ModemLink.Proofs.StationRules

/-!
# Settling requests in any order

To settle a request is to give its unit back, if it still holds one, and to enter its outcome and
its latency.  Each of these may fail, because a sum of durations leaves its range.  What remains of
the governor and the recorder when the calls to the power manager and the order of rows are set
aside is an account, and on accounts settlements commute: the units of a guard are counted off one
by one whoever holds them, the stretch of holding ends with the last of them at the same time in
either order, and sums and maxima do not know the order of what was added.

* `Commutes`, `Commutes.foldlM_perm` -- actions that may fail and may be exchanged; a list of them
  comes to the same in every order;
* `commutes_giveBack`, `commutes_enter`, `commutes_settled` -- units, measurements, and settlements;
* `Station.settle_eq_ok`, `Station.settle_eq_error` -- a settlement at a station is one of its
  account.
-/

namespace ModemLink

open scoped List

/-! ## Actions that may be exchanged -/

section Commutes

variable {ι σ τ : Type}

/-- Of two actions either may come first. -/
def Commutes (act : ι → σ → Option σ) : Prop :=
  ∀ i j s, (act i s).bind (act j) = (act j s).bind (act i)

/-- An action on each of two parts; it fails if either does. -/
def onBoth (left : ι → σ → Option σ) (right : ι → τ → Option τ) (i : ι) (s : σ × τ) :
    Option (σ × τ) :=
  (left i s.1).bind fun a => (right i s.2).map fun b => (a, b)

theorem onBoth_eq_some_iff {left : ι → σ → Option σ} {right : ι → τ → Option τ} {i : ι}
    {s t : σ × τ} :
    onBoth left right i s = some t ↔ left i s.1 = some t.1 ∧ right i s.2 = some t.2 := by
  rcases t with ⟨a, b⟩
  simp only [onBoth, Option.bind_eq_some_iff, Option.map_eq_some_iff, Prod.mk.injEq]
  constructor
  · rintro ⟨a', ha, b', hb, rfl, rfl⟩
    exact ⟨ha, hb⟩
  · rintro ⟨ha, hb⟩
    exact ⟨a, ha, b, hb, rfl, rfl⟩

/-- Two actions in a row succeed as they do on each part. -/
theorem onBoth_bind_eq_some_iff {left : ι → σ → Option σ} {right : ι → τ → Option τ} {i j : ι}
    {s t : σ × τ} :
    (onBoth left right i s).bind (onBoth left right j) = some t ↔
      (left i s.1).bind (left j) = some t.1 ∧ (right i s.2).bind (right j) = some t.2 := by
  simp only [Option.bind_eq_some_iff, onBoth_eq_some_iff]
  constructor
  · rintro ⟨middle, ⟨ha, hb⟩, ha', hb'⟩
    exact ⟨⟨middle.1, ha, ha'⟩, middle.2, hb, hb'⟩
  · rintro ⟨⟨a, ha, ha'⟩, b, hb, hb'⟩
    exact ⟨(a, b), ⟨ha, hb⟩, ha', hb'⟩

theorem Commutes.onBoth {left : ι → σ → Option σ} {right : ι → τ → Option τ}
    (hleft : Commutes left) (hright : Commutes right) : Commutes (onBoth left right) := by
  intro i j s
  refine Option.ext fun t => ?_
  rw [onBoth_bind_eq_some_iff, onBoth_bind_eq_some_iff, hleft i j, hright i j]

/-- A list of actions comes to the same in every order. -/
theorem Commutes.foldlM_perm {act : ι → σ → Option σ} (h : Commutes act) {items items' : List ι}
    (hperm : items ~ items') (s : σ) :
    items.foldlM (fun s i => act i s) s = items'.foldlM (fun s i => act i s) s := by
  induction hperm generalizing s with
  | nil => rfl
  | cons i _ ih =>
      rw [List.foldlM_cons, List.foldlM_cons]
      congr 1
      funext t
      exact ih t
  | swap i j rest =>
      have hswap := h j i s
      simp only [List.foldlM_cons, bind] at hswap ⊢
      rw [← Option.bind_assoc, ← Option.bind_assoc, hswap]
  | trans _ _ ih ih' => exact (ih s).trans (ih' s)

end Commutes

/-- What is settled about a request: the unit it still holds, its kind, its outcome, and how long it
was pending. -/
structure Settlement where
  ticket : Option Ticket
  kind : RequestKind
  outcome : Outcome
  latency : Duration

/-! ## Units of a guard -/

namespace GuardState

/-- The books of a guard after a unit was given back, unless the time held leaves its range. -/
def giveUnit (now : Duration) (ticket : Ticket) (state : GuardState) : Option GuardState :=
  if ticket.generation ≠ state.generation then some state
  else if state.count = 0 then some state
  else if state.count = 1 then
    match state.heldUpTo now with
    | .ok heldTotal =>
      some { state with count := 0, attributed := [], heldSince := none, heldTotal }
    | .error _ => none
  else
    some { state with
      count := state.count - 1
      attributed := dropUnit ticket.source state.attributed }

/-- Units of two sources may be struck in either order. -/
theorem dropUnit_comm (a b : WorkSource) (rows : List (WorkSource × Nat)) :
    dropUnit a (dropUnit b rows) = dropUnit b (dropUnit a rows) := by
  by_cases hab : a = b
  · rw [hab]
  induction rows with
  | nil => rfl
  | cons row rest ih =>
      obtain ⟨first, units⟩ := row
      by_cases ha : first = a
      · subst ha
        by_cases hunits : units ≤ 1 <;> simp [dropUnit, hab, hunits]
      · by_cases hb : first = b
        · subst hb
          by_cases hunits : units ≤ 1 <;> simp [dropUnit, ha, hunits]
        · simp [dropUnit, ha, hb, ih]

section

variable {now : Duration} {ticket : Ticket} {state after : GuardState}

theorem giveUnit_of_void (h : ticket.generation ≠ state.generation) :
    giveUnit now ticket state = some state := by
  simp [giveUnit, h]

theorem giveUnit_of_count_eq_zero (h : state.count = 0) :
    giveUnit now ticket state = some state := by
  simp [giveUnit, h]

/-- A unit can be given back as long as the time held stays in range. -/
theorem giveUnit_ne_none {heldTotal : Duration} (h : state.heldUpTo now = .ok heldTotal)
    (ticket : Ticket) : giveUnit now ticket state ≠ none := by
  unfold giveUnit
  rw [h]
  split
  · simp
  split
  · simp
  split <;> simp

theorem generation_of_giveUnit (h : giveUnit now ticket state = some after) :
    after.generation = state.generation := by
  unfold giveUnit at h
  split at h
  · cases h
    rfl
  split at h
  · cases h
    rfl
  split at h
  · split at h <;> cases h
    rfl
  · cases h
    rfl

/-- A worthless ticket may be given back before or after any other. -/
theorem giveUnit_bind_of_void (h : ticket.generation ≠ state.generation) (other : Ticket) :
    (giveUnit now ticket state).bind (giveUnit now other) =
      (giveUnit now other state).bind (giveUnit now ticket) := by
  rw [giveUnit_of_void h, Option.bind_some]
  cases hother : giveUnit now other state with
  | none => rfl
  | some after =>
      have hgeneration := generation_of_giveUnit hother
      exact (giveUnit_of_void (by rwa [hgeneration])).symm

/-- Units may be given back in either order: the last one ends the stretch of holding, whichever it
is. -/
theorem commutes_giveUnit (now : Duration) : Commutes (giveUnit now) := by
  intro a b state
  by_cases ha : a.generation ≠ state.generation
  · exact giveUnit_bind_of_void ha b
  by_cases hb : b.generation ≠ state.generation
  · exact (giveUnit_bind_of_void hb a).symm
  rcases hcount : state.count with _ | _ | more
  · rw [giveUnit_of_count_eq_zero hcount, giveUnit_of_count_eq_zero hcount, Option.bind_some,
      Option.bind_some, giveUnit_of_count_eq_zero hcount, giveUnit_of_count_eq_zero hcount]
  · -- either one is the last unit; the other ticket finds none
    cases hheld : state.heldUpTo now <;> simp [giveUnit, ha, hb, hcount, hheld]
  · cases more with
    | zero => simp [giveUnit, ha, hb, hcount, heldUpTo]
    | succ more => simp [giveUnit, ha, hb, hcount, dropUnit_comm]

end

/-- The books of a guard after the unit of a settled request was given back, if it held one of
them. -/
def giveBack (guard : Guard) (now : Duration) (item : Settlement) (state : GuardState) :
    Option GuardState :=
  match item.ticket with
  | none => some state
  | some ticket => if ticket.guard = guard then giveUnit now ticket state else some state

theorem commutes_giveBack (guard : Guard) (now : Duration) : Commutes (giveBack guard now) := by
  intro a b state
  have hskip : ∀ (item : Settlement) (state : GuardState),
      (∀ ticket, item.ticket = some ticket → ticket.guard ≠ guard) →
      giveBack guard now item state = some state := by
    intro item state hne
    unfold giveBack
    split
    · rfl
    · rename_i ticket hticket
      exact if_neg (hne ticket hticket)
  have hgive : ∀ {item : Settlement} {ticket : Ticket}, item.ticket = some ticket →
      ticket.guard = guard → giveBack guard now item = giveUnit now ticket := by
    intro item ticket hticket hguard
    funext state
    simp [giveBack, hticket, hguard]
  by_cases ha : ∃ ticket, a.ticket = some ticket ∧ ticket.guard = guard
  · by_cases hb : ∃ ticket, b.ticket = some ticket ∧ ticket.guard = guard
    · obtain ⟨ticket, hticket, hguard⟩ := ha
      obtain ⟨other, hother, hguard'⟩ := hb
      rw [hgive hticket hguard, hgive hother hguard']
      exact commutes_giveUnit now ticket other state
    · push Not at hb
      rw [hskip b state hb, Option.bind_some]
      exact Option.bind_congr (fun after _ => hskip b after hb) |>.trans (Option.bind_fun_some _)
  · push Not at ha
    rw [hskip a state ha, Option.bind_some]
    exact ((Option.bind_congr fun after _ => hskip a after ha).trans
      (Option.bind_fun_some _)).symm

end GuardState

/-! ## Measurements -/

theorem Duration.longer_right_comm (a b c : Duration) :
    (a.longer b).longer c = (a.longer c).longer b := by
  refine Duration.ext ?_
  simp only [Duration.nanos_longer]
  omega

/-- What the books show: the counters, and the latencies of each kind. -/
structure Figures where
  counters : Counters
  latency : RequestKind → Option Latency

namespace Latency

/-- The latencies of a kind after one more, unless their sum leaves its range. -/
def more? (latency : Duration) (stats : Latency) : Option Latency :=
  match record latency stats with
  | .ok () after => some after
  | .error _ _ => Option.none

theorem more?_eq_some_iff {latency : Duration} {stats after : Latency} :
    more? latency stats = some after ↔
      after.count = stats.count + 1 ∧ after.total.nanos = stats.total.nanos + latency.nanos ∧
        after.max = stats.max.longer latency := by
  unfold more? record
  cases hsum : stats.total.add? latency with
  | error overflow =>
      refine ⟨fun h => ?_, fun h => ?_⟩
      · cases h
      · rw [Duration.add?_eq_ok_iff.mpr h.2.1] at hsum
        cases hsum
  | ok total =>
      have htotal := Duration.add?_eq_ok_iff.mp hsum
      simp only [Option.some.injEq]
      constructor
      · intro h
        cases h
        exact ⟨rfl, htotal, rfl⟩
      · rcases after with ⟨count, total', longest⟩
        rintro ⟨rfl, hafter, rfl⟩
        obtain rfl : total = total' := Duration.ext (htotal.trans hafter.symm)
        rfl

/-- Two latencies are entered if the sum of all stays in range. -/
theorem more?_bind_eq_some_iff {a b : Duration} {stats after : Latency} :
    (more? a stats).bind (more? b) = some after ↔
      after.count = stats.count + 1 + 1 ∧
        after.total.nanos = stats.total.nanos + (a.nanos + b.nanos) ∧
        after.max = (stats.max.longer a).longer b := by
  simp only [Option.bind_eq_some_iff, more?_eq_some_iff]
  constructor
  · rintro ⟨middle, ⟨hcount, htotal, hmax⟩, hcount', htotal', hmax'⟩
    rw [hcount] at hcount'
    rw [hmax] at hmax'
    exact ⟨hcount', by omega, hmax'⟩
  · rintro ⟨hcount, htotal, hmax⟩
    have hle := after.total.nanos_le
    refine ⟨⟨stats.count + 1, ⟨stats.total.nanos + a.nanos, by omega⟩, stats.max.longer a⟩,
      ⟨rfl, rfl, rfl⟩, hcount, ?_, hmax⟩
    rw [htotal, Nat.add_assoc]

/-- The order of two latencies does not matter. -/
theorem commutes_more? : Commutes more? := by
  intro a b stats
  refine Option.ext fun after => ?_
  rw [more?_bind_eq_some_iff, more?_bind_eq_some_iff, Nat.add_comm a.nanos,
    Duration.longer_right_comm]

end Latency

theorem Counters.addOutcome_comm (c : Counters) (a b : Outcome) :
    (c.addOutcome a).addOutcome b = (c.addOutcome b).addOutcome a := by
  cases a <;> cases b <;> rfl

namespace Figures

/-- The latencies of a kind that a completion is added to. -/
def stats (figures : Figures) (kind : RequestKind) : Latency :=
  (figures.latency kind).getD .none

/-- The figures with an outcome counted and the latencies of a kind replaced. -/
def write (figures : Figures) (item : Settlement) (stats : Latency) : Figures :=
  ⟨figures.counters.addOutcome item.outcome,
    Function.update figures.latency item.kind (some stats)⟩

/-- The figures after a settled request was entered. -/
def enter (item : Settlement) (figures : Figures) : Option Figures :=
  ((figures.stats item.kind).more? item.latency).map (figures.write item)

theorem stats_write_self (figures : Figures) (item : Settlement) (stats : Latency) :
    (figures.write item stats).stats item.kind = stats := by
  simp [Figures.stats, write]

theorem stats_write_of_ne {kind : RequestKind} {item : Settlement} (h : kind ≠ item.kind)
    (figures : Figures) (stats : Latency) :
    (figures.write item stats).stats kind = figures.stats kind := by
  simp [Figures.stats, write, Function.update_of_ne h]

/-- Of two requests of one kind the latencies are added one after the other. -/
theorem enter_bind_of_kind_eq {a b : Settlement} (h : a.kind = b.kind) (figures : Figures) :
    (enter a figures).bind (enter b) =
      (((figures.stats a.kind).more? a.latency).bind (Latency.more? b.latency)).map fun stats =>
        ⟨(figures.counters.addOutcome a.outcome).addOutcome b.outcome,
          Function.update figures.latency a.kind (some stats)⟩ := by
  unfold enter
  cases (figures.stats a.kind).more? a.latency with
  | none => rfl
  | some stats =>
      simp only [Option.map_some, Option.bind_some]
      rw [← h, stats_write_self]
      congr 1
      funext more
      simp [write, ← h]

/-- Measurements of completions may be entered in either order. -/
theorem commutes_enter : Commutes enter := by
  intro a b figures
  by_cases hkind : a.kind = b.kind
  · rw [enter_bind_of_kind_eq hkind, enter_bind_of_kind_eq hkind.symm, Counters.addOutcome_comm,
      Latency.commutes_more? a.latency b.latency, hkind]
  · have hne : b.kind ≠ a.kind := fun h => hkind h.symm
    unfold enter
    cases ha : (figures.stats a.kind).more? a.latency <;>
      cases hb : (figures.stats b.kind).more? b.latency <;>
      simp [stats_write_of_ne hkind, stats_write_of_ne hne, ha, hb]
    simp [write, Function.update_comm hkind, Counters.addOutcome_comm]

end Figures

/-! ## Accounts -/

namespace Clocked

variable {σ τ α β : Type}

/-- The state in which an action ends, if no overflow cuts it short. -/
def ends? (act : Clocked σ α) (s : σ) : Option σ :=
  match act s with
  | .ok _ t => some t
  | .error _ _ => none

theorem ends?_eq_some_iff {act : Clocked σ α} {s t : σ} :
    ends? act s = some t ↔ ∃ a, act s = .ok a t := by
  unfold ends?
  cases act s <;> simp

theorem ends?_bind_const (act : Clocked σ α) (next : Clocked σ β) (s : σ) :
    ends? (act >>= fun _ => next) s = (ends? act s).bind (ends? next) := by
  cases hact : act s with
  | ok a t => simp [ends?, bind_of_ok hact, hact]
  | error overflow t => simp [ends?, bind_of_error hact, hact]

/-- Actions that come to the same end alike. -/
theorem ends?_congr {act : Clocked σ α} {other : Clocked σ β} {s : σ}
    (h : ∀ t, (∃ a, act s = .ok a t) ↔ ∃ b, other s = .ok b t) : ends? act s = ends? other s := by
  refine Option.ext fun t => ?_
  rw [ends?_eq_some_iff, ends?_eq_some_iff, h]

@[simp] theorem ends?_get_bind (next : σ → Clocked σ α) (s : σ) :
    ends? (get >>= next) s = ends? (next s) s := rfl

theorem ends?_within (get : σ → τ) (set : τ → σ → σ) (act : Clocked τ α) (s : σ) :
    ends? (within get set act) s = (ends? act (get s)).map fun t => set t s := by
  unfold ends? within
  cases act (get s) <;> rfl

end Clocked

open Clocked

namespace Governor

/-- The books of both guards. -/
def guards (governor : Governor) : GuardState × GuardState := (governor.request, governor.ack)

/-- The books of a guard after a ticket of it was given back. -/
theorem ends?_release_of_state {ticket : Ticket} {governor : Governor} {state : GuardState}
    (h : governor.state? ticket.guard = some state) (now : Duration)
    (view : Governor → GuardState × GuardState) (place : GuardState → GuardState × GuardState)
    (hview : view governor = place state)
    (hupdate : ∀ after calls, view (governor.update ticket.guard after calls) = place after) :
    ((release ticket now).ends? governor).map view = (state.giveUnit now ticket).map place := by
  simp only [ends?, release, h, GuardState.giveUnit]
  by_cases hgeneration : ticket.generation ≠ state.generation
  · simp [hgeneration, hview]
  by_cases hcount : state.count = 0
  · simp [hcount, hgeneration, hview]
  by_cases hlast : state.count = 1
  · have hheld : ∀ taken : GuardState, taken.heldSince = state.heldSince →
        taken.heldTotal = state.heldTotal → taken.heldUpTo now = state.heldUpTo now := by
      intro taken hsince htotal
      simp only [GuardState.heldUpTo, hsince, htotal]
    cases hup : state.heldUpTo now <;>
      simp [hgeneration, hlast, GuardState.close, hheld, hup, hupdate]
  · have hmore : state.count - 1 ≠ 0 := by omega
    simp [hgeneration, hcount, hlast, hmore, hupdate]

/-- A unit that is given back is given back to its guard. -/
theorem ends?_release (ticket : Ticket) (now : Duration) (governor : Governor) {item : Settlement}
    (h : item.ticket = some ticket) :
    ((release ticket now).ends? governor).map guards =
      onBoth (GuardState.giveBack .request now) (GuardState.giveBack .ack now) item
        governor.guards := by
  cases hguard : ticket.guard with
  | unguarded =>
      simp [ends?, release, state?, onBoth, GuardState.giveBack, h, hguard, guards]
  | request =>
      have hstate : governor.state? ticket.guard = some governor.request := by rw [hguard]; rfl
      rw [ends?_release_of_state hstate now _ (fun after => (after, governor.ack)) rfl
        (fun after calls => by rw [hguard]; rfl)]
      simp [onBoth, GuardState.giveBack, h, hguard, guards]
      exact Option.map_eq_bind
  | ack =>
      have hstate : governor.state? ticket.guard = some governor.ack := by rw [hguard]; rfl
      rw [ends?_release_of_state hstate now _ (fun after => (governor.request, after)) rfl
        (fun after calls => by rw [hguard]; rfl)]
      simp [onBoth, GuardState.giveBack, h, hguard, guards]

end Governor

theorem LatencyTable.lookup_set_of_ne {kind other : RequestKind} (h : other ≠ kind)
    (stats : Latency) (rows : List (RequestKind × Latency)) :
    (set kind stats rows).lookup other = rows.lookup other := by
  have hbeq : (other == kind) = false := beq_eq_false_iff_ne.2 h
  induction rows with
  | nil => simp [set, List.lookup_cons, hbeq]
  | cons row rest ih =>
      obtain ⟨first, old⟩ := row
      unfold set
      by_cases hfirst : first = kind
      · subst hfirst
        simp [List.lookup_cons, hbeq]
      · simp only [if_neg hfirst, List.lookup_cons, ih]

/-- The figures of the books in memory. -/
def Metrics.figures (metrics : Metrics) : Figures := ⟨metrics.counters, metrics.latency.get?⟩

theorem Metrics.ends?_record (item : Settlement) (metrics : Metrics) :
    ((record (.completed item.kind item.outcome item.latency)).ends? metrics).map figures =
      metrics.figures.enter item := by
  have hstats : metrics.figures.stats item.kind =
      (metrics.latency.get? item.kind).getD .none := rfl
  simp only [ends?, record, LatencyTable.record, Figures.enter, hstats, Latency.more?]
  cases Latency.record item.latency ((metrics.latency.get? item.kind).getD .none) with
  | error overflow stats => rfl
  | ok answer stats =>
      simp only [Option.map_some, figures, Figures.write, Option.some.injEq, Figures.mk.injEq]
      refine ⟨rfl, funext fun kind => ?_⟩
      by_cases hkind : kind = item.kind
      · subst hkind
        rw [Function.update_self]
        exact LatencyTable.lookup_set_self _ _ _
      · rw [Function.update_of_ne hkind]
        exact LatencyTable.lookup_set_of_ne hkind _ _

namespace OutsideStore

/-- The figures of the second store, if it keeps such books. -/
def figures? : OutsideStore → Option Figures
  | .books metrics => some metrics.figures
  | _ => none

/-- The figures of the second store after a settled request was entered. -/
def enter (item : Settlement) : Option Figures → Option (Option Figures)
  | none => some none
  | some figures => (figures.enter item).map some

theorem commutes_enter : Commutes enter := by
  intro a b figures
  cases figures with
  | none => rfl
  | some figures =>
      have hcomm := Figures.commutes_enter a b figures
      have hsome : ∀ (item : Settlement) (figures : Option Figures),
          (figures.map some).bind (enter item) = (figures.bind (Figures.enter item)).map some := by
        intro item figures
        cases figures <;> rfl
      change ((figures.enter a).map some).bind (enter b) =
        ((figures.enter b).map some).bind (enter a)
      rw [hsome, hsome, hcomm]

theorem ends?_record (item : Settlement) (store : OutsideStore) :
    ((record (.completed item.kind item.outcome item.latency)).ends? store).map figures? =
      enter item store.figures? := by
  cases store with
  | silent => rfl
  | exposition x => rfl
  | books metrics =>
      have hrecord := Metrics.ends?_record item metrics
      simp only [figures?, enter, ← hrecord, ends?, record]
      cases Metrics.record (.completed item.kind item.outcome item.latency) metrics <;> rfl

end OutsideStore

namespace Recorder

/-- The figures of both stores. -/
def figures (recorder : Recorder) : Figures × Option Figures :=
  (recorder.books.figures, recorder.outside.figures?)

theorem ends?_record (item : Settlement) (recorder : Recorder) :
    ((record (.completed item.kind item.outcome item.latency)).ends? recorder).map figures =
      onBoth Figures.enter OutsideStore.enter item recorder.figures := by
  rcases recorder with ⟨books, outside⟩
  change (ends? (_ >>= fun _ => _) _).map _ = _
  rw [ends?_bind_const, ends?_within]
  simp only [onBoth, figures]
  rw [← Metrics.ends?_record, ← OutsideStore.ends?_record]
  cases (Metrics.record (.completed item.kind item.outcome item.latency)).ends? books with
  | none => rfl
  | some books =>
      simp only [Option.map_some, Option.bind_some, ends?_within, Option.map_map]
      rfl

end Recorder

namespace Station

/-- What settlements change at a station, seen without the order in which they came. -/
abbrev Account := (GuardState × GuardState) × Figures × Option Figures

/-- The books of a station that settlements change. -/
def account (s : Station) : Account := (s.governor.guards, s.recorder.figures)

/-- The account after a settlement at a reading of the clock. -/
def settled (now : Duration) : Settlement → Account → Option Account :=
  onBoth (onBoth (GuardState.giveBack .request now) (GuardState.giveBack .ack now))
    (onBoth Figures.enter OutsideStore.enter)

/-- Settlements may come in either order. -/
theorem commutes_settled (now : Duration) : Commutes (settled now) :=
  ((GuardState.commutes_giveBack .request now).onBoth
    (GuardState.commutes_giveBack .ack now)).onBoth
    (Figures.commutes_enter.onBoth OutsideStore.commutes_enter)

/-- What is settled about a pending request that ends now. -/
def settlement (s : Station) (request : PendingRequest) (outcome : Outcome) : Settlement :=
  ⟨request.ticket, request.kind, outcome, request.age s.reading⟩

/-- A completion is entered into the figures. -/
theorem account_record (item : Settlement) (s : Station) :
    ((record (.completed item.kind item.outcome item.latency)).ends? s).map account =
      (onBoth Figures.enter OutsideStore.enter item s.recorder.figures).map
        fun figures => (s.governor.guards, figures) := by
  rw [record, ends?_within, ← Recorder.ends?_record, Option.map_map, Option.map_map]
  rfl

/-- The end of a settlement enters the completion. -/
theorem account_enter (item : Settlement) (delivery : Delivery) (s : Station) :
    ((record (.completed item.kind item.outcome item.latency) >>= fun _ =>
        (pure delivery : Clocked Station Delivery)).ends? s).map account =
      (onBoth Figures.enter OutsideStore.enter item s.recorder.figures).map
        fun figures => (s.governor.guards, figures) := by
  rw [ends?_bind_const, ← account_record]
  exact congrArg _ (Option.bind_fun_some _)

/-- A settlement at a station is one of its account. -/
theorem account_settle (request : PendingRequest) (result : RequestResult) (outcome : Outcome)
    (s : Station) :
    ((settle request result outcome).ends? s).map account =
      settled s.reading (s.settlement request outcome) s.account := by
  have hsettled : settled s.reading (s.settlement request outcome) s.account =
      (onBoth (GuardState.giveBack .request s.reading) (GuardState.giveBack .ack s.reading)
        (s.settlement request outcome) s.governor.guards).bind fun guards =>
          (onBoth Figures.enter OutsideStore.enter (s.settlement request outcome)
            s.recorder.figures).map fun figures => (guards, figures) := rfl
  rw [hsettled]
  unfold settle
  cases hticket : request.ticket with
  | none =>
      have hnone : onBoth (GuardState.giveBack .request s.reading)
          (GuardState.giveBack .ack s.reading)
          (s.settlement request outcome) s.governor.guards = some s.governor.guards := by
        simp [onBoth, GuardState.giveBack, settlement, hticket]
      rw [hnone, Option.bind_some, ends?_get_bind]
      exact account_enter (s.settlement request outcome) _ s
  | some ticket =>
      rw [← Governor.ends?_release ticket s.reading s.governor hticket]
      have hrun : release ticket s = within governor (fun governor s => { s with governor })
          (Governor.release ticket s.reading) s := rfl
      have hrelease : ends? (release ticket) s =
          (ends? (Governor.release ticket s.reading) s.governor).map
            fun governor => { s with governor } :=
        (ends?_congr fun t => by rw [hrun]).trans (ends?_within _ _ _ s)
      rw [ends?_bind_const, hrelease]
      cases ends? (Governor.release ticket s.reading) s.governor with
      | none => rfl
      | some governor =>
          rw [Option.map_some, Option.bind_some, Option.map_some, Option.bind_some, ends?_get_bind]
          exact account_enter (s.settlement request outcome) _ { s with governor }

/-- A settlement that ends delivers its result and changes governor and recorder only, as it does on
the account. -/
theorem settle_eq_ok {request : PendingRequest} {result : RequestResult} {outcome : Outcome}
    {delivery : Delivery} {s t : Station} (h : settle request result outcome s = .ok delivery t) :
    delivery = ⟨request.target, result⟩ ∧ (∃ governor recorder, t = { s with governor, recorder }) ∧
      settled s.reading (s.settlement request outcome) s.account = some t.account := by
  have hframe : wp (settle request result outcome)
      (fun delivery t => delivery = ⟨request.target, result⟩ ∧
        ∃ governor recorder, t = { s with governor, recorder })
      (fun _ => True) s :=
    wp_settle (fun governor recorder _ _ => ⟨rfl, governor, recorder, rfl⟩) fun _ _ => trivial
  obtain ⟨hdelivery, hafter⟩ := (wp_of_ok h).mp hframe
  have haccount := account_settle request result outcome s
  rw [ends?, h] at haccount
  exact ⟨hdelivery, hafter, haccount.symm⟩

/-- A settlement that is cut off fails on the account. -/
theorem settle_eq_error {request : PendingRequest} {result : RequestResult} {outcome : Outcome}
    {overflow : Overflow} {s t : Station}
    (h : settle request result outcome s = .error overflow t) :
    settled s.reading (s.settlement request outcome) s.account = none := by
  have haccount := account_settle request result outcome s
  rw [ends?, h] at haccount
  exact haccount.symm

end Station

end ModemLink
