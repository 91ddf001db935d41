import Mathlib.Algebra.Order.Ring.Nat
import ModemLink.Proofs.Clocked
import ModemLink.Proofs.TimerQueue
import ModemLink.Station

/-!
# What indications leave behind

Indications and local acknowledgments leave traces: units of the ack guard and their timers, and a
few counters.  What is left of the books, of the governor and of a queue of timers when these are
set aside is here, and that every action does the same to it wherever the rest differs.  The numbers
that order the timers are among what may differ; the order of the other timers is not, because the
queue is sorted.

Two actions agree if they end with related answers, or are cut short by the same overflow, and the
states they leave are related.

* `Clocked.Agree` -- two actions side by side, with a rule for each way to put actions together;
* `Recorder.agree_record`, `Recorder.record_aside` -- the stores of measurements;
* `Governor.Alike` -- governors that differ in the ack guard only;
* `Timeline.filter_enqueue_of_pos`, `Timeline.Alike` -- the other timers keep their order.
-/

namespace ModemLink

namespace Clocked

variable {σ τ α β : Type}

/-- Two actions side by side: both end, and their answers and the states they leave are related; or
the same overflow cuts both short, and the states they leave are related. -/
def Agree (related : σ → σ → Prop) (answers : α → α → Prop) (act other : Clocked σ α) (s t : σ) :
    Prop :=
  match act s, other t with
  | .ok a after, .ok b after' => answers a b ∧ related after after'
  | .error overflow after, .error overflow' after' => overflow = overflow' ∧ related after after'
  | _, _ => False

variable {related : σ → σ → Prop} {answers answers' : α → α → Prop} {results : β → β → Prop}
  {act other : Clocked σ α} {s t after after' : σ}

theorem agree_of_ok {a b : α} (hact : act s = .ok a after) (hother : other t = .ok b after')
    (hanswers : answers a b) (hrelated : related after after') :
    Agree related answers act other s t := by
  simp only [Agree, hact, hother]
  exact ⟨hanswers, hrelated⟩

theorem agree_of_error {overflow : Overflow} (hact : act s = .error overflow after)
    (hother : other t = .error overflow after') (hrelated : related after after') :
    Agree related answers act other s t := by
  simp only [Agree, hact, hother]
  exact ⟨trivial, hrelated⟩

/-- Actions that come to the same agree with the same. -/
theorem agree_of_eq {act' other' : Clocked σ α} {s' t' : σ} (hact : act s = act' s')
    (hother : other t = other' t') (h : Agree related answers act' other' s' t') :
    Agree related answers act other s t := by
  unfold Agree at h ⊢
  rwa [hact, hother]

/-- There are two ways in which actions agree. -/
theorem Agree.cases (h : Agree related answers act other s t) :
    (∃ a b after after', act s = .ok a after ∧ other t = .ok b after' ∧ answers a b ∧
      related after after') ∨
    ∃ overflow after after', act s = .error overflow after ∧ other t = .error overflow after' ∧
      related after after' := by
  unfold Agree at h
  split at h
  · rename_i a after b after' hact hother
    exact .inl ⟨a, b, after, after', hact, hother, h⟩
  · rename_i overflow after overflow' after' hact hother
    obtain ⟨rfl, hrelated⟩ := h
    exact .inr ⟨overflow, after, after', hact, hother, hrelated⟩
  · exact h.elim

theorem Agree.mono (h : Agree related answers act other s t)
    (himp : ∀ a b, answers a b → answers' a b) : Agree related answers' act other s t := by
  rcases h.cases with ⟨a, b, after, after', hact, hother, hanswers, hrelated⟩ |
    ⟨overflow, after, after', hact, hother, hrelated⟩
  · exact agree_of_ok hact hother (himp a b hanswers) hrelated
  · exact agree_of_error hact hother hrelated

theorem agree_pure {a b : α} (hanswers : answers a b) (hrelated : related s t) :
    Agree related answers (pure a) (pure b) s t :=
  ⟨hanswers, hrelated⟩

/-- The actions that follow start from related states that the first ones led to, with related
answers. -/
theorem Agree.bind_of_run {next next' : α → Clocked σ β} (h : Agree related answers act other s t)
    (hnext : ∀ a b after after', act s = .ok a after → answers a b → related after after' →
      Agree related results (next a) (next' b) after after') :
    Agree related results (act >>= next) (other >>= next') s t := by
  rcases h.cases with ⟨a, b, after, after', hact, hother, hanswers, hrelated⟩ |
    ⟨overflow, after, after', hact, hother, hrelated⟩
  · have hagree := hnext a b after after' hact hanswers hrelated
    exact agree_of_eq (bind_of_ok hact next) (bind_of_ok hother next') hagree
  · exact agree_of_error (bind_of_error hact next) (bind_of_error hother next') hrelated

/-- Mostly it does not matter what led there. -/
theorem Agree.bind {next next' : α → Clocked σ β} (h : Agree related answers act other s t)
    (hnext : ∀ a b after after', answers a b → related after after' →
      Agree related results (next a) (next' b) after after') :
    Agree related results (act >>= next) (other >>= next') s t :=
  h.bind_of_run fun a b after after' _ => hnext a b after after'

theorem agree_get_bind {next next' : σ → Clocked σ β} :
    Agree related results (get >>= next) (get >>= next') s t ↔
      Agree related results (next s) (next' t) s t := Iff.rfl

theorem agree_set_bind {next next' : PUnit → Clocked σ β} :
    Agree related results (set after >>= next) (set after' >>= next') s t ↔
      Agree related results (next ⟨⟩) (next' ⟨⟩) after after' := Iff.rfl

/-- Actions on a part of the state agree if they agree there. -/
theorem Agree.within {parts : τ → τ → Prop} {get : σ → τ} {set : τ → σ → σ}
    {act other : Clocked τ α} (h : Agree parts answers act other (get s) (get t))
    (hset : ∀ part part', parts part part' → related (set part s) (set part' t)) :
    Agree related answers (within get set act) (within get set other) s t := by
  rcases h.cases with ⟨a, b, part, part', hact, hother, hanswers, hparts⟩ |
    ⟨overflow, part, part', hact, hother, hparts⟩
  · unfold Agree Clocked.within
    rw [hact, hother]
    exact ⟨hanswers, hset part part' hparts⟩
  · unfold Agree Clocked.within
    rw [hact, hother]
    exact ⟨rfl, hset part part' hparts⟩

end Clocked

/-! ## What is counted -/

namespace Counters

/-- The counters, those of indications and local acknowledgments set aside. -/
def aside (c : Counters) : Counters := { c with localAcks := 0, indications := 0 }

theorem aside_count (m : Measurement) (c : Counters) :
    (c.aside.count m).aside = (c.count m).aside := by
  cases m with
  | completed kind outcome latency => cases outcome <;> rfl
  | bind success => cases success <;> rfl
  | _ => rfl

theorem aside_count_congr (m : Measurement) {c d : Counters} (h : c.aside = d.aside) :
    (c.count m).aside = (d.count m).aside := by
  rw [← aside_count m c, ← aside_count m d, h]

end Counters

/-- Whether a measurement is of an indication or of a local acknowledgment. -/
def Measurement.isAside : Measurement → Bool
  | .localAck => true
  | .indication _ _ => true
  | _ => false

namespace Metrics

/-- The books in memory, indications and local acknowledgments set aside. -/
def aside (metrics : Metrics) : Metrics := { metrics with counters := metrics.counters.aside }

theorem aside_eq_iff {a b : Metrics} :
    a.aside = b.aside ↔ a.counters.aside = b.counters.aside ∧ a.latency = b.latency := by
  simp only [aside, Metrics.mk.injEq]

/-- A measurement is entered alike into books that differ in what is set aside. -/
theorem agree_record (m : Measurement) {a b : Metrics} (h : a.aside = b.aside) :
    Clocked.Agree (fun a b => a.aside = b.aside) Eq (record m) (record m) a b := by
  obtain ⟨hcounters, hlatency⟩ := aside_eq_iff.mp h
  have hcount := Counters.aside_count_congr m hcounters
  by_cases hcompleted : ∃ kind outcome latency, m = .completed kind outcome latency
  · obtain ⟨kind, outcome, latency, rfl⟩ := hcompleted
    unfold Clocked.Agree record
    dsimp only
    rw [hlatency]
    cases LatencyTable.record kind latency b.latency with
    | ok _ table => exact ⟨rfl, aside_eq_iff.mpr ⟨hcount, rfl⟩⟩
    | error overflow table => exact ⟨rfl, aside_eq_iff.mpr ⟨hcount, rfl⟩⟩
  · have hother : ∀ kind outcome latency, m ≠ .completed kind outcome latency :=
      fun kind outcome latency heq => hcompleted ⟨kind, outcome, latency, heq⟩
    exact Clocked.agree_of_ok (record_of_not_completed hother a) (record_of_not_completed hother b)
      rfl (aside_eq_iff.mpr ⟨hcount, hlatency⟩)

theorem record_aside {m : Measurement} (h : m.isAside = true) (metrics : Metrics) :
    ∃ after, record m metrics = .ok () after ∧ after.aside = metrics.aside := by
  cases m with
  | localAck => exact ⟨_, rfl, rfl⟩
  | indication kind subscribers => exact ⟨_, rfl, rfl⟩
  | _ => cases h

end Metrics

namespace Exposition

variable {lib : Collectors} {m : Measurement}

/-- The exposition with other collectors of indications and local acknowledgments. -/
def withAside (x : Exposition lib) (localAcks : lib.Counter)
    (indications deliveries : lib.CounterVec) : Exposition lib :=
  { x with localAcks, indications, deliveries }

/-- The exposition, indications and local acknowledgments set aside. -/
def aside (x : Exposition lib) : Exposition lib :=
  let fresh : Exposition lib := {}
  x.withAside fresh.localAcks fresh.indications fresh.deliveries

theorem aside_withAside (x : Exposition lib) (localAcks : lib.Counter)
    (indications deliveries : lib.CounterVec) :
    (x.withAside localAcks indications deliveries).aside = x.aside := rfl

theorem eq_withAside {x y : Exposition lib} (h : x.aside = y.aside) :
    y = x.withAside y.localAcks y.indications y.deliveries := by
  cases x
  cases y
  simp only [aside, withAside, Exposition.mk.injEq] at h ⊢
  simp [h]

theorem record_withAside (h : m.isAside = false) (x : Exposition lib) (localAcks : lib.Counter)
    (indications deliveries : lib.CounterVec) :
    (x.withAside localAcks indications deliveries).record m =
      (x.record m).withAside localAcks indications deliveries := by
  cases m with
  | localAck => cases h
  | indication kind subscribers => cases h
  | _ => rfl

theorem aside_record (h : m.isAside = true) (x : Exposition lib) :
    (x.record m).aside = x.aside := by
  cases m with
  | localAck => exact aside_withAside x _ x.indications x.deliveries
  | indication kind subscribers => exact aside_withAside x x.localAcks _ _
  | _ => cases h

theorem aside_record_congr (m : Measurement) {x y : Exposition lib} (h : x.aside = y.aside) :
    (x.record m).aside = (y.record m).aside := by
  cases hm : m.isAside with
  | true => rw [aside_record hm, aside_record hm, h]
  | false => rw [eq_withAside h, record_withAside hm, aside_withAside]

end Exposition

namespace OutsideStore

/-- The second store, indications and local acknowledgments set aside. -/
def aside : OutsideStore → OutsideStore
  | .silent => .silent
  | .books metrics => .books metrics.aside
  | .exposition x => .exposition x.aside

theorem agree_record (m : Measurement) {a b : OutsideStore} (h : a.aside = b.aside) :
    Clocked.Agree (fun a b => a.aside = b.aside) Eq (record m) (record m) a b := by
  cases a <;> cases b <;> simp only [aside, reduceCtorEq, books.injEq, exposition.injEq] at h
  case silent => exact ⟨rfl, rfl⟩
  case books a b =>
    rcases (Metrics.agree_record m h).cases with ⟨_, _, after, after', ha, hb, -, hafter⟩ |
      ⟨overflow, after, after', ha, hb, hafter⟩
    · unfold Clocked.Agree record
      simp only [ha, hb]
      exact ⟨trivial, congrArg OutsideStore.books hafter⟩
    · unfold Clocked.Agree record
      simp only [ha, hb]
      exact ⟨trivial, congrArg OutsideStore.books hafter⟩
  case exposition a b =>
    exact Clocked.agree_of_ok rfl rfl rfl
      (congrArg OutsideStore.exposition (Exposition.aside_record_congr m h))

theorem record_aside {m : Measurement} (h : m.isAside = true) (store : OutsideStore) :
    ∃ after, record m store = .ok () after ∧ after.aside = store.aside := by
  cases store with
  | silent => exact ⟨_, rfl, rfl⟩
  | books metrics =>
      obtain ⟨after, hrecord, haside⟩ := Metrics.record_aside h metrics
      exact ⟨.books after, by simp only [record, hrecord], congrArg OutsideStore.books haside⟩
  | exposition x =>
      exact ⟨.exposition (x.record m), rfl,
        congrArg OutsideStore.exposition (Exposition.aside_record h x)⟩

end OutsideStore

namespace Recorder

/-- Both stores, indications and local acknowledgments set aside. -/
def aside (r : Recorder) : Recorder := ⟨r.books.aside, r.outside.aside⟩

theorem aside_eq_iff {a b : Recorder} :
    a.aside = b.aside ↔ a.books.aside = b.books.aside ∧ a.outside.aside = b.outside.aside := by
  simp only [aside, Recorder.mk.injEq]

theorem agree_record (m : Measurement) {a b : Recorder} (h : a.aside = b.aside) :
    Clocked.Agree (fun a b => a.aside = b.aside) Eq (record m) (record m) a b := by
  obtain ⟨hbooks, houtside⟩ := aside_eq_iff.mp h
  have hfirst : Clocked.Agree (fun a b => a.aside = b.aside) Eq
      (Clocked.within Recorder.books (fun books r => { r with books }) (Metrics.record m))
      (Clocked.within Recorder.books (fun books r => { r with books }) (Metrics.record m)) a b :=
    (Metrics.agree_record m hbooks).within fun _ _ hparts => aside_eq_iff.mpr ⟨hparts, houtside⟩
  refine hfirst.bind fun _ _ after after' _ hafter => ?_
  obtain ⟨hbooks, houtside⟩ := aside_eq_iff.mp hafter
  exact (OutsideStore.agree_record m houtside).within
    fun _ _ hparts => aside_eq_iff.mpr ⟨hbooks, hparts⟩

theorem record_aside {m : Measurement} (h : m.isAside = true) (r : Recorder) :
    ∃ after, record m r = .ok () after ∧ after.aside = r.aside := by
  obtain ⟨books, hbooks, hbooks'⟩ := Metrics.record_aside h r.books
  obtain ⟨outside, houtside, houtside'⟩ := OutsideStore.record_aside h r.outside
  refine ⟨⟨books, outside⟩, ?_, aside_eq_iff.mpr ⟨hbooks', houtside'⟩⟩
  have hfirst : Clocked.within Recorder.books (fun books r => { r with books })
      (Metrics.record m) r = .ok () { r with books } := by
    simp only [Clocked.within, hbooks]
  rw [record, recordBoth, Clocked.bind_of_ok hfirst]
  simp only [Clocked.within, houtside]

end Recorder

/-! ## The guards -/

/-- The guard that a call to the power manager is about. -/
def PowerCall.guard : PowerCall → Guard
  | .acquire guard => guard
  | .release guard => guard
  | .attribute guard _ => guard

namespace PowerTrace

/-- The calls about a guard. -/
def about (trace : PowerTrace) (guard : Guard) : List PowerCall :=
  trace.calls.toList.filter (·.guard = guard)

theorem about_append (trace : PowerTrace) (calls : List PowerCall) (guard : Guard) :
    (trace.append calls).about guard = trace.about guard ++ calls.filter (·.guard = guard) := by
  induction calls generalizing trace with
  | nil => simp [append]
  | cons call rest ih =>
      have hpush : (trace.push call).about guard = trace.about guard ++
          [call].filter (·.guard = guard) := by
        simp only [about, push, Array.toList_push, List.filter_append]
      calc ((trace.push call).append rest).about guard
          = (trace.push call).about guard ++ rest.filter (·.guard = guard) := ih _
        _ = trace.about guard ++ (call :: rest).filter (·.guard = guard) := by
            rw [hpush, List.append_assoc, ← List.filter_append]
            rfl

theorem about_append_of_ne {calls : List PowerCall} {guard : Guard}
    (h : ∀ call ∈ calls, call.guard ≠ guard) (trace : PowerTrace) :
    (trace.append calls).about guard = trace.about guard := by
  have hnone : calls.filter (·.guard = guard) = [] := by
    rw [List.filter_eq_nil_iff]
    intro call hcall
    simpa using h call hcall
  rw [about_append, hnone, List.append_nil]

end PowerTrace

namespace GuardState

theorem guard_of_mem_acquire {state : GuardState} {guard : Guard} {source : WorkSource}
    {now : Duration} {call : PowerCall} (h : call ∈ (state.acquire guard source now).2) :
    call.guard = guard := by
  simp only [acquire, List.mem_append, List.mem_ite_nil_right, List.mem_singleton] at h
  rcases h with ⟨-, rfl⟩ | ⟨-, rfl⟩ <;> rfl

theorem guard_of_mem_close {state : GuardState} {guard : Guard} {now : Duration}
    {call : PowerCall} (h : call ∈ (state.close guard now).2.1) : call.guard = guard := by
  unfold close at h
  dsimp only at h
  split at h
  · simp only [List.mem_cons, List.not_mem_nil, or_false] at h
    rcases h with rfl | rfl <;> rfl
  · exact absurd h List.not_mem_nil

end GuardState

namespace Governor

/-- Nothing but the ack guard tells two governors apart. -/
structure Alike (g g' : Governor) : Prop where
  request : g.request = g'.request
  power : g.power.about .request = g'.power.about .request

namespace Alike

variable {g g' : Governor} {guard : Guard} {now : Duration}

theorem symm (h : g.Alike g') : g'.Alike g := ⟨h.request.symm, h.power.symm⟩

/-- Changes of the request guard are the same on both sides. -/
theorem update_request (h : g.Alike g') (state : GuardState) (calls : List PowerCall) :
    (g.update .request state calls).Alike (g'.update .request state calls) := by
  refine ⟨rfl, ?_⟩
  simp only [update, PowerTrace.about_append, h.power]

/-- Changes of the ack guard do not show. -/
theorem update_ack (h : g.Alike g') (state : GuardState) {calls : List PowerCall}
    (hcalls : ∀ call ∈ calls, call.guard = .ack) : (g.update .ack state calls).Alike g' := by
  refine ⟨h.request, ?_⟩
  have hother : ∀ call ∈ calls, call.guard ≠ .request := by
    intro call hmem
    simp [hcalls call hmem]
  exact (PowerTrace.about_append_of_ne hother g.power).trans h.power

theorem acquire (h : g.Alike g') (hguard : guard ≠ .ack) (source : WorkSource) (now : Duration) :
    (g.acquire guard source now).1 = (g'.acquire guard source now).1 ∧
      (g.acquire guard source now).2.Alike (g'.acquire guard source now).2 := by
  cases guard with
  | unguarded => exact ⟨rfl, h⟩
  | request =>
      simp only [Governor.acquire, state?, h.request]
      exact ⟨trivial, h.update_request _ _⟩
  | ack => exact absurd rfl hguard

theorem acquire_ack (h : g.Alike g') (source : WorkSource) (now : Duration) :
    (g.acquire .ack source now).2.Alike g' :=
  h.update_ack _ fun _ hcall => GuardState.guard_of_mem_acquire hcall

/-- A ticket of another guard is given back to both. -/
theorem release (h : g.Alike g') {ticket : Ticket} (hguard : ticket.guard ≠ .ack) :
    Clocked.Agree Alike Eq (Governor.release ticket now) (Governor.release ticket now) g g' := by
  cases hticket : ticket.guard with
  | ack => exact absurd hticket hguard
  | unguarded =>
      simp only [Clocked.Agree, Governor.release, hticket, state?]
      exact ⟨trivial, h⟩
  | request =>
      simp only [Clocked.Agree, Governor.release, hticket, state?, h.request]
      split_ifs
      · exact ⟨rfl, h⟩
      · exact ⟨rfl, h⟩
      · rcases GuardState.close _ Guard.request now with ⟨after, calls, _ | overflow⟩
        · exact ⟨rfl, h.update_request _ _⟩
        · exact ⟨rfl, h.update_request _ _⟩
      · exact ⟨rfl, h.update_request _ _⟩
      · exact ⟨rfl, h.update_request _ _⟩

/-- The timer of another guard runs out at both. -/
theorem expire (h : g.Alike g') (hguard : guard ≠ .ack) (sequence : Nat) :
    Clocked.Agree Alike Eq (Governor.expire guard sequence now)
      (Governor.expire guard sequence now) g g' := by
  cases guard with
  | ack => exact absurd rfl hguard
  | unguarded => exact ⟨rfl, h⟩
  | request =>
      simp only [Clocked.Agree, Governor.expire, state?, h.request]
      split_ifs
      · exact ⟨rfl, h⟩
      · exact ⟨rfl, h⟩
      · rcases GuardState.close _ Guard.request now with ⟨after, calls, _ | overflow⟩
        · exact ⟨rfl, h.update_request _ _⟩
        · exact ⟨rfl, h.update_request _ _⟩

/-- The timer of the ack guard does not show. -/
theorem expire_ack (h : g.Alike g') {sequence : Nat} {cleared : Bool} {after : Governor}
    (hrun : Governor.expire .ack sequence now g = .ok cleared after) : after.Alike g' := by
  simp only [Governor.expire, state?] at hrun
  split at hrun
  · cases hrun
    exact h
  split at hrun
  · cases hrun
    exact h
  split at hrun
  · rename_i state calls hclose
    cases hrun
    refine h.update_ack _ fun call hcall => ?_
    have hcalls : calls = (GuardState.close _ .ack now).2.1 := (congrArg (·.2.1) hclose).symm
    rw [hcalls] at hcall
    exact GuardState.guard_of_mem_close hcall
  · cases hrun

end Alike

end Governor

/-! ## The timers -/

/-- A timer without its place among the timers that are due at the same time. -/
def Timer.unnumbered {α : Type} (timer : Timer α) : Timer α := { timer with order := 0 }

theorem Timer.unnumbered_inj {α : Type} {x y : Timer α} :
    x.unnumbered = y.unnumbered ↔ x.deadline = y.deadline ∧ x.task = y.task := by
  simp [unnumbered]

/-- Whether a task is the timer of a unit of the ack guard. -/
def Task.isAckTimer : Task → Bool
  | .expiry .ack _ => true
  | _ => false

theorem Task.isAckTimer_iff {task : Task} :
    task.isAckTimer = true ↔ ∃ sequence, task = .expiry .ack sequence := by
  cases task with
  | expiry guard sequence => cases guard <;> simp [isAckTimer]
  | _ => simp [isAckTimer]

namespace Timeline

section Queue

variable {α : Type} {timer : Timer α} {queue : List (Timer α)} {p : Timer α → Bool}

theorem enqueue_of_lt (h : ∀ other ∈ queue, ¬ other.deadline ≤ timer.deadline) :
    enqueue timer queue = timer :: queue := by
  cases queue with
  | nil => rfl
  | cons first rest => exact if_neg (h first (List.mem_cons_self ..))

/-- Whatever else is taken out of a sorted queue, a new timer finds the same place. -/
theorem filter_enqueue_of_pos (hp : p timer = true)
    (hsorted : queue.Pairwise fun a b => a.deadline.nanos ≤ b.deadline.nanos) :
    (enqueue timer queue).filter p = enqueue timer (queue.filter p) := by
  induction queue with
  | nil => simp [enqueue, hp]
  | cons first rest ih =>
      obtain ⟨hfirst, hrest⟩ := List.pairwise_cons.mp hsorted
      by_cases hle : first.deadline ≤ timer.deadline
      · have hunfold : enqueue timer (first :: rest) = first :: enqueue timer rest := if_pos hle
        rw [hunfold]
        cases hkept : p first with
        | true =>
            rw [List.filter_cons_of_pos hkept, List.filter_cons_of_pos hkept, ih hrest]
            exact (if_pos hle).symm
        | false => simp only [List.filter_cons, hkept, Bool.false_eq_true, if_false, ih hrest]
      · have hlater : ∀ other ∈ first :: rest, ¬ other.deadline ≤ timer.deadline := by
          intro other hmem hother
          rcases List.mem_cons.mp hmem with rfl | hmem
          · exact hle hother
          · exact hle (Nat.le_trans (hfirst other hmem) hother)
        rw [enqueue_of_lt hlater, List.filter_cons_of_pos hp,
          enqueue_of_lt fun other hmem => hlater other (List.mem_of_mem_filter hmem)]

/-- A new timer that is taken out again is not there. -/
theorem filter_enqueue_of_neg (hp : p timer = false) (queue : List (Timer α)) :
    (enqueue timer queue).filter p = queue.filter p := by
  induction queue with
  | nil => simp [enqueue, hp]
  | cons first rest ih =>
      unfold enqueue
      split
      · simp only [List.filter_cons, ih]
      · simp [hp]

theorem map_unnumbered_enqueue (timer : Timer α) (queue : List (Timer α)) :
    (enqueue timer queue).map Timer.unnumbered =
      enqueue timer.unnumbered (queue.map Timer.unnumbered) := by
  induction queue with
  | nil => rfl
  | cons first rest ih =>
      simp only [enqueue, List.map_cons]
      by_cases hle : first.deadline ≤ timer.deadline
      · rw [if_pos hle, List.map_cons, ih]
        exact (if_pos hle).symm
      · rw [if_neg hle]
        exact (if_neg hle).symm

end Queue

variable {a b a' : Timeline Task} {task : Task} {delay target : Duration}

/-- The timers that are not of the ack guard, without their numbers. -/
def others (timeline : Timeline Task) : List (Timer Task) :=
  (timeline.queue.filter (!·.task.isAckTimer)).map Timer.unnumbered

/-- Nothing but timers of the ack guard and the numbers of the timers tells two queues apart, and
both are sorted. -/
structure Alike (a b : Timeline Task) : Prop where
  others : a.others = b.others
  sorted : a.queue.Pairwise fun x y => x.deadline.nanos ≤ y.deadline.nanos
  sorted' : b.queue.Pairwise fun x y => x.deadline.nanos ≤ y.deadline.nanos

theorem others_enqueue (timer : Timer Task) (hother : timer.task.isAckTimer = false)
    (hsorted : a.queue.Pairwise fun x y => x.deadline.nanos ≤ y.deadline.nanos) :
    ((enqueue timer a.queue).filter (!·.task.isAckTimer)).map Timer.unnumbered =
      enqueue timer.unnumbered a.others := by
  rw [filter_enqueue_of_pos (by simp [hother]) hsorted, map_unnumbered_enqueue]
  rfl

namespace Alike

theorem symm (h : a.Alike b) : b.Alike a := ⟨h.others.symm, h.sorted', h.sorted⟩

/-- The readings of the clock do not matter, nor do the numbers to come. -/
theorem withNow (h : a.Alike b) (now now' : Duration) : (a.setNow now).Alike (b.setNow now') :=
  ⟨h.others, h.sorted, h.sorted'⟩

/-- Whether some task other than an ack timer waits can be told from the others. -/
theorem any_task (h : a.Alike b) {p : Task → Bool}
    (hp : ∀ task, p task = true → task.isAckTimer = false) :
    a.queue.any (p ·.task) = b.queue.any (p ·.task) := by
  have hothers : ∀ timeline : Timeline Task,
      timeline.queue.any (p ·.task) = timeline.others.any (p ·.task) := by
    intro timeline
    simp only [Timeline.others, List.any_map, List.any_filter]
    refine congrArg timeline.queue.any (funext fun timer => ?_)
    cases htask : p timer.task with
    | true => simp [Timer.unnumbered, htask, hp timer.task htask]
    | false => simp [Timer.unnumbered, htask]
  rw [hothers a, hothers b, h.others]

/-- What is scheduled at the same time finds the same place in both queues; timers of the ack guard
may be of different units. -/
theorem schedule {task' : Task} (h : a.Alike b) (hnow : a.now = b.now) (delay : Duration)
    (htask : task = task' ∨ task.isAckTimer = true ∧ task'.isAckTimer = true) :
    (∃ a' b', a.schedule delay task = .ok a' ∧ b.schedule delay task' = .ok b' ∧ a'.Alike b' ∧
      a'.now = b'.now) ∨
    ∃ overflow, a.schedule delay task = .error overflow ∧
      b.schedule delay task' = .error overflow := by
  unfold Timeline.schedule
  rw [hnow]
  cases b.now.add? delay with
  | error overflow => exact .inr ⟨overflow, rfl, rfl⟩
  | ok deadline =>
      refine .inl ⟨_, _, rfl, rfl, ⟨?_, pairwise_enqueue _ h.sorted, pairwise_enqueue _ h.sorted'⟩,
        rfl⟩
      have hunseen : ∀ {timer timer' : Timer Task}, timer.task.isAckTimer = true →
          timer'.task.isAckTimer = true →
          ((enqueue timer a.queue).filter (!·.task.isAckTimer)).map Timer.unnumbered =
            ((enqueue timer' b.queue).filter (!·.task.isAckTimer)).map Timer.unnumbered := by
        intro timer timer' hack hack'
        rw [filter_enqueue_of_neg (by simp [hack]), filter_enqueue_of_neg (by simp [hack'])]
        exact h.others
      rcases htask with rfl | ⟨hack, hack'⟩
      · cases hack : task.isAckTimer with
        | true => exact hunseen hack hack
        | false =>
            have ha := others_enqueue ⟨deadline, a.nextOrder, task⟩ hack h.sorted
            have hb := others_enqueue ⟨deadline, b.nextOrder, task⟩ hack h.sorted'
            exact ha.trans ((congrArg (enqueue _) h.others).trans hb.symm)
      · exact hunseen hack hack'

/-- To start a timer of the ack guard does not show. -/
theorem scheduleAck (h : a.Alike b) (hschedule : a.schedule delay task = .ok a')
    (hack : task.isAckTimer = true) : a'.Alike b := by
  obtain ⟨deadline, -, rfl⟩ := schedule_eq_ok hschedule
  refine ⟨?_, pairwise_enqueue _ h.sorted, h.sorted'⟩
  simp only [Timeline.others]
  rw [filter_enqueue_of_neg (by simp [hack])]
  exact h.others

/-- To take a timer of the ack guard off does not show. -/
theorem popAck (h : a.Alike b) (hpop : a.popDue? target = some (task, a'))
    (hack : task.isAckTimer = true) : a'.Alike b := by
  obtain ⟨first, rest, hqueue, rfl, -, rfl⟩ := popDue?_eq_some hpop
  have hsorted := h.sorted
  have hothers := h.others
  rw [hqueue] at hsorted
  refine ⟨?_, (List.pairwise_cons.mp hsorted).2, h.sorted'⟩
  rw [← hothers]
  simp only [Timeline.others, hqueue]
  rw [List.filter_cons_of_neg (by simp [hack])]

/-- If the next task that is due is no ack timer it is next on the other side, too, unless an ack
timer is due there. -/
theorem popOther (h : a.Alike b) (hpop : a.popDue? target = some (task, a'))
    (hother : task.isAckTimer = false)
    (hfree : ∀ next b', b.popDue? target = some (next, b') → next.isAckTimer = false) :
    ∃ b', b.popDue? target = some (task, b') ∧ a'.Alike b' ∧ a'.now = b'.now := by
  obtain ⟨first, rest, hqueue, rfl, hdue, rfl⟩ := popDue?_eq_some hpop
  have hsorted := h.sorted
  have hsorted' := h.sorted'
  have hothers := h.others
  simp only [Timeline.others, hqueue, List.filter_cons, hother, Bool.not_false, if_true,
    List.map_cons] at hothers
  rw [hqueue] at hsorted
  cases hqueue' : b.queue with
  | nil =>
      rw [hqueue'] at hothers
      cases hothers
  | cons first' rest' =>
      rw [hqueue'] at hothers hsorted'
      have hpop' : first'.deadline ≤ target → b.popDue? target =
          some (first'.task, { b with now := first'.deadline, queue := rest' }) := by
        intro hdue'
        simp only [popDue?, hqueue']
        exact if_pos hdue'
      cases hack : first'.task.isAckTimer with
      | true =>
          -- The ack timer in front is due no later than the first of the others.
          simp only [List.filter_cons, hack, Bool.not_true, Bool.false_eq_true, if_false] at hothers
          have hmem : first.unnumbered ∈
              (rest'.filter (!·.task.isAckTimer)).map Timer.unnumbered := by
            rw [← hothers]
            exact List.mem_cons_self ..
          obtain ⟨timer, htimer, hsame⟩ := List.mem_map.mp hmem
          have hdeadline : timer.deadline = first.deadline := (Timer.unnumbered_inj.mp hsame).1
          have hle := (List.pairwise_cons.mp hsorted').1 timer (List.mem_of_mem_filter htimer)
          rw [hdeadline] at hle
          have hnone := hfree _ _ (hpop' (Nat.le_trans hle hdue))
          rw [hack] at hnone
          cases hnone
      | false =>
          simp only [List.filter_cons, hack, Bool.not_false, if_true, List.map_cons,
            List.cons.injEq] at hothers
          obtain ⟨hfirst, hrest⟩ := hothers
          obtain ⟨hdeadline, htask⟩ := Timer.unnumbered_inj.mp hfirst
          rw [htask]
          refine ⟨_, hpop' (hdeadline ▸ hdue), ⟨hrest, (List.pairwise_cons.mp hsorted).2,
            (List.pairwise_cons.mp hsorted').2⟩, hdeadline⟩

/-- Unless an ack timer is due on one of the sides the same task is next on both, or none is. -/
theorem popDue (h : a.Alike b)
    (hfree : ∀ next a', a.popDue? target = some (next, a') → next.isAckTimer = false)
    (hfree' : ∀ next b', b.popDue? target = some (next, b') → next.isAckTimer = false) :
    (a.popDue? target = none ∧ b.popDue? target = none) ∨
    ∃ task a' b', a.popDue? target = some (task, a') ∧ b.popDue? target = some (task, b') ∧
      a'.Alike b' ∧ a'.now = b'.now ∧ task.isAckTimer = false := by
  cases hpop : a.popDue? target with
  | some popped =>
      obtain ⟨task, a'⟩ := popped
      have hother := hfree task a' hpop
      obtain ⟨b', hpop', halike, hnow⟩ := h.popOther hpop hother hfree'
      exact .inr ⟨task, a', b', rfl, hpop', halike, hnow, hother⟩
  | none =>
      cases hpop' : b.popDue? target with
      | none => exact .inl ⟨rfl, rfl⟩
      | some popped =>
          obtain ⟨task, b'⟩ := popped
          obtain ⟨a', hsome, -⟩ := h.symm.popOther hpop' (hfree' task b' hpop') hfree
          rw [hpop] at hsome
          cases hsome

end Alike

end Timeline

end ModemLink
