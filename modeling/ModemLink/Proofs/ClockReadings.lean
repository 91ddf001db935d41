import ModemLink.Proofs.Clockwork

/-!
# Readings of the clock

An advance sets the clock to where it leads when it ends, wherever the clock stands.  A task may
have let more time pass than the advance that ran it; then the clock is set back.  So the clock goes
on if every advance that a task makes ends within the advance that runs the task.  Where nothing
panics that is needed, too: the clock is set back before all advances have returned.

* `Clockwork.Nests` -- no advance leads further than one around it, and the clock is past none;
* `Moment.Happens.nests`, `Moment.Happens.nested` -- moves that nest keep it so and do not set the
  clock back; moves that keep the clock going nest;
* `Run.clock_goes_on` -- when every task runs, and when the clock goes on;
* `clock_set_back` -- a task that lets more time pass than is left.
-/

namespace ModemLink

namespace Clockwork

variable {α : Type}

/-- The readings of the clock in a run, the latest in front. -/
def readings (history : List (Moment α)) (c : Clockwork α) : List Duration :=
  c.now :: history.map (·.before.now)

/-- No reading of the clock is earlier than one before it. -/
def GoesOn (history : List (Moment α)) (c : Clockwork α) : Prop :=
  (readings history c).Pairwise fun later earlier => earlier.nanos ≤ later.nanos

/-- No advance leads further than one around it, and the clock is past the end of none. -/
structure Nests (c : Clockwork α) : Prop where
  inward : c.charge.underWay.Pairwise fun inner outer => inner.target.nanos ≤ outer.target.nanos
  within : ∀ outer ∈ c.charge.underWay, c.now.nanos ≤ outer.target.nanos

/-- An advance that a task makes leads no further than the advance that runs the task. -/
def Moment.Inside (m : Moment α) : Prop :=
  ∀ length, m.move = .advance length → ∀ outer ∈ m.before.charge.underWay.head?,
    m.before.now.nanos + length.nanos ≤ outer.target.nanos

theorem nests_of_idle {c : Clockwork α} (h : c.charge = .code []) : c.Nests := by
  refine ⟨?_, fun outer hmem => ?_⟩
  · rw [h]
    exact List.Pairwise.nil
  · rw [h] at hmem
    exact absurd hmem List.not_mem_nil

/-- The clock goes on exactly if the last move did not set it back. -/
theorem goesOn_cons {history : List (Moment α)} {m : Moment α} :
    GoesOn (m :: history) m.after ↔
      m.before.now.nanos ≤ m.after.now.nanos ∧ GoesOn history m.before := by
  unfold GoesOn readings
  rw [List.map_cons, List.pairwise_cons]
  refine and_congr_left fun hgoesOn => ⟨fun h => h _ (List.mem_cons_self ..), fun h => ?_⟩
  intro earlier hmem
  rcases List.mem_cons.mp hmem with rfl | hold
  · exact h
  · exact Nat.le_trans ((List.pairwise_cons.mp hgoesOn).1 earlier hold) h

/-- An advance that nests in the innermost of some nests in all of them. -/
theorem target_le_of_head {below : List Advance} {target : Nat}
    (hinward : below.Pairwise fun inner outer => inner.target.nanos ≤ outer.target.nanos)
    (hfirst : ∀ outer ∈ below.head?, target ≤ outer.target.nanos) :
    ∀ outer ∈ below, target ≤ outer.target.nanos := by
  cases below with
  | nil => exact fun _ hmem => absurd hmem List.not_mem_nil
  | cons first rest =>
      have hle : target ≤ first.target.nanos := hfirst first rfl
      intro outer hmem
      rcases List.mem_cons.mp hmem with rfl | hrest
      · exact hle
      · exact Nat.le_trans hle ((List.pairwise_cons.mp hinward).1 outer hrest)

namespace Moment.Happens

variable {m : Moment α}

/-- While advances nest, no move sets the clock back. -/
theorem nests (h : m.Happens) (hlined : m.before.timeline.Lined) (hnests : m.before.Nests)
    (hinside : m.Inside) : m.before.now.nanos ≤ m.after.now.nanos ∧ m.after.Nests := by
  obtain ⟨hinward, hwithin⟩ := hnests
  cases h with
  | schedule hschedule =>
      obtain ⟨deadline, -, rfl⟩ := Timeline.schedule_eq_ok hschedule
      exact ⟨Nat.le_refl _, hinward, hwithin⟩
  | @advance timeline length advance below hbegin =>
      obtain ⟨htarget, -⟩ := Timeline.beginAdvance_eq_ok hbegin
      have houter := target_le_of_head hinward (hinside length rfl)
      refine ⟨Nat.le_refl _, List.pairwise_cons.mpr ⟨fun outer hmem => ?_, hinward⟩,
        fun outer hmem => ?_⟩
      · rw [htarget]
        exact houter outer hmem
      · rcases List.mem_cons.mp hmem with rfl | hbelow
        · exact htarget ▸ Nat.le_add_right _ _
        · exact hwithin outer hbelow
  | @run timeline after timer top below _ hpop =>
      obtain ⟨-, hforth, hdue⟩ := hlined.ordered.popDue hpop
      refine ⟨hforth, hinward, fun outer hmem => Nat.le_trans hdue ?_⟩
      rcases List.mem_cons.mp hmem with rfl | hbelow
      · exact Nat.le_refl _
      · exact (List.pairwise_cons.mp hinward).1 outer hbelow
  | @done timeline top below =>
      have hall : ∀ outer ∈ top.step :: below, timeline.now.nanos ≤ outer.target.nanos := by
        intro outer hmem
        rcases List.mem_cons.mp hmem with rfl | hbelow
        · exact hwithin top (List.mem_cons_self ..)
        · exact hwithin outer (List.mem_cons_of_mem _ hbelow)
      exact ⟨Nat.le_refl _, List.pairwise_cons.mpr (List.pairwise_cons.mp hinward), hall⟩
  | arrive _ =>
      obtain ⟨houter, hbelow⟩ := List.pairwise_cons.mp hinward
      exact ⟨hwithin _ (List.mem_cons_self ..), hbelow, houter⟩
  | cut =>
      obtain ⟨-, hbelow⟩ := List.pairwise_cons.mp hinward
      exact ⟨Nat.le_refl _, hbelow, fun outer hmem => hwithin outer (List.mem_cons_of_mem _ hmem)⟩

/-- A move that leads to nested advances, does not set the clock back and is no panic comes from
nested advances, and nests. -/
theorem nested (h : m.Happens) (hcut : m.move ≠ .cut)
    (hforth : m.before.now.nanos ≤ m.after.now.nanos) (hnests : m.after.Nests) :
    m.before.Nests ∧ m.Inside := by
  obtain ⟨hinward, hwithin⟩ := hnests
  cases h with
  | schedule hschedule =>
      obtain ⟨deadline, -, rfl⟩ := Timeline.schedule_eq_ok hschedule
      exact ⟨⟨hinward, hwithin⟩, fun _ hmove => by cases hmove⟩
  | @advance timeline length advance below hbegin =>
      obtain ⟨houter, hbelow⟩ := List.pairwise_cons.mp hinward
      refine ⟨⟨hbelow, fun outer hmem => hwithin outer (List.mem_cons_of_mem _ hmem)⟩, ?_⟩
      intro other hmove outer hmem
      cases hmove
      have hle := houter outer (List.mem_of_mem_head? hmem)
      rw [(Timeline.beginAdvance_eq_ok hbegin).1] at hle
      exact hle
  | run _ _ =>
      exact ⟨⟨hinward, fun outer hmem => Nat.le_trans hforth (hwithin outer hmem)⟩,
        fun _ hmove => by cases hmove⟩
  | @done timeline top below =>
      have hall : ∀ outer ∈ top :: below, timeline.now.nanos ≤ outer.target.nanos := by
        intro outer hmem
        rcases List.mem_cons.mp hmem with rfl | hbelow
        · exact hwithin outer.step (List.mem_cons_self ..)
        · exact hwithin outer (List.mem_cons_of_mem _ hbelow)
      exact ⟨⟨List.pairwise_cons.mpr (List.pairwise_cons.mp hinward), hall⟩,
        fun _ hmove => by cases hmove⟩
  | @arrive timeline top below _ =>
      have hall : ∀ outer ∈ top :: below, timeline.now.nanos ≤ outer.target.nanos := by
        intro outer hmem
        rcases List.mem_cons.mp hmem with rfl | hbelow
        · exact hforth
        · exact Nat.le_trans hforth (hwithin outer hbelow)
      exact ⟨⟨List.pairwise_cons.mpr ⟨hwithin, hinward⟩, hall⟩, fun _ hmove => by cases hmove⟩
  | cut => exact absurd rfl hcut

end Moment.Happens

namespace Run

variable {first c : Clockwork α} {history : List (Moment α)}

/-- While all advances nest the clock goes on. -/
theorem goesOn_of_inside (run : Run first history c) (hlined : first.timeline.Lined)
    (hnests : first.Nests) (hinside : ∀ m ∈ history, m.Inside) :
    GoesOn history c ∧ c.Nests := by
  induction run with
  | start => exact ⟨List.pairwise_singleton _ _, hnests⟩
  | @step history m run happens ih =>
      obtain ⟨hgoesOn, hbefore⟩ := ih fun old hmem => hinside old (List.mem_cons_of_mem _ hmem)
      obtain ⟨hforth, hafter⟩ :=
        happens.nests (run.lined hlined) hbefore (hinside m (List.mem_cons_self ..))
      exact ⟨goesOn_cons.mpr ⟨hforth, hgoesOn⟩, hafter⟩

/-- If the clock has gone on and nothing has panicked, all advances nested that are over. -/
theorem inside_of_goesOn (run : Run first history c) (hcut : ∀ m ∈ history, m.move ≠ .cut)
    (hgoesOn : GoesOn history c) (hnests : c.Nests) : ∀ m ∈ history, m.Inside := by
  induction run with
  | start => exact fun _ hmem => absurd hmem List.not_mem_nil
  | @step history m run happens ih =>
      obtain ⟨hforth, hbefore⟩ := goesOn_cons.mp hgoesOn
      obtain ⟨hnested, hinside⟩ := happens.nested (hcut m (List.mem_cons_self ..)) hforth hnests
      intro old hmem
      rcases List.mem_cons.mp hmem with rfl | hold
      · exact hinside
      · exact ih (fun n hn => hcut n (List.mem_cons_of_mem _ hn)) hbefore hnested old hold

/-- **The clock.**  Whatever the tasks do, every task that runs was scheduled before, and runs at
the reading of the clock at which it was scheduled plus its delay.  The clock never goes back if no
advance that a task makes leads further than the one that runs the task; and if it has not gone back
when all advances have returned without a panic, none of them has led further. -/
theorem clock_goes_on (run : Run .start history c) :
    (∀ later m earlier timer, history = later ++ m :: earlier → m.move = .run timer →
      m.after.now = timer.deadline ∧ ∃ old ∈ earlier, old.Puts timer) ∧
    ((∀ m ∈ history, m.Inside) → GoesOn history c) ∧
    ((∀ m ∈ history, m.move ≠ .cut) → c.charge = .code [] → GoesOn history c →
      ∀ m ∈ history, m.Inside) := by
  refine ⟨?_, fun hinside => ?_, fun hcut hidle hgoesOn => ?_⟩
  · rintro later m earlier timer rfl hmove
    obtain ⟨hearlier, happens, -⟩ := run.split
    cases happens with
    | @run timeline after other top below hfirst hpop =>
        cases hmove
        obtain ⟨first, rest, hqueue, -, -, hafter⟩ := Timeline.popDue?_eq_some hpop
        rw [hfirst] at hqueue
        obtain ⟨rfl, -⟩ := List.cons.inj hqueue
        refine ⟨congrArg Timeline.now hafter, hearlier.scheduled timer ?_⟩
        dsimp only
        rw [hfirst]
        exact List.mem_cons_self ..
    | schedule _ => cases hmove
    | advance _ => cases hmove
    | done => cases hmove
    | arrive _ => cases hmove
    | cut => cases hmove
  · exact (run.goesOn_of_inside Timeline.lined_start (nests_of_idle rfl) hinside).1
  · exact run.inside_of_goesOn hcut hgoesOn (nests_of_idle hidle)

end Run

/-- A task is due during an advance from the start of the clock, and lets some time pass itself. -/
theorem run_of_nested_advance {due outer length inner : Duration} (hdue : due ≤ outer)
    (hinner : due.add? length = .ok inner) :
    ∃ (history : List (Moment Unit)) (c : Clockwork Unit), Run .start history c ∧
      c.charge = .code [] ∧ (∀ m ∈ history, m.move ≠ .cut) ∧
      ((∀ m ∈ history, m.Inside) ↔ inner ≤ outer) ∧
      readings history c = [outer, inner, inner, due, due, .zero, .zero, .zero] := by
  let waiting : Timeline Unit := ⟨.zero, 1, [⟨due, 0, ()⟩]⟩
  let empty : Timeline Unit := ⟨due, 1, []⟩
  have hschedule : Timeline.start.schedule due () = .ok waiting := by
    have hsum : Duration.zero.add? due = .ok due :=
      Duration.add?_eq_ok_iff.mpr (Nat.zero_add _).symm
    simp only [Timeline.schedule, Timeline.start, hsum]
    rfl
  have houter : waiting.beginAdvance outer = .ok ⟨outer, 0⟩ := by
    have hsum : Duration.zero.add? outer = .ok outer :=
      Duration.add?_eq_ok_iff.mpr (Nat.zero_add _).symm
    simp only [waiting, Timeline.beginAdvance, hsum]
    rfl
  have hpop : waiting.popDue? outer = some ((), empty) := if_pos hdue
  have hnested : empty.beginAdvance length = .ok ⟨inner, 0⟩ := by
    simp only [empty, Timeline.beginAdvance, hinner]
    rfl
  have scheduled : Run .start _ ⟨waiting, .code []⟩ := Run.start.step (.schedule hschedule)
  have begun : Run .start _ ⟨waiting, .loop ⟨outer, 0⟩ []⟩ := scheduled.step (.advance houter)
  have ran : Run .start _ ⟨empty, .code [⟨outer, 0⟩]⟩ := begun.step (.run rfl hpop)
  have inside : Run .start _ ⟨empty, .loop ⟨inner, 0⟩ [⟨outer, 0⟩]⟩ :=
    ran.step (.advance hnested)
  have arrived : Run .start _ ⟨empty.setNow inner, .code [⟨outer, 0⟩]⟩ :=
    inside.step (.arrive rfl)
  have done : Run .start _ ⟨empty.setNow inner, .loop ⟨outer, 1⟩ []⟩ := arrived.step .done
  have returned : Run .start _ ⟨empty.setNow outer, .code []⟩ := done.step (.arrive rfl)
  refine ⟨_, _, returned, rfl, by simp, ?_, rfl⟩
  have hsum : inner.nanos = due.nanos + length.nanos := Duration.add?_eq_ok_iff.mp hinner
  have hle : inner ≤ outer ↔ due.nanos + length.nanos ≤ outer.nanos := hsum ▸ Iff.rfl
  simp [Moment.Inside, Charge.underWay, Clockwork.now, empty, hle]

/-- A task that is due after 5 ms of an advance by 10 ms lets 3 ms pass itself.  The clock shows
5 ms, 8 ms and 10 ms in turn. -/
theorem clock_goes_on_of_nested_advance :
    ∃ (history : List (Moment Unit)) (c : Clockwork Unit), Run .start history c ∧
      c.charge = .code [] ∧ GoesOn history c ∧
      readings history c = [.ofMillis 10, .ofMillis 8, .ofMillis 8, .ofMillis 5, .ofMillis 5,
        .zero, .zero, .zero] := by
  have hdue : Duration.ofMillis 5 ≤ .ofMillis 10 := by decide
  have hinner : (Duration.ofMillis 5).add? (.ofMillis 3) = .ok (.ofMillis 8) :=
    Duration.add?_eq_ok_iff.mpr (by decide)
  obtain ⟨history, c, run, hidle, -, hinside, hreadings⟩ := run_of_nested_advance hdue hinner
  have hgoesOn := (Run.clock_goes_on run).2.1 (hinside.mpr (by decide))
  exact ⟨history, c, run, hidle, hgoesOn, hreadings⟩

/-- A task that is due after 5 ms of an advance by 10 ms lets 100 ms pass itself.  The clock shows
105 ms when the task is done, and 10 ms when the advance is over. -/
theorem clock_set_back :
    ∃ (history : List (Moment Unit)) (c : Clockwork Unit), Run .start history c ∧
      c.charge = .code [] ∧ c.now = .ofMillis 10 ∧ .ofMillis 105 ∈ readings history c ∧
      ¬ GoesOn history c := by
  have hdue : Duration.ofMillis 5 ≤ .ofMillis 10 := by decide
  have hinner : (Duration.ofMillis 5).add? (.ofMillis 100) = .ok (.ofMillis 105) :=
    Duration.add?_eq_ok_iff.mpr (by decide)
  obtain ⟨history, c, run, hidle, -, -, hreadings⟩ := run_of_nested_advance hdue hinner
  have hnow : c.now = .ofMillis 10 := (List.cons.inj hreadings).1
  have hmem : .ofMillis 105 ∈ readings history c := by
    rw [hreadings]
    exact List.mem_cons_of_mem _ (List.mem_cons_self ..)
  refine ⟨history, c, run, hidle, hnow, hmem, fun hgoesOn => ?_⟩
  unfold GoesOn at hgoesOn
  rw [hreadings] at hgoesOn
  have hle := (List.pairwise_cons.mp hgoesOn).1 (.ofMillis 105) (List.mem_cons_self ..)
  exact absurd hle (by decide)

end Clockwork

end ModemLink
