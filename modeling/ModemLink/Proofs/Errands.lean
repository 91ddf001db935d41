import ModemLink.Proofs.Deaths

/-!
# Errands

A call of the engine, or a task that it runs, makes its outgoing calls one after the other: each is
made when the one before it is answered, and all of them wait over the same calls.  What belongs
together in this way is an errand.  While one of its calls waits, others may call the engine and
wait above it, to any depth; these are errands of their own, and wait over more calls.

So the moments of an errand are told by how many calls wait below: they are those of the moments,
until the errand is over, that have as many below them as its first one.

* `Engine.Step.reach_or_rest`, `Engine.Step.stands` -- what a move leaves on the stack;
* `Errand` -- each moment answers the call that the one before it made;
* `Run.errand` -- the moments of an errand under way, or of one that has just ended.
-/

namespace ModemLink

/-- The call that a moment made is still there, under whatever has come to wait since; or it made
none, nothing has happened since, and what it found below is all that waits. -/
def Moment.Stands (m : Moment) (e : Engine) : Prop :=
  (∃ above advance call, m.made = some call ∧ e.stack = above ++ ⟨advance, call⟩ :: m.base) ∨
    (m.made = none ∧ e = m.after ∧ e.stack = m.base)

namespace Engine

variable {e after : Engine} {move : Move} {advance : Option Advance} {progress : Progress}
  {hub : Hub} {above base : List Suspension} {top : Suspension}

/-- A move runs a transition over what waits below it, or it calls nobody and leaves that as it
is. -/
theorem Step.reach_or_rest (h : e.Step move after) (huncut : ¬ after.IsCut) :
    (∃ poised advance progress hub, poised.stack = (Moment.mk e move after).base ∧
      after = Engine.reach poised advance progress hub ∧
      (Moment.mk e move after).made = after.calling) ∨
    ((Moment.mk e move after).made = none ∧ after.stack = (Moment.mk e move after).base) := by
  rcases h.turning_or_lapses huncut with hturning |
    ⟨rfl, advance, timeline, control, due, gone, rfl⟩
  · cases hturning with
    | called control turn => exact .inl ⟨e, _, _, _, rfl, rfl, rfl⟩
    | @answered advance call answer rest last progress hub control stack turn =>
        refine .inl ⟨{ e with stack := rest }, _, _, _, ?_, rfl, rfl⟩
        rw [Moment.base, stack]
        rfl
    | @ran advance task timeline progress hub control due other rearms link binds =>
        exact .inl ⟨e.withTimeline timeline, _, _, _, rfl, rfl, rfl⟩
    | @spared advance timeline progress control due bound binds =>
        exact .inl ⟨e.withTimeline timeline, _, _, _, rfl, rfl, rfl⟩
    | @attempted advance timeline control due unbound =>
        exact .inl ⟨e.withTimeline timeline, _, _, _, rfl, rfl, rfl⟩
    | departs control target => exact .inr ⟨rfl, rfl⟩
    | arrives control due => exact .inr ⟨rfl, rfl⟩
    | owned control => exact .inr ⟨rfl, rfl⟩
    | subscribed control => exact .inr ⟨rfl, rfl⟩
  · exact .inr ⟨rfl, rfl⟩

/-- A move leaves to wait what waited below it, and the call that it made. -/
theorem Step.stands (h : e.Step move after) (huncut : ¬ after.IsCut) :
    (Moment.mk e move after).Stands after := by
  rcases h.reach_or_rest huncut with ⟨poised, advance, progress, hub, hbase, hafter, hmade⟩ |
    ⟨hmade, hbase⟩
  · rw [Moment.Stands, hmade, ← hbase, hafter, calling_reach]
    cases progress with
    | waits call => exact .inl ⟨[], advance, call, rfl, rfl⟩
    | ends returned =>
        refine .inr ⟨rfl, rfl, ?_⟩
        cases advance <;> rfl
  · exact .inr ⟨hmade, rfl, hbase⟩

/-- The call that is answered is the one on top of the stack. -/
theorem Step.top_of_answer {call : Outgoing} {answer : call.Answer}
    (h : e.Step (.answer call answer) after) :
    ∃ advance rest, e.stack = ⟨advance, call⟩ :: rest := by
  cases h with
  | answer advance call answer last control stack => exact ⟨advance, _, stack⟩

/-- A move answers the call on top of the stack, or it has that call below it. -/
theorem Step.base_cases (h : e.Step move after) (hstack : e.stack = above ++ top :: base) :
    (above = [] ∧ (∃ answer, move = .answer top.call answer) ∧
      (Moment.mk e move after).base = base) ∨
    ∃ between, (Moment.mk e move after).base = between ++ top :: base := by
  cases h with
  | answer advance call answer last control stack =>
      rw [Moment.base, hstack]
      cases above with
      | nil =>
          obtain ⟨rfl, -⟩ := List.cons.inj (hstack.symm.trans stack)
          exact .inl ⟨rfl, ⟨answer, rfl⟩, rfl⟩
      | cons first above => exact .inr ⟨above, rfl⟩
  | _ => exact .inr ⟨above, hstack⟩

end Engine

/-- The moments that have so many waiting calls below them. -/
def History.over (depth : Nat) (history : History) : History :=
  history.filter fun m => m.base.length = depth

namespace History

variable {later earlier : History} {m n : Moment}

theorem over_concat :
    History.over m.base.length (later ++ [m]) = History.over m.base.length later ++ [m] := by
  simp [History.over]

theorem mem_of_mem_over {depth : Nat} (h : n ∈ History.over depth (later ++ [m])) :
    n ∈ later ++ m :: earlier := by
  rcases List.mem_append.mp (List.mem_filter.mp h).1 with hlater | hfirst
  · exact List.mem_append_left _ hlater
  · rw [List.mem_singleton.mp hfirst]
    exact List.mem_append_right _ (List.mem_cons_self ..)

end History

/-- The moments of an errand that began at `m`, the latest in front: each answers the call that the
one before it made. -/
inductive Errand (m : Moment) : History → Prop
  | begins : Errand m [m]
  | goesOn {next last : Moment} {own : History} {call : Outgoing} {answer : call.Answer}
      (errand : Errand m (last :: own)) (made : last.made = some call)
      (answers : next.move = .answer call answer) : Errand m (next :: last :: own)

/-- Every moment of a run was a move that led from one state of the engine to the next. -/
theorem Run.step_of_mem {start e : Engine} {history : History} {m : Moment}
    (run : Run start history e) (hmem : m ∈ history) : m.before.Step m.move m.after := by
  obtain ⟨later, earlier, rfl⟩ := List.append_of_mem hmem
  exact run.split.2

/-- What a run was up to a moment is a run. -/
theorem Run.upTo {start e : Engine} {later earlier : History} {m : Moment}
    (run : Run start (later ++ m :: earlier) e) : Run start (m :: earlier) m.after := by
  induction later generalizing e with
  | nil =>
      cases run with
      | step run hstep fresh => exact run.step hstep fresh
  | cons last later ih =>
      cases run with
      | step run hstep fresh => exact ih run

/-- While an errand is under way, and when it has just ended, its moments are those that have as
many calls below them as its first one; and what the last of them left to wait is there. -/
theorem Run.errand {start e : Engine} {later earlier : History} {m : Moment}
    (run : Run start (later ++ m :: earlier) e) (uncut : History.Uncut (later ++ m :: earlier))
    (underway : ∀ n ∈ later, m.base.length < n.before.stack.length) :
    ∃ last own, History.over m.base.length (later ++ [m]) = last :: own ∧
      Errand m (last :: own) ∧ last.base = m.base ∧ last.Stands e := by
  induction later generalizing e with
  | nil =>
      cases run with
      | step run hstep fresh =>
          refine ⟨_, [], by simp [History.over], .begins, rfl, hstep.stands ?_⟩
          exact (History.uncut_cons.mp uncut).1
  | cons next later ih =>
      cases run with
      | @step _ before after move run hstep fresh =>
          obtain ⟨hnow, uncut⟩ := History.uncut_cons.mp uncut
          obtain ⟨hdeep, underway⟩ := List.forall_mem_cons.mp underway
          obtain ⟨last, own, hown, herrand, hbase, hstands⟩ := ih run uncut underway
          rcases hstands with ⟨above, advance, call, hmade, hstack⟩ | ⟨-, -, hstack⟩
          · rw [hbase] at hstack
            rcases hstep.base_cases hstack with ⟨-, ⟨answer, hmove⟩, hbelow⟩ | ⟨between, hbelow⟩
            · -- The call of the errand is answered: this moment is its next one.
              refine ⟨_, last :: own, ?_, .goesOn herrand hmade hmove, hbelow, hstep.stands hnow⟩
              rw [History.over, List.cons_append, List.filter_cons_of_pos (by simp [hbelow])]
              exact congrArg _ hown
            · -- The call waits on: this moment belongs to another errand.
              have hlonger : m.base.length < (Moment.mk before move e).base.length := by
                rw [hbelow]
                simp
                omega
              refine ⟨last, own, ?_, herrand, hbase, ?_⟩
              · rw [History.over, List.cons_append, List.filter_cons_of_neg (by simp; omega)]
                exact hown
              · rw [Moment.Stands, hbase]
                rcases hstep.stands hnow with ⟨more, advance', call', -, hleft⟩ | ⟨-, -, hleft⟩
                · refine .inl ⟨more ++ ⟨advance', call'⟩ :: between, advance, call, hmade, ?_⟩
                  rw [hleft, hbelow]
                  simp
                · exact .inl ⟨between, advance, call, hmade, hleft.trans hbelow⟩
          · rw [hstack, hbase] at hdeep
            exact absurd hdeep (Nat.lt_irrefl _)

end ModemLink
