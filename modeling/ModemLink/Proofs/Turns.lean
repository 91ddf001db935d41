import ModemLink.Proofs.Rearming

/-!
# How an uncut move comes about

A move that is not cut off either makes one turn of the hub, or lets the clock go on, or changes
nothing that the link and the timeline know of.  `Turning` lists the ways, each with what it does to
the link, the timers, the calls that wait and the control.

Time may be kept to the outermost calls: no advance of the clock begins while another call waits.
Then at most one advance is under way at any moment, and only the call that was made first may
belong to it.

* `Engine.Step.turning` -- every uncut move in service is one of these;
* `Engine.Step.turning_or_lapses` -- out of service a scheduled attempt may lapse besides;
* `Engine.Advancing`, `Engine.advancing_reach` -- which advance is under way.
-/

namespace ModemLink

namespace Engine

open Clocked

variable {e after : Engine} {move : Move} {advance : Option Advance} {progress : Progress}
  {hub : Hub}

/-- The engine after a transition that came so far. -/
def reach (e : Engine) (advance : Option Advance) (progress : Progress) (hub : Hub) : Engine :=
  match progress with
  | .waits call => { e with hub, stack := ⟨advance, call⟩ :: e.stack, control := .outside none }
  | .ends returned =>
    match advance with
    | none => { e with hub, control := .outside (some returned) }
    | some advance => { e with hub, control := .firing advance.step }

@[simp] theorem hub_reach : (e.reach advance progress hub).hub = hub := by
  unfold reach
  split
  · rfl
  · split <;> rfl

/-- A call that was made is the one that waits first. -/
theorem calling_reach :
    (e.reach advance progress hub).calling =
      match progress with
      | .waits call => some call
      | .ends _ => none := by
  unfold reach
  split
  · rfl
  · split <;> rfl

/-- What waits waits on, below a call that was made. -/
theorem mem_stack_reach {suspension : Suspension} (h : suspension ∈ e.stack) :
    suspension ∈ (e.reach advance progress hub).stack := by
  unfold reach
  split
  · exact List.mem_cons_of_mem _ h
  · split <;> exact h

/-- A transition that is not cut off ends somewhere. -/
theorem follow_eq_reach {transition : Clocked Hub Progress} {post : Progress → Hub → Prop}
    (hwp : wp transition post (fun _ => True) e.hub)
    (huncut : ¬ (e.follow advance transition).IsCut) :
    ∃ progress hub, post progress hub ∧
      e.follow advance transition = e.reach advance progress hub := by
  cases hrun : transition e.hub with
  | ok progress hub =>
      refine ⟨progress, hub, (wp_of_ok hrun).mp hwp, ?_⟩
      unfold follow reach
      rw [hrun]
      cases progress <;> rfl
  | error overflow hub =>
      refine absurd ⟨overflow, ?_⟩ huncut
      unfold follow
      rw [hrun]

/-- How an uncut move comes about. -/
inductive Turning (e : Engine) : Move → Engine → Prop
  | called {call : Call} {last : Option Returned} {progress : Progress} {hub : Hub}
      (control : e.control = .outside last) (turn : e.hub.Turn (.call call) progress hub) :
      Turning e (.call call) (e.reach none progress hub)
  | answered {advance : Option Advance} {call : Outgoing} {answer : call.Answer}
      {rest : List Suspension} {last : Option Returned} {progress : Progress} {hub : Hub}
      (control : e.control = .outside last) (stack : e.stack = ⟨advance, call⟩ :: rest)
      (turn : e.hub.Turn (.answer call answer) progress hub) :
      Turning e (.answer call answer) ({ e with stack := rest }.reach advance progress hub)
  /-- A task of the station was run, or one whose owner is gone was passed over. -/
  | ran {advance : Advance} {task : Task} {timeline : Timeline Task} {progress : Progress}
      {hub : Hub} (control : e.control = .firing advance)
      (due : e.hub.station.timeline.popDue? advance.target = some (task, timeline))
      (other : task ≠ .reconnect) (rearms : Hub.Rearms (e.withTimeline timeline).hub hub)
      (link : hub.link = e.hub.link) (binds : progress.binds = false) :
      Turning e .fire ((e.withTimeline timeline).reach (some advance) progress hub)
  /-- The scheduled attempt was not needed. -/
  | spared {advance : Advance} {timeline : Timeline Task} {progress : Progress}
      (control : e.control = .firing advance)
      (due : e.hub.station.timeline.popDue? advance.target = some (.reconnect, timeline))
      (bound : e.hub.link.phase = .bound) (binds : progress.binds = false) :
      Turning e .fire ((e.withTimeline timeline).reach (some advance) progress
        { (e.withTimeline timeline).hub with link := e.hub.link.disarmRetry })
  /-- The scheduled attempt was made. -/
  | attempted {advance : Advance} {timeline : Timeline Task}
      (control : e.control = .firing advance)
      (due : e.hub.station.timeline.popDue? advance.target = some (.reconnect, timeline))
      (unbound : e.hub.link.phase ≠ .bound) :
      Turning e .fire ((e.withTimeline timeline).reach (some advance)
        (.waits (.bind e.hub.link.epoch.next .retry))
        { (e.withTimeline timeline).hub with link := e.hub.link.disarmRetry.beginBind })
  | departs {length : Duration} {last : Option Returned} {advance : Advance}
      (control : e.control = .outside last)
      (target : advance.target.nanos = e.now.nanos + length.nanos) :
      Turning e (.call (.advance length)) { e with control := .firing advance }
  | arrives {advance : Advance} (control : e.control = .firing advance)
      (due : e.hub.station.timeline.popDue? advance.target = none) :
      Turning e .fire
        { e.withTimeline (e.hub.station.timeline.setNow advance.target) with
          control := .outside (some (.advanced advance.fired)) }
  | owned {last : Option Returned} {count : Nat} (control : e.control = .outside last) :
      Turning e (.owners count) { e with owners := count }
  | subscribed {last : Option Returned} {subscribers : Subscribers}
      (control : e.control = .outside last) :
      Turning e (.subscribers subscribers)
        { e with hub := { e.hub with station := { e.hub.station with subscribers } } }

/-- An advance that is not cut off leads as far on as it is long. -/
theorem exists_advance_of_not_isCut {length : Duration}
    (huncut : ¬ (e.call (.advance length)).IsCut) :
    ∃ advance : Advance, advance.target.nanos = e.now.nanos + length.nanos ∧
      e.call (.advance length) = { e with control := .firing advance } := by
  cases hbegin : e.hub.station.timeline.beginAdvance length with
  | error overflow =>
      simp only [call, hbegin] at huncut
      exact absurd ⟨overflow, rfl⟩ huncut
  | ok advance =>
      simp only [call, hbegin]
      refine ⟨advance, ?_, rfl⟩
      cases hsum : e.hub.station.timeline.now.add? length with
      | error overflow =>
          simp only [Timeline.beginAdvance, hsum] at hbegin
          cases hbegin
      | ok target =>
          simp only [Timeline.beginAdvance, hsum] at hbegin
          cases hbegin
          exact Duration.add?_eq_ok_iff.mp hsum

theorem turning_advance {length : Duration} {last : Option Returned}
    (control : e.control = .outside last) (huncut : ¬ (e.call (.advance length)).IsCut) :
    Turning e (.call (.advance length)) (e.call (.advance length)) := by
  obtain ⟨advance, htarget, heq⟩ := exists_advance_of_not_isCut huncut
  rw [heq]
  exact .departs control htarget

/-- The scheduled attempt was taken off, but the link it is for is gone. -/
def Lapses (e : Engine) (move : Move) (after : Engine) : Prop :=
  move = .fire ∧ ∃ advance timeline, e.control = .firing advance ∧
    e.hub.station.timeline.popDue? advance.target = some (.reconnect, timeline) ∧
    (e.withTimeline timeline).serves .reconnect = false ∧
    after = { e.withTimeline timeline with control := .firing advance.step }

theorem turning_fire {advance : Advance} (control : e.control = .firing advance)
    (huncut : ¬ (e.fire advance).IsCut) :
    Turning e .fire (e.fire advance) ∨ Lapses e .fire (e.fire advance) := by
  cases hdue : e.hub.station.timeline.popDue? advance.target with
  | none =>
      simp only [fire, hdue]
      exact .inl (.arrives control hdue)
  | some due =>
      obtain ⟨task, timeline⟩ := due
      simp only [fire, hdue] at huncut ⊢
      cases hserves : (e.withTimeline timeline).serves task with
      | true =>
          rw [hserves, if_pos rfl] at huncut
          rw [if_pos rfl]
          by_cases htask : task = .reconnect
          · subst htask
            obtain ⟨progress, hub, hpost, heq⟩ := follow_eq_reach (Hub.wp_reconnect _) huncut
            rw [heq]
            rcases hpost with ⟨hbound, rfl, hbinds⟩ | ⟨hunbound, rfl, rfl⟩
            · exact .inl (.spared control hdue hbound hbinds)
            · exact .inl (.attempted control hdue hunbound)
          · obtain ⟨progress, hub, ⟨hrearms, hlink, hbinds⟩, heq⟩ :=
              follow_eq_reach (Hub.rearms_runTask _ htask) huncut
            rw [heq]
            exact .inl (.ran control hdue htask hrearms hlink hbinds)
      | false =>
          rw [if_neg Bool.false_ne_true]
          by_cases htask : task = .reconnect
          · subst htask
            exact .inr ⟨rfl, advance, timeline, control, hdue, hserves, rfl⟩
          · have hpassed : Turning e .fire
                ((e.withTimeline timeline).reach (some advance) (.ends .handled)
                  (e.withTimeline timeline).hub) :=
              .ran control hdue htask (.refl _) rfl rfl
            exact .inl hpassed

/-- A call that runs a transition of the hub makes one turn of it. -/
theorem turning_call {call : Call} {last : Option Returned} {transition : Clocked Hub Progress}
    (control : e.control = .outside last) (hcall : e.call call = e.follow none transition)
    (hwp : wp transition (e.hub.Turn (.call call)) (fun _ => True) e.hub)
    (huncut : ¬ (e.call call).IsCut) : Turning e (.call call) (e.call call) := by
  rw [hcall] at huncut ⊢
  obtain ⟨progress, hub, hturn, heq⟩ := follow_eq_reach hwp huncut
  rw [heq]
  exact .called control hturn

/-- Every uncut move is one of these, or lets a scheduled attempt lapse. -/
theorem Step.turning_or_lapses (h : e.Step move after) (huncut : ¬ after.IsCut) :
    Turning e move after ∨ Lapses e move after := by
  cases h with
  | call call control admits =>
      cases call with
      | submit kind payload target source =>
          exact .inl (turning_call control rfl
            (Hub.turn_submit e.hub kind payload target source) huncut)
      | connect => exact .inl (turning_call control rfl (Hub.turn_connect e.hub) huncut)
      | receive frame => exact .inl (turning_call control rfl (Hub.turn_receive e.hub frame) huncut)
      | die cookie =>
          refine .inl (turning_call control rfl (Hub.turn_die e.hub .report rfl fun hne => ?_)
            huncut)
          simpa [Move.disturbs, Move.death?]
      | advance length => exact .inl (turning_advance control huncut)
  | @answer rest advance call answer last control stack =>
      have hpopped : e.resume ⟨advance, call⟩ answer =
          { e with stack := rest }.follow advance (Hub.answered call answer) := by
        simp only [resume, stack, List.tail_cons]
      rw [hpopped] at huncut ⊢
      have hwp := Hub.turn_answered e.hub call answer
      obtain ⟨progress, hub, hturn, heq⟩ :=
        follow_eq_reach (e := { e with stack := rest }) hwp huncut
      rw [heq]
      exact .inl (.answered control stack hturn)
  | fire control => exact turning_fire control huncut
  | abandon control stack => exact absurd ⟨_, rfl⟩ huncut
  | owners count control => exact .inl (.owned control)
  | subscribers subscribers control => exact .inl (.subscribed control)

/-- While the engine is in service no attempt lapses. -/
theorem Step.turning (h : e.Step move after) (huncut : ¬ after.IsCut)
    (served : e.inService = true) : Turning e move after := by
  rcases h.turning_or_lapses huncut with hturning | ⟨-, advance, timeline, -, -, hgone, -⟩
  · exact hturning
  · have hserves : (e.withTimeline timeline).serves .reconnect = true := by
      change ((e.inService || _) : Bool) = true
      rw [served, Bool.true_or]
    rw [hserves] at hgone
    cases hgone

/-! ## The advance under way -/

/-- Of the calls that wait only the one made first may be of a task, and then its advance leads to
the limit. -/
def Bottoms (limit : Option Duration) : List Suspension → Prop
  | [] => limit = none
  | [first] => first.advance.map (·.target) = limit
  | top :: next :: rest => top.advance = none ∧ Bottoms limit (next :: rest)

/-- No advance is under way but one that leads to the limit, and no call waits while its tasks are
taken off. -/
def Advancing (limit : Option Duration) (e : Engine) : Prop :=
  match e.control with
  | .firing advance => e.stack = [] ∧ limit = some advance.target
  | .outside _ => Bottoms limit e.stack

variable {limit : Option Duration} {rest : List Suspension}

theorem advancing_outside {last : Option Returned} (control : e.control = .outside last) :
    Advancing limit e ↔ Bottoms limit e.stack := by
  rw [Advancing, control]

theorem advancing_firing {advance : Advance} (control : e.control = .firing advance) :
    Advancing limit e ↔ e.stack = [] ∧ limit = some advance.target := by
  rw [Advancing, control]

theorem Bottoms.cons_none (h : Bottoms limit rest) (call : Outgoing) :
    Bottoms limit (⟨none, call⟩ :: rest) := by
  cases rest with
  | nil => exact h.symm
  | cons next rest => exact ⟨rfl, h⟩

/-- Which call it is that waits does not matter. -/
theorem Bottoms.replace {call : Outgoing} (h : Bottoms limit (⟨advance, call⟩ :: rest))
    (other : Outgoing) : Bottoms limit (⟨advance, other⟩ :: rest) := by
  cases rest with
  | nil => exact h
  | cons next rest => exact h

/-- A call that a task makes waits alone. -/
theorem bottoms_task {advance : Advance} (h : e.stack = []) (call : Outgoing) :
    Bottoms (some advance.target) (⟨some advance, call⟩ :: e.stack) := by
  rw [h]
  rfl

theorem advancing_reach (h : ∀ call, Bottoms limit (⟨advance, call⟩ :: e.stack)) :
    Advancing limit (e.reach advance progress hub) := by
  cases progress with
  | waits call => exact h call
  | ends returned =>
      have hbottom := h (.sendAck ⟨⟨0⟩, .start⟩)
      cases hstack : e.stack with
      | nil =>
          rw [hstack] at hbottom
          cases advance with
          | none =>
              change Bottoms limit e.stack
              rw [hstack]
              exact hbottom.symm
          | some advance => exact ⟨hstack, hbottom.symm⟩
      | cons next rest =>
          rw [hstack] at hbottom
          obtain ⟨rfl, hrest⟩ := hbottom
          change Bottoms limit e.stack
          rw [hstack]
          exact hrest

end Engine

/-- Whether a move begins to let time pass. -/
def Move.advances : Move → Bool
  | .call (.advance _) => true
  | _ => false

/-- Whether a call or an advance was cut off. -/
def Control.cuts : Control → Bool
  | .outside (some (.cut _)) => true
  | _ => false

theorem Engine.isCut_iff {e : Engine} : e.IsCut ↔ e.control.cuts = true := by
  constructor
  · rintro ⟨overflow, hcut⟩
    rw [hcut]
    rfl
  · intro hcuts
    unfold Control.cuts at hcuts
    split at hcuts
    · rename_i overflow hcontrol
      exact ⟨overflow, hcontrol⟩
    · cases hcuts

instance (e : Engine) : Decidable e.IsCut := decidable_of_iff _ Engine.isCut_iff.symm

namespace History

/-- The clock is moved on only while no other call waits. -/
def AdvancesOutermost (history : History) : Prop :=
  ∀ m ∈ history, m.move.advances = true → m.before.stack = []

/-- Calls or owners outside keep the engine in service at every move. -/
def InService (history : History) : Prop := ∀ m ∈ history, m.before.inService = true

variable (history : History)

instance : Decidable history.Uncut :=
  inferInstanceAs (Decidable (∀ m ∈ history, ¬ m.after.IsCut))

instance : Decidable history.AdvancesOutermost :=
  inferInstanceAs (Decidable (∀ m ∈ history, m.move.advances = true → m.before.stack = []))

instance : Decidable history.InService :=
  inferInstanceAs (Decidable (∀ m ∈ history, m.before.inService = true))

end History

end ModemLink
