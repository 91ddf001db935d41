import ModemLink.Engine
import ModemLink.Proofs.StationRules

/-!
# Runs of the engine

A run is what the surroundings do with an engine, one move after the other.  Outside the
surroundings may make a call or answer the outgoing call that was made last; while an advance is
under way the engine runs the next due task; and a call that was cut off has those that wait below
it abandoned.  Nothing is said about the radio and the targets: they may answer anything, and call
again before they answer.

The moments of a run, the latest in front, say all that happened between the engine and its
surroundings: what was submitted, which calls the engine made, how they were answered.

* `Step.course` -- a move runs one transition, or changes nothing but the clock and the
  surroundings, or gives up a call that waits;
* `follow_of_wp` -- how a transition ends, and what holds then.
-/

namespace ModemLink

/-- So many whole seconds. -/
def Duration.ofSeconds (seconds : Nat) (h : seconds < 18446744073709551616) : Duration :=
  ⟨seconds * 1000000000, by unfold maxNanos; omega⟩

/-- An action of the station is judged by what it does there. -/
theorem Hub.wp_atStation {α : Type} {act : Clocked Station α} {post : α → Hub → Prop}
    {cut : Hub → Prop} {hub : Hub} :
    Clocked.wp (atStation act) post cut hub ↔
      Clocked.wp act (fun a station => post a { hub with station })
        (fun station => cut { hub with station }) hub.station :=
  Clocked.wp_within _ _ _

/-- To schedule the next attempt to bind changes the timeline, and the note of it in the link. -/
theorem Hub.wp_scheduleReconnect {post : Unit → Hub → Prop} {cut : Hub → Prop} {hub : Hub}
    (h : ∀ timeline retryArmed, post () { hub with
      station := { hub.station with timeline }
      link := { hub.link with retryArmed } })
    (hcut : ∀ retryArmed, cut { hub with link := { hub.link with retryArmed } }) :
    Clocked.wp scheduleReconnect post cut hub := by
  simp only [scheduleReconnect, Clocked.wp_bind, Clocked.wp_get, Link.armRetry]
  split
  · exact h hub.station.timeline hub.link.retryArmed
  · rename_i link hlink
    obtain rfl : { hub.link with retryArmed := true } = link := by
      split at hlink
      · cases hlink
      · exact Option.some.inj hlink
    simp only [Clocked.wp_bind, Clocked.wp_set, wp_atStation]
    exact Station.wp_schedule (fun timeline _ => h timeline true) (hcut true)

/-- What is done with an engine at one moment. -/
inductive Move where
  | call (call : Call)
  /-- The answer to the outgoing call that was made last. -/
  | answer (call : Outgoing) (answer : call.Answer)
  /-- The next due task of an advance is run. -/
  | fire
  /-- The outgoing call that was made last is given up, because a call made under it was cut off. -/
  | abandon
  /-- Owners come and go. -/
  | owners (count : Nat)
  /-- Subscribers come, go, and take out what came for them. -/
  | subscribers (subscribers : Subscribers)

/-- A move, with the engine before and after it. -/
structure Moment where
  before : Engine
  move : Move
  after : Engine

/-- The target of a request that a move submits. -/
def Move.submitted : Move → List TargetId
  | .call (.submit _ _ target _) => [target]
  | _ => []

/-- The requests that the owner of an outgoing call has still to fail when it is answered. -/
def Outgoing.carried : Outgoing → List PendingRequest
  | .deliver _ (.drain rest _) => rest
  | _ => []

/-- The target that an outgoing call hands a result to. -/
def Outgoing.delivered : Outgoing → List TargetId
  | .deliver delivery _ => [delivery.target]
  | _ => []

/-- The requests that the owners of waiting calls have still to fail. -/
def carriedBy (stack : List Suspension) : List PendingRequest := stack.flatMap (·.call.carried)

@[simp] theorem carriedBy_nil : carriedBy [] = [] := rfl

@[simp] theorem carriedBy_cons (top : Suspension) (rest : List Suspension) :
    carriedBy (top :: rest) = top.call.carried ++ carriedBy rest := rfl

namespace Engine

/-- The requests that deaths have taken out of the ledger and that are not failed yet. -/
def drained (e : Engine) : List PendingRequest := carriedBy e.stack

/-- Whether the last call or advance was cut off by an overflow. -/
def IsCut (e : Engine) : Prop := ∃ overflow, e.control = .outside (some (.cut overflow))

theorem not_isCut {e : Engine} (last : Option Returned) (h : e.control = .outside last)
    (hlast : ∀ overflow, last ≠ some (.cut overflow)) : ¬ e.IsCut := by
  rintro ⟨overflow, hcut⟩
  rw [h] at hcut
  exact hlast overflow (Control.outside.inj hcut)

/-- The outgoing call that has been made just now. -/
def calling (e : Engine) : Option Outgoing :=
  match e.control, e.stack with
  | .outside none, top :: _ => some top.call
  | _, _ => none

/-- Whether a call can come to its end.  A submission looks for a free serial until it finds one. -/
def Admits (e : Engine) : Call → Prop
  | .submit _ _ _ _ => e.hub.station.ledger.size < Serial.space
  | _ => True

instance (e : Engine) (call : Call) : Decidable (e.Admits call) :=
  match call with
  | .submit _ _ _ _ => inferInstanceAs (Decidable (e.hub.station.ledger.size < Serial.space))
  | .connect | .receive _ | .die _ | .advance _ => inferInstanceAs (Decidable True)

/-- A move of the surroundings or of the engine itself. -/
inductive Step : Engine → Move → Engine → Prop
  | call {e : Engine} {last : Option Returned} (call : Call) (control : e.control = .outside last)
      (admits : e.Admits call) : Step e (.call call) (e.call call)
  | answer {e : Engine} {rest : List Suspension} (advance : Option Advance) (call : Outgoing)
      (answer : call.Answer) (last : Option Returned) (control : e.control = .outside last)
      (stack : e.stack = ⟨advance, call⟩ :: rest) :
      Step e (.answer call answer) (e.resume ⟨advance, call⟩ answer)
  | fire {e : Engine} {advance : Advance} (control : e.control = .firing advance) :
      Step e .fire (e.fire advance)
  | abandon {e : Engine} {overflow : Overflow}
      (control : e.control = .outside (some (.cut overflow))) (stack : e.stack ≠ []) :
      Step e .abandon (e.abandon overflow)
  | owners {e : Engine} {last : Option Returned} (count : Nat)
      (control : e.control = .outside last) : Step e (.owners count) { e with owners := count }
  | subscribers {e : Engine} {last : Option Returned} (subscribers : Subscribers)
      (control : e.control = .outside last) :
      Step e (.subscribers subscribers)
        { e with hub := { e.hub with station := { e.hub.station with subscribers } } }

end Engine

/-- The outgoing call that the engine made at a moment. -/
def Moment.made (m : Moment) : Option Outgoing :=
  match m.move with
  | .owners _ => none
  | .subscribers _ => none
  | _ => m.after.calling

/-- The moments of a run, the latest in front. -/
abbrev History := List Moment

namespace History

/-- The targets of all submitted requests. -/
def submitted (history : History) : List TargetId := history.flatMap (·.move.submitted)

/-- The targets of all results that were handed out. -/
def delivered (history : History) : List TargetId :=
  history.flatMap fun m => m.made.elim [] Outgoing.delivered

/-- No call and no advance was cut off by an overflow. -/
def Uncut (history : History) : Prop := ∀ m ∈ history, ¬ m.after.IsCut

end History

/-- The runs of an engine with what happened in them.  A target is for one request only. -/
inductive Run (start : Engine) : History → Engine → Prop
  | start : Run start [] start
  | step {history : History} {e after : Engine} {move : Move} (run : Run start history e)
      (step : e.Step move after) (fresh : ∀ target ∈ move.submitted, target ∉ history.submitted) :
      Run start (⟨e, move, after⟩ :: history) after

/-- No target is submitted twice. -/
theorem Run.nodup_submitted {start e : Engine} {history : History} (run : Run start history e) :
    history.submitted.Nodup := by
  induction run with
  | start => exact List.nodup_nil
  | @step history e after move run step fresh ih =>
      refine List.nodup_append.mpr ⟨?_, ih, fun target hnew other hold heq => ?_⟩
      · change move.submitted.Nodup
        unfold Move.submitted
        split <;> simp
      · exact fresh target hnew (heq ▸ hold)

/-- Each moment of a run was a move from what the moments before it had led to. -/
theorem Run.split {start e : Engine} {later earlier : History} {m : Moment}
    (run : Run start (later ++ m :: earlier) e) :
    Run start earlier m.before ∧ m.before.Step m.move m.after := by
  induction later generalizing e with
  | nil =>
      cases run with
      | step run step fresh => exact ⟨run, step⟩
  | cons last later ih =>
      cases run with
      | step run step fresh => exact ih run

theorem History.uncut_cons {m : Moment} {history : History} :
    History.Uncut (m :: history) ↔ ¬ m.after.IsCut ∧ history.Uncut :=
  List.forall_mem_cons

namespace Run

variable {start e : Engine} {history : History}

theorem call (run : Run start history e) (call : Call) (last : Option Returned)
    (control : e.control = .outside last) (admits : e.Admits call)
    (fresh : ∀ target ∈ (Move.call call).submitted, target ∉ history.submitted) :
    Run start (⟨e, .call call, e.call call⟩ :: history) (e.call call) :=
  run.step (.call call control admits) fresh

theorem answer (run : Run start history e) (advance : Option Advance) (call : Outgoing)
    (answer : call.Answer) (last : Option Returned) {rest : List Suspension}
    (control : e.control = .outside last) (stack : e.stack = ⟨advance, call⟩ :: rest) :
    Run start (⟨e, .answer call answer, e.resume ⟨advance, call⟩ answer⟩ :: history)
      (e.resume ⟨advance, call⟩ answer) :=
  run.step (.answer advance call answer last control stack) (by simp [Move.submitted])

theorem fire (run : Run start history e) (advance : Advance)
    (control : e.control = .firing advance) :
    Run start (⟨e, .fire, e.fire advance⟩ :: history) (e.fire advance) :=
  run.step (.fire control) (by simp [Move.submitted])

end Run

namespace Engine

/-- An engine with the default settings, whose serials start at 100. -/
def plain : Engine := start {} (some 100) ⟨[]⟩ .silent

/-- There is a run that submits a request and sends it. -/
theorem exists_run_sent :
    ∃ history e, Run plain history e ∧ history.Uncut ∧ e.stack = [] ∧
      history.submitted = [⟨0⟩] ∧ e.hub.station.ledger.size = 1 ∧
      e.hub.link.current = some ⟨⟨0⟩, ⟨1⟩⟩ ∧ history.length = 3 := by
  have started : Run plain [] plain := .start
  have waiting := started.call (.submit .getImei .empty ⟨0⟩ none) none rfl (by decide)
    (by simp [History.submitted])
  have bound := waiting.answer none (.bind ⟨1⟩ (.submission ⟨100⟩ .getImei .empty))
    (Except.ok (⟨0⟩ : Handle)) none rfl rfl
  have sent := bound.answer none (.send ⟨⟨0⟩, ⟨1⟩⟩ ⟨100⟩ .getImei .empty) (Except.ok ()) none rfl
    rfl
  refine ⟨_, _, sent, ?_, rfl, rfl, rfl, rfl, rfl⟩
  simp only [History.uncut_cons]
  refine ⟨?_, ?_, ?_, by simp [History.Uncut]⟩ <;> rintro ⟨overflow, hcut⟩ <;> cases hcut

/-! ## What a move does -/

/-- The transition that a move runs, the hub it is run on, and the calls that wait meanwhile. -/
inductive Passage (e : Engine) :
    Move → Option Advance → List Suspension → Hub → Clocked Hub Progress → Prop
  | submit {kind : RequestKind} {payload : Payload} {target : TargetId} {source : Option WorkSource}
      (room : e.hub.station.ledger.size < Serial.space) :
      Passage e (.call (.submit kind payload target source)) none e.stack e.hub
        (Hub.submit kind payload target source)
  | connect : Passage e (.call .connect) none e.stack e.hub (Hub.bind .connection)
  | receive {frame : Frame} :
      Passage e (.call (.receive frame)) none e.stack e.hub (Hub.receive frame)
  | die {cookie : Epoch} :
      Passage e (.call (.die cookie)) none e.stack e.hub (Hub.die cookie .report)
  | answer {advance : Option Advance} {call : Outgoing} (answer : call.Answer)
      {rest : List Suspension} (stack : e.stack = ⟨advance, call⟩ :: rest) :
      Passage e (.answer call answer) advance rest e.hub (Hub.answered call answer)
  | task {advance : Advance} {task : Task} {timeline : Timeline Task} :
      Passage e .fire (some advance) e.stack (e.withTimeline timeline).hub (Hub.runTask task)

/-- A move that runs a transition makes the call that the transition ends with. -/
theorem Passage.made {e after : Engine} {move : Move} {advance : Option Advance}
    {base : List Suspension} {hub : Hub} {transition : Clocked Hub Progress}
    (h : e.Passage move advance base hub transition) :
    (Moment.mk e move after).made = after.calling := by
  cases h <;> rfl

/-- What a move may come to. -/
inductive Course (e : Engine) (move : Move) : Engine → Prop
  | passage {advance : Option Advance} {base : List Suspension} {hub : Hub}
      {transition : Clocked Hub Progress} (passage : e.Passage move advance base hub transition) :
      Course e move ({ e with hub, stack := base }.follow advance transition)
  | quiet (timeline : Timeline Task) (subscribers : Subscribers) {control : Control} {owners : Nat}
      (submitted : move.submitted = [])
      (made : ∀ after, after.control = control → (Moment.mk e move after).made = none) :
      Course e move
        { e with
          hub := { e.hub with station := { e.hub.station with timeline, subscribers } }
          control
          owners }
  | abandoned {overflow : Overflow} (move_eq : move = .abandon) :
      Course e move (e.abandon overflow)

theorem calling_of_control {e : Engine} (h : e.control ≠ .outside none) : e.calling = none := by
  unfold calling
  split
  · rename_i hcontrol _
    exact absurd hcontrol h
  · rfl

/-- A move runs one transition, or changes nothing but the clock and the surroundings, or gives up a
call that waits. -/
theorem Step.course {e after : Engine} {move : Move} (h : e.Step move after) :
    Course e move after := by
  cases h with
  | call call hcontrol hadmits =>
      cases call with
      | submit kind payload target source => exact .passage (.submit hadmits)
      | connect => exact .passage .connect
      | receive frame => exact .passage .receive
      | die cookie => exact .passage .die
      | advance length =>
          simp only [Engine.call]
          split
          · exact .quiet e.hub.station.timeline e.hub.station.subscribers rfl
              fun after hafter => calling_of_control (by simp [hafter])
          · exact .quiet e.hub.station.timeline e.hub.station.subscribers rfl
              fun after hafter => calling_of_control (by simp [hafter])
  | answer advance call answer last hcontrol hstack =>
      have hcourse := Course.passage (.answer answer hstack)
      simp only [Engine.resume, hstack, List.tail_cons]
      exact hcourse
  | @fire advance hcontrol =>
      unfold Engine.fire
      split
      · exact .quiet _ e.hub.station.subscribers rfl
          fun after hafter => calling_of_control (by simp [hafter])
      · dsimp only
        split
        · exact .passage .task
        · exact .quiet _ e.hub.station.subscribers rfl
            fun after hafter => calling_of_control (by simp [hafter])
  | abandon hcontrol hstack => exact .abandoned rfl
  | owners count hcontrol =>
      exact .quiet e.hub.station.timeline e.hub.station.subscribers rfl fun _ _ => rfl
  | subscribers subscribers hcontrol =>
      exact .quiet e.hub.station.timeline subscribers rfl fun _ _ => rfl

/-- How a transition ends, and what holds then: with an outgoing call, with the end of a call or a
task, or cut off. -/
theorem follow_of_wp (advance : Option Advance) {transition : Clocked Hub Progress} (e : Engine)
    {post : Progress → Hub → Prop} {cut : Hub → Prop} (h : Clocked.wp transition post cut e.hub) :
    (∃ call hub, post (.waits call) hub ∧
      e.follow advance transition =
        { e with hub, stack := ⟨advance, call⟩ :: e.stack, control := .outside none }) ∨
    (∃ returned hub control, post (.ends returned) hub ∧ control ≠ .outside none ∧
      e.follow advance transition = { e with hub, control }) ∨
    (∃ overflow hub, cut hub ∧
      e.follow advance transition =
        { e with hub, control := .outside (some (.cut overflow)) }) := by
  unfold follow
  split
  · rename_i call hub hrun
    exact .inl ⟨call, hub, (Clocked.wp_of_ok hrun).mp h, rfl⟩
  · rename_i returned hub hrun
    have hpost := (Clocked.wp_of_ok hrun).mp h
    cases advance with
    | none => exact .inr (.inl ⟨returned, hub, _, hpost, by simp, rfl⟩)
    | some advance => exact .inr (.inl ⟨returned, hub, _, hpost, by simp, rfl⟩)
  · rename_i overflow hub hrun
    exact .inr (.inr ⟨overflow, hub, (Clocked.wp_of_error hrun).mp h, rfl⟩)

end Engine

end ModemLink
