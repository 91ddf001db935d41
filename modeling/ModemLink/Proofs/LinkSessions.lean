import ModemLink.Link.Session
import ModemLink.Proofs.LiveLinks

/-!
# Runs of a link session

A run of a link session is what the surroundings do with it, one move after the other.  While binds
are under way the surroundings may ask for the handle again, report deaths, arm the timer and let
time pass, to any depth; the bind that began last is the one that is answered.

* `Run.split` -- every moment of a run was a move;
* `Step.shift` -- what a move does to the link and to the binds under way;
* `Shift.epoch` -- the epoch moves on exactly when a bind begins or a death is confirmed.
-/

namespace ModemLink

/-- What is done with a link session at one moment. -/
inductive LinkMove where
  | getHandle
  | current
  | confirmDeath (cookie : Epoch)
  | scheduleReconnect
  | advance (length : Duration)
  /-- The next due attempt of an advance is made. -/
  | fire
  /-- The radio answers the bind that began last. -/
  | answer (top : OpenBind) (answer : Except LinkFault Handle)
  /-- The bind that began last is given up, because a call made under it was cut off. -/
  | abandon

/-- A move, with the session before and after it. -/
structure LinkMoment where
  before : LinkSession
  move : LinkMove
  after : LinkSession

/-- The moments of a run, the latest in front. -/
abbrev LinkHistory := List LinkMoment

/-- Whose turn it is when the caller of a bind is told what it came to.  An attempt made by the
timer goes on with its advance in any case. -/
def BindCaller.told (outcome : Except LinkFault LiveLink) : BindCaller → LinkControl
  | .outside => .outside (some (.handle outcome))
  | .retry advance => .firing advance.step

namespace LinkSession

/-- Whether the last call or advance was cut off by an overflow. -/
def IsCut (s : LinkSession) : Prop := ∃ overflow, s.control = .outside (some (.cut overflow))

/-- A move of the surroundings or of the session itself. -/
inductive Step : LinkSession → LinkMove → LinkSession → Prop
  | getHandle {s : LinkSession} {last : Option LinkReturned} (control : s.control = .outside last) :
      Step s .getHandle s.getHandle
  | current {s : LinkSession} {last : Option LinkReturned} (control : s.control = .outside last) :
      Step s .current s
  | confirmDeath {s : LinkSession} {last : Option LinkReturned} (cookie : Epoch)
      (control : s.control = .outside last) :
      Step s (.confirmDeath cookie) (s.confirmDeath cookie).2
  | scheduleReconnect {s : LinkSession} {last : Option LinkReturned}
      (control : s.control = .outside last) : Step s .scheduleReconnect s.scheduleReconnect
  | advance {s : LinkSession} {last : Option LinkReturned} (length : Duration)
      (control : s.control = .outside last) : Step s (.advance length) (s.advance length)
  | fire {s : LinkSession} {advance : Advance} (control : s.control = .firing advance) :
      Step s .fire (s.fire advance)
  | answer {s : LinkSession} {last : Option LinkReturned} {rest : List OpenBind} (top : OpenBind)
      (answer : Except LinkFault Handle) (control : s.control = .outside last)
      (stack : s.stack = top :: rest) : Step s (.answer top answer) (s.answer top answer)
  | abandon {s : LinkSession} {overflow : Overflow} {top : OpenBind} {rest : List OpenBind}
      (control : s.control = .outside (some (.cut overflow))) (stack : s.stack = top :: rest) :
      Step s .abandon (s.abandon overflow)

/-- The runs of a session with what happened in them. -/
inductive Run (delay : Duration) : LinkHistory → LinkSession → Prop
  | start : Run delay [] (.start delay)
  | step {history : LinkHistory} {s after : LinkSession} {move : LinkMove}
      (run : Run delay history s) (step : s.Step move after) :
      Run delay (⟨s, move, after⟩ :: history) after

end LinkSession

namespace LinkMoment

/-- The bind that began at a moment. -/
def begun (m : LinkMoment) : Option OpenBind :=
  if m.before.stack.length < m.after.stack.length then m.after.stack.head? else none

/-- The epoch that a confirmed death started at a moment. -/
def death (m : LinkMoment) : Option Epoch :=
  match m.move with
  | .confirmDeath cookie => (m.before.confirmDeath cookie).1
  | _ => none

variable {m : LinkMoment} {bind : OpenBind}

theorem begun_of_stack_eq (h : m.after.stack = m.before.stack) : m.begun = none := by
  simp [begun, h]

theorem begun_of_cons (h : m.after.stack = bind :: m.before.stack) : m.begun = some bind := by
  simp [begun, h]

theorem begun_of_tail (h : m.before.stack = bind :: m.after.stack) : m.begun = none := by
  refine if_neg ?_
  rw [h, List.length_cons]
  omega

end LinkMoment

namespace LinkHistory

/-- How many binds began. -/
def connects (history : LinkHistory) : Nat := history.countP (·.begun.isSome)

/-- How many deaths were confirmed. -/
def deaths (history : LinkHistory) : Nat := history.countP (·.death.isSome)

/-- How many times the epoch changed. -/
def changes (history : LinkHistory) : Nat := history.connects + history.deaths

/-- The radio answered a bind, of any caller, with this handle and under this cookie. -/
def Granted (history : LinkHistory) (live : LiveLink) : Prop :=
  ∃ m ∈ history, ∃ caller, m.move = .answer ⟨live.epoch, caller⟩ (.ok live.handle)

/-- No call and no advance was cut off by an overflow. -/
def Uncut (history : LinkHistory) : Prop := ∀ m ∈ history, ¬ m.after.IsCut

theorem uncut_cons {m : LinkMoment} {history : LinkHistory} :
    LinkHistory.Uncut (m :: history) ↔ ¬ m.after.IsCut ∧ history.Uncut :=
  List.forall_mem_cons

theorem Granted.cons {history : LinkHistory} {live : LiveLink} (h : history.Granted live)
    (m : LinkMoment) : LinkHistory.Granted (m :: history) live := by
  obtain ⟨n, hn, hanswer⟩ := h
  exact ⟨n, List.mem_cons_of_mem _ hn, hanswer⟩

theorem changes_append (later earlier : LinkHistory) :
    LinkHistory.changes (later ++ earlier) = later.changes + earlier.changes := by
  simp only [changes, connects, deaths, List.countP_append]
  omega

theorem changes_le {earlier history : LinkHistory} (h : earlier <:+ history) :
    earlier.changes ≤ history.changes :=
  Nat.add_le_add h.sublist.countP_le h.sublist.countP_le

/-- A moment without a bind or a death changes no epoch. -/
theorem changes_cons_quiet {m : LinkMoment} {history : LinkHistory} (hbegun : m.begun = none)
    (hdeath : m.death = none) : LinkHistory.changes (m :: history) = history.changes := by
  simp [changes, connects, deaths, hbegun, hdeath]

/-- A bind changes the epoch once. -/
theorem changes_cons_begun {m : LinkMoment} {history : LinkHistory} {bind : OpenBind}
    (hbegun : m.begun = some bind) (hdeath : m.death = none) :
    LinkHistory.changes (m :: history) = history.changes + 1 := by
  simp only [changes, connects, deaths, List.countP_cons, hbegun, hdeath, Option.isSome_some,
    Option.isSome_none, if_true, Bool.false_eq_true, if_false]
  omega

/-- A death changes the epoch once. -/
theorem changes_cons_death {m : LinkMoment} {history : LinkHistory} {epoch : Epoch}
    (hbegun : m.begun = none) (hdeath : m.death = some epoch) :
    LinkHistory.changes (m :: history) = history.changes + 1 := by
  simp [changes, connects, deaths, hbegun, hdeath, Nat.add_assoc]

end LinkHistory

namespace LinkSession

variable {s after : LinkSession} {move : LinkMove} {history : LinkHistory} {delay : Duration}

/-- Each moment of a run was a move from what the moments before it had led to. -/
theorem Run.split {later earlier : LinkHistory} {m : LinkMoment}
    (run : Run delay (later ++ m :: earlier) s) :
    Run delay earlier m.before ∧ m.before.Step m.move m.after := by
  induction later generalizing s with
  | nil =>
      cases run with
      | step run step => exact ⟨run, step⟩
  | cons last later ih =>
      cases run with
      | step run step => exact ih run

theorem Run.not_isCut (run : Run delay history s) (uncut : history.Uncut) : ¬ s.IsCut := by
  cases run with
  | start =>
      rintro ⟨overflow, hcut⟩
      cases hcut
  | step run step => exact (LinkHistory.uncut_cons.mp uncut).1

/-! ## What a move does -/

/-- Arming the timer changes the timeline, and the note of it in the link. -/
theorem arm_cases (s : LinkSession) :
    (∃ new timeline retryArmed,
      arm s = .ok new { s with link := { s.link with retryArmed }, timeline }) ∨
    ∃ overflow retryArmed,
      arm s = .error overflow { s with link := { s.link with retryArmed } } := by
  unfold arm Link.armRetry
  by_cases harmed : s.link.retryArmed = true
  · rw [if_pos harmed]
    exact .inl ⟨false, s.timeline, s.link.retryArmed, rfl⟩
  · rw [if_neg harmed]
    cases hschedule : s.timeline.schedule s.delay () with
    | ok timeline => exact .inl ⟨true, timeline, true, rfl⟩
    | error overflow => exact .inr ⟨overflow, true, rfl⟩

@[simp] theorem hand_link (s : LinkSession) (outcome : Except LinkFault LiveLink)
    (caller : BindCaller) : (s.hand outcome caller).link = s.link := by
  cases caller <;> rfl

@[simp] theorem hand_stack (s : LinkSession) (outcome : Except LinkFault LiveLink)
    (caller : BindCaller) : (s.hand outcome caller).stack = s.stack := by
  cases caller <;> rfl

@[simp] theorem hand_control (s : LinkSession) (outcome : Except LinkFault LiveLink)
    (caller : BindCaller) : (s.hand outcome caller).control = caller.told outcome := by
  cases caller <;> rfl

/-- An answer ends the bind on top.  Its caller is told what it came to, unless that was a fault and
the next attempt could not be scheduled. -/
theorem answer_cases (s : LinkSession) (top : OpenBind) (answer : Except LinkFault Handle) :
    (∃ retryArmed, (s.answer top answer).link =
      { (s.link.endBind top.cookie answer).2 with retryArmed }) ∧
    (s.answer top answer).stack = s.stack.tail ∧
    ((s.answer top answer).control = top.caller.told (s.link.endBind top.cookie answer).1 ∨
      (s.answer top answer).IsCut ∧
        ∃ fault, (s.link.endBind top.cookie answer).1 = .error fault) := by
  unfold LinkSession.answer
  generalize s.link.endBind top.cookie answer = ending
  obtain ⟨outcome, link⟩ := ending
  cases outcome with
  | ok live =>
      refine ⟨⟨link.retryArmed, ?_⟩, ?_, .inl ?_⟩ <;>
        simp only [hand_link, hand_stack, hand_control]
  | error fault =>
      obtain ⟨new, timeline, retryArmed, harm⟩ | ⟨overflow, retryArmed, harm⟩ :=
        arm_cases { s with link, stack := s.stack.tail, failures := s.failures + 1 }
      · simp only [harm, hand_link, hand_stack, hand_control]
        exact ⟨⟨retryArmed, rfl⟩, trivial, .inl trivial⟩
      · simp only [harm]
        exact ⟨⟨retryArmed, rfl⟩, trivial, .inr ⟨⟨overflow, rfl⟩, fault, rfl⟩⟩

/-- What a move does to the link and to the binds under way. -/
inductive Shift (s : LinkSession) (move : LinkMove) (after : LinkSession) : Prop
  | quiet (retryArmed : Bool) (link : after.link = { s.link with retryArmed })
      (stack : after.stack = s.stack) (death : (LinkMoment.mk s move after).death = none)
  | begun (retryArmed : Bool) (caller : BindCaller)
      (link : after.link = Link.beginBind { s.link with retryArmed })
      (stack : after.stack = ⟨s.link.epoch.next, caller⟩ :: s.stack)
      (death : (LinkMoment.mk s move after).death = none)
  | died (link : s.link.confirmDeath s.link.epoch = some after.link)
      (stack : after.stack = s.stack)
      (death : (LinkMoment.mk s move after).death = some after.link.epoch)
  | answered {retryArmed : Bool} {top : OpenBind} {answer : Except LinkFault Handle}
      (move_eq : move = .answer top answer)
      (link : after.link = { (s.link.endBind top.cookie answer).2 with retryArmed })
      (stack : s.stack = top :: after.stack)
  | abandoned (top : OpenBind) (move_eq : move = .abandon) (link : after.link = s.link)
      (stack : s.stack = top :: after.stack) (cut : s.IsCut)

/-- Asking for the handle hands it out or begins a bind. -/
theorem shift_bind {timeline : Timeline Unit} {retryArmed : Bool} {caller : BindCaller}
    (hdeath : (LinkMoment.mk s move after).death = none)
    (hafter : after = bind { s with timeline, link := { s.link with retryArmed } } caller) :
    s.Shift move after := by
  subst hafter
  cases hcurrent : Link.current { s.link with retryArmed } with
  | some live =>
      refine .quiet retryArmed ?_ ?_ hdeath <;> simp only [bind, hcurrent, hand_link, hand_stack]
  | none =>
      refine .begun retryArmed caller ?_ ?_ hdeath <;> simp only [bind, hcurrent]
      rfl

theorem Step.shift (h : s.Step move after) : s.Shift move after := by
  cases h with
  | getHandle control => exact shift_bind rfl rfl
  | current control => exact .quiet _ rfl rfl rfl
  | confirmDeath cookie control =>
      by_cases hcookie : cookie = s.link.epoch
      · subst hcookie
        refine .died ?_ ?_ ?_ <;>
          simp only [LinkMoment.death, LinkSession.confirmDeath, Link.confirmDeath, if_true]
      · have hstale := confirmDeath_of_ne hcookie
        refine .quiet s.link.retryArmed ?_ ?_ (congrArg Prod.fst hstale) <;> rw [hstale]
  | scheduleReconnect control =>
      rcases arm_cases s with ⟨new, timeline, retryArmed, harm⟩ | ⟨overflow, retryArmed, harm⟩ <;>
        refine .quiet retryArmed ?_ ?_ rfl <;> simp only [LinkSession.scheduleReconnect, harm]
  | advance length control =>
      unfold LinkSession.advance
      split <;> exact .quiet _ rfl rfl rfl
  | @fire advance control =>
      unfold LinkSession.fire
      split
      · exact .quiet _ rfl rfl rfl
      · dsimp only
        split
        · exact .quiet _ rfl rfl rfl
        · exact shift_bind rfl rfl
  | @answer last rest top answer control stack =>
      obtain ⟨⟨retryArmed, hlink⟩, hstack, -⟩ := answer_cases s top answer
      refine .answered rfl hlink ?_
      rw [hstack, stack, List.tail_cons]
  | @abandon overflow top rest control stack =>
      refine .abandoned top rfl rfl ?_ ⟨overflow, control⟩
      simp only [LinkSession.abandon, stack, List.tail_cons]

/-- An answer is for the bind on top. -/
theorem Step.of_answer {top : OpenBind} {answer : Except LinkFault Handle}
    (h : s.Step (.answer top answer) after) :
    after = s.answer top answer ∧ ∃ rest, s.stack = top :: rest := by
  cases h with
  | @answer last rest top answer control stack => exact ⟨rfl, rest, stack⟩

/-- The epoch moves on exactly when a bind begins or a death is confirmed. -/
theorem Shift.epoch (h : s.Shift move after) (history : LinkHistory) :
    (after.link.epoch = s.link.epoch ∧
      LinkHistory.changes (⟨s, move, after⟩ :: history) = history.changes) ∨
    (after.link.epoch = s.link.epoch.next ∧
      LinkHistory.changes (⟨s, move, after⟩ :: history) = history.changes + 1) := by
  cases h with
  | quiet retryArmed link stack death =>
      refine .inl ⟨by rw [link], ?_⟩
      exact LinkHistory.changes_cons_quiet (LinkMoment.begun_of_stack_eq stack) death
  | begun retryArmed caller link stack death =>
      refine .inr ⟨by rw [link]; rfl, ?_⟩
      exact LinkHistory.changes_cons_begun (LinkMoment.begun_of_cons stack) death
  | died link stack death =>
      refine .inr ⟨Link.epoch_confirmDeath link, ?_⟩
      exact LinkHistory.changes_cons_death (LinkMoment.begun_of_stack_eq stack) death
  | answered move_eq link stack =>
      subst move_eq
      refine .inl ⟨by rw [link]; exact Link.epoch_endBind .., ?_⟩
      exact LinkHistory.changes_cons_quiet (LinkMoment.begun_of_tail stack) rfl
  | abandoned top move_eq link stack cut =>
      subst move_eq
      refine .inl ⟨by rw [link], ?_⟩
      exact LinkHistory.changes_cons_quiet (LinkMoment.begun_of_tail stack) rfl

end LinkSession

end ModemLink
