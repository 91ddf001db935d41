import Mathlib.Algebra.Order.Ring.Nat
import ModemLink.Loopback
import ModemLink.Proofs.Lockstep
import ModemLink.Proofs.Turns

/-!
# The engine on a bench

On a bench the engine is driven over the loopback radio.  The surroundings give cues: they make a
call, let the bind or the delivery on top of the stack return, change the subscribers or the owners,
or set the radio up.  After a cue the bench goes on by itself until it needs the next one: due tasks
are run, the radio takes commands and acknowledgments at once, and what waits above a call that was
cut off is given up.  So a cue may come from outside or from within a target or a bind, and a run is
a list of cues with the bench before and after each.

What the engine tells its surroundings is noted, with the time.

* `Bench.next?` -- what the bench does by itself;
* `Bench.Run` -- cues with what they led to, the latest in front;
* `Bench.Run.unique` -- the cues decide the run;
* `Bench.Overstrains` -- some advance is cut off at the end of an ack timer, because the time that
  the ack guard was held leaves its range;
* `Bench.perform` -- plays cues, with `Bench.run_of_perform` and `Bench.not_overstrains_of_perform`;
* `Scene.Harmless` -- the scenes that may be taken out of a run.
-/

namespace ModemLink

/-- What the surroundings learn of requests and of the link. -/
inductive Tiding where
  | submitted (serial : Serial)
  | connected (answer : Except LinkFault Epoch)
  | delivered (delivery : Delivery)

/-- A tiding, and the reading of the clock when it came. -/
structure Note where
  time : Duration
  tiding : Tiding

/-- The overflow that cut the last call or advance off, if one did. -/
def Control.overflow? : Control → Option Overflow
  | .outside (some (.cut overflow)) => some overflow
  | _ => none

theorem Control.isSome_overflow? (control : Control) :
    control.overflow?.isSome = control.cuts := by
  rcases control with (_ | returned) | _
  · rfl
  · cases returned <;> rfl
  · rfl

namespace Engine

/-- What the engine has told its surroundings just now. -/
def note? (e : Engine) : Option Note :=
  match e.control, e.stack with
  | .outside none, ⟨_, .deliver delivery _⟩ :: _ => some ⟨e.now, .delivered delivery⟩
  | .outside (some (.submitted serial)), _ => some ⟨e.now, .submitted serial⟩
  | .outside (some (.connected answer)), _ => some ⟨e.now, .connected answer⟩
  | _, _ => none

/-- Whether the next task to be run is an ack timer. -/
def ackDue (e : Engine) : Bool :=
  match e.control with
  | .firing advance => (e.hub.station.timeline.popDue? advance.target).any (·.1.isAckTimer)
  | .outside _ => false

end Engine

/-- An engine over the loopback radio, and what it has told. -/
structure Bench where
  engine : Engine
  radio : Loopback
  /-- The notes, the latest in front. -/
  log : List Note

/-- What the surroundings may do. -/
inductive Cue where
  | call (call : Call)
  /-- The bind on top of the stack connects the radio, or the target on top of it returns. -/
  | proceed
  | owners (count : Nat)
  /-- Subscribers come, go, and take out what came for them. -/
  | subscribers (change : Subscribers → Subscribers)
  /-- The radio is to refuse so many binds. -/
  | refuse (count : Nat)
  | failSends (fails : Bool)
  /-- The radio dies.  Its report of the death is a call. -/
  | kill

namespace Bench

/-- A bench with a fresh radio. -/
def start (c : Config) (seed : Option Int) (entropy : Entropy) (outside : OutsideStore) : Bench :=
  ⟨.start c seed entropy outside, .fresh, []⟩

/-- The engine goes on to a new state; what it tells then is noted. -/
def enter (b : Bench) (e : Engine) : Bench :=
  { b with engine := e, log := e.note?.toList ++ b.log }

/-- The radio answers the call on top of the stack, if it does so at once. -/
def radioAnswers? (b : Bench) : Suspension → Option Bench
  | ⟨advance, .send live serial kind payload⟩ =>
    let (answer, radio) := b.radio.send live.handle serial kind payload
    some ({ b with radio }.enter
      (b.engine.resume ⟨advance, .send live serial kind payload⟩ answer))
  | ⟨advance, .sendAck live⟩ =>
    let (answer, radio) := b.radio.sendAck live.handle
    some ({ b with radio }.enter (b.engine.resume ⟨advance, .sendAck live⟩ answer))
  | _ => none

theorem radioAnswers?_send (b : Bench) (advance : Option Advance) (live : LiveLink)
    (serial : Serial) (kind : RequestKind) (payload : Payload) :
    b.radioAnswers? ⟨advance, .send live serial kind payload⟩ =
      some ({ b with radio := (b.radio.send live.handle serial kind payload).2 }.enter
        (b.engine.resume ⟨advance, .send live serial kind payload⟩
          (b.radio.send live.handle serial kind payload).1)) := rfl

theorem radioAnswers?_sendAck (b : Bench) (advance : Option Advance) (live : LiveLink) :
    b.radioAnswers? ⟨advance, .sendAck live⟩ =
      some ({ b with radio := (b.radio.sendAck live.handle).2 }.enter
        (b.engine.resume ⟨advance, .sendAck live⟩ (b.radio.sendAck live.handle).1)) := rfl

/-- What the bench does by itself, if it does not wait for a cue. -/
def next? (b : Bench) : Option Bench :=
  match b.engine.control with
  | .firing advance => some (b.enter (b.engine.fire advance))
  | .outside last =>
    match b.engine.stack with
    | [] => none
    | top :: _ =>
      match (Control.outside last).overflow? with
      | some overflow => some { b with engine := b.engine.abandon overflow }
      | none => b.radioAnswers? top

/-- Lets the bind or the delivery on top of the stack return. -/
def proceed (b : Bench) : Bench :=
  match b.engine.stack with
  | ⟨advance, .bind cookie use⟩ :: _ =>
    let (answer, radio) := b.radio.connect cookie
    { b with radio }.enter (b.engine.resume ⟨advance, .bind cookie use⟩ answer)
  | ⟨advance, .deliver delivery use⟩ :: _ =>
    b.enter (b.engine.resume ⟨advance, .deliver delivery use⟩ ())
  | _ => b

/-- Changes the subscribers. -/
def resubscribe (b : Bench) (change : Subscribers → Subscribers) : Bench :=
  let station := b.engine.hub.station
  { b with engine := { b.engine with hub := { b.engine.hub with
      station := { station with subscribers := change station.subscribers } } } }

/-- Follows a cue. -/
def take (b : Bench) : Cue → Bench
  | .call call => b.enter (b.engine.call call)
  | .proceed => b.proceed
  | .owners count => { b with engine := { b.engine with owners := count } }
  | .subscribers change => b.resubscribe change
  | .refuse count => { b with radio := { b.radio with refusals := count } }
  | .failSends fails => { b with radio := { b.radio with failSends := fails } }
  | .kill => { b with radio := b.radio.kill.2 }

/-- Whether a cue can come to its end. -/
def Admits (b : Bench) : Cue → Prop
  | .call call => b.engine.Admits call
  | _ => True

instance (b : Bench) : (cue : Cue) → Decidable (b.Admits cue)
  | .call call => inferInstanceAs (Decidable (b.engine.Admits call))
  | .proceed | .owners _ | .subscribers _ | .refuse _ | .failSends _ | .kill =>
    inferInstanceAs (Decidable True)

/-- By itself the bench comes by another state. -/
def Passes (b c : Bench) : Prop := Relation.ReflTransGen (fun b c => b.next? = some c) b c

/-- By itself the bench comes to where it waits for the next cue. -/
def Settles (b c : Bench) : Prop := b.Passes c ∧ c.next? = none

/-- The next thing the bench does is to run an ack timer, and that is cut off: the time that the ack
guard was held leaves its range. -/
def overruns (b : Bench) : Bool := b.engine.ackDue && b.next?.any (·.engine.control.cuts)

/-- No ack timer is cut off before the next cue. -/
def Steady (b : Bench) : Prop := ∀ c, b.Passes c → c.overruns = false

end Bench

/-- A cue, with the bench before it and where it had come to rest after it. -/
structure Scene where
  before : Bench
  cue : Cue
  after : Bench

namespace Bench

/-- The runs of a bench, the latest cue in front. -/
inductive Run (start : Bench) : List Scene → Bench → Prop
  | start : Run start [] start
  | scene {scenes : List Scene} {b c : Bench} {cue : Cue} (run : Run start scenes b)
      (admits : b.Admits cue) (settles : (b.take cue).Settles c) :
      Run start (⟨b, cue, c⟩ :: scenes) c

/-- When these cues are given, the latest in front, some ack timer is cut off. -/
def Overstrains (start : Bench) (cues : List Cue) : Prop :=
  ∃ scenes b cue later, Run start scenes b ∧ b.Admits cue ∧ ¬ (b.take cue).Steady ∧
    cues = later ++ cue :: scenes.map (·.cue)

/-! ## The cues decide the run -/

variable {start b c d : Bench} {cue : Cue} {cues : List Cue} {scenes scenes' : List Scene}

theorem passes_of_next (h : b.next? = some c) (hpasses : c.Passes d) : b.Passes d :=
  .head h hpasses

/-- A bench that waits for a cue comes nowhere else. -/
theorem Passes.eq_of_rest (h : b.Passes c) (hrest : b.next? = none) : c = b := by
  cases h.cases_head with
  | inl heq => exact heq.symm
  | inr hnext =>
      obtain ⟨d, hnext, -⟩ := hnext
      rw [hrest] at hnext
      cases hnext

/-- Whatever the bench comes by later it comes by after its next state. -/
theorem Passes.of_next (h : b.Passes d) (hnext : b.next? = some c) : d = b ∨ c.Passes d := by
  cases h.cases_head with
  | inl heq => exact .inl heq.symm
  | inr hlater =>
      obtain ⟨c', hnext', hpasses⟩ := hlater
      rw [hnext] at hnext'
      obtain rfl := Option.some.inj hnext'
      exact .inr hpasses

theorem steady_iff_of_next (hnext : b.next? = some c) :
    b.Steady ↔ b.overruns = false ∧ c.Steady := by
  constructor
  · intro h
    exact ⟨h b .refl, fun d hpasses => h d (passes_of_next hnext hpasses)⟩
  · rintro ⟨hb, hc⟩ d hpasses
    rcases hpasses.of_next hnext with rfl | hlater
    · exact hb
    · exact hc d hlater

theorem Settles.unique (h : b.Settles c) (h' : b.Settles d) : c = d := by
  obtain ⟨hpasses, hrest⟩ := h
  obtain ⟨hpasses', hrest'⟩ := h'
  induction hpasses using Relation.ReflTransGen.head_induction_on with
  | refl => exact (hpasses'.eq_of_rest hrest).symm
  | head hnext _ ih =>
      rcases Passes.of_next hpasses' hnext with rfl | hlater
      · rw [hrest'] at hnext
        cases hnext
      · exact ih hlater

/-- A bench that waits for a cue after one state more comes to rest there. -/
theorem Settles.eq_of_next (h : b.Settles d) (hnext : b.next? = some c) (hrest : c.next? = none) :
    d = c :=
  h.unique ⟨passes_of_next hnext .refl, hrest⟩

/-- The cues decide the run. -/
theorem Run.unique (run : Run start scenes b) (run' : Run start scenes' c)
    (hcues : scenes.map (·.cue) = scenes'.map (·.cue)) : scenes = scenes' ∧ b = c := by
  induction run generalizing scenes' c with
  | start =>
      cases run' with
      | start => exact ⟨rfl, rfl⟩
      | scene _ _ _ => cases hcues
  | scene _ _ settles ih =>
      cases run' with
      | start => cases hcues
      | scene run' _ settles' =>
          obtain ⟨rfl, hrest⟩ := List.cons.inj hcues
          obtain ⟨rfl, rfl⟩ := ih run' hrest
          obtain rfl := settles.unique settles'
          exact ⟨rfl, rfl⟩

/-- A run leads through all its earlier states. -/
theorem Run.split {later : List Scene} {scene : Scene}
    (run : Run start (later ++ scene :: scenes) b) :
    Run start scenes scene.before ∧ scene.before.Admits scene.cue ∧
      (scene.before.take scene.cue).Settles scene.after := by
  induction later generalizing b with
  | nil =>
      cases run with
      | scene run admits settles => exact ⟨run, admits, settles⟩
  | cons last later ih =>
      cases run with
      | scene run admits settles => exact ih run

/-! ## An acknowledgment -/

/-- The radio takes an acknowledgment at once. -/
theorem next?_sendAck {live : LiveLink} {hub final : Hub}
    (hsent : b.radio.sendFault? live.handle = none)
    (hanswered : Hub.answered (.sendAck live) (Except.ok ()) hub = .ok (.ends .handled) final) :
    (b.enter (b.engine.reach none (.waits (.sendAck live)) hub)).next? =
      some { b with
        engine := { b.engine with hub := final, control := .outside (some .handled) }
        radio := { b.radio with localAcks := b.radio.localAcks + 1 } } := by
  have hsend : b.radio.sendAck live.handle =
      (.ok (), { b.radio with localAcks := b.radio.localAcks + 1 }) := by
    simp only [Loopback.sendAck, hsent]
  have hresume : (b.engine.reach none (.waits (.sendAck live)) hub).resume
      ⟨none, .sendAck live⟩ (Except.ok ()) =
        { b.engine with hub := final, control := .outside (some .handled) } := by
    simp only [Engine.resume, Engine.reach, List.tail_cons, Engine.follow, hanswered]
  calc (b.enter (b.engine.reach none (.waits (.sendAck live)) hub)).next?
      = some (Bench.enter { b with radio := (b.radio.sendAck live.handle).2 }
          ((b.engine.reach none (.waits (.sendAck live)) hub).resume ⟨none, .sendAck live⟩
            (b.radio.sendAck live.handle).1)) := radioAnswers?_sendAck _ none live
    _ = _ := by
      rw [hsend, hresume]
      rfl

/-! ## To play cues -/

/-- Lets the bench come to rest, in so many steps at most, and tells whether it was steady. -/
def settle : Nat → Bench → Option (Bool × Bench)
  | 0, _ => none
  | limit + 1, b =>
    match b.next? with
    | none => some (true, b)
    | some c => (settle limit c).map fun (steady, d) => (!b.overruns && steady, d)

end Bench

/-! ## Scenes that may be taken out -/

/-- Whether a cue changes the subscribers or is an indication. -/
def Cue.isUnsolicited : Cue → Bool
  | .subscribers _ => true
  | .call (.receive (.indication _ _ _)) => true
  | _ => false

/-- The subscribers changed; or an indication came, and it needed no local acknowledgment, or that
was sent without error, or there was no handle to send it on. -/
def Scene.Harmless (scene : Scene) : Prop :=
  match scene.cue with
  | .subscribers _ => True
  | .call (.receive (.indication _ _ ackRequired)) =>
    ¬ (scene.before.take scene.cue).engine.IsCut ∧
      (ackRequired = true → ∀ live, scene.before.engine.hub.link.current = some live →
        scene.before.radio.sendFault? live.handle = none)
  | _ => False

instance : DecidablePred Scene.Harmless
  | ⟨before, .call (.receive (.indication kind payload ackRequired)), _⟩ =>
    inferInstanceAs (Decidable (
      ¬ (before.take (.call (.receive (.indication kind payload ackRequired)))).engine.IsCut ∧
        (ackRequired = true → ∀ live ∈ before.engine.hub.link.current,
          before.radio.sendFault? live.handle = none)))
  | ⟨_, .subscribers _, _⟩ => .isTrue trivial
  | ⟨_, .call (.receive (.ack _)), _⟩ | ⟨_, .call (.receive (.reply _ _ _ _)), _⟩
  | ⟨_, .call (.submit _ _ _ _), _⟩ | ⟨_, .call .connect, _⟩ | ⟨_, .call (.die _), _⟩
  | ⟨_, .call (.advance _), _⟩ | ⟨_, .proceed, _⟩ | ⟨_, .owners _, _⟩ | ⟨_, .refuse _, _⟩
  | ⟨_, .failSends _, _⟩ | ⟨_, .kill, _⟩ => .isFalse id

end ModemLink
