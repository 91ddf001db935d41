import ModemLink.Engine

/-!
# The status text

A report of the whole engine for people: the link, the pending requests, both guards, the counters
and, once there are any, the latencies.  Lengths of time are shown in whole milliseconds.
-/

namespace ModemLink

/-- What the status text reports. -/
structure Status where
  instanceName : String
  epoch : Epoch
  phase : LinkPhase
  retryArmed : Bool
  pending : List PendingView
  request : GuardView
  ack : GuardView
  counters : Counters
  latency : List (RequestKind × Latency)

namespace Status

/-- The line of a pending request. -/
def pendingLine (view : PendingView) : String :=
  s!"  [{view.serial.label}] {view.kind.name} state={view.state.name} " ++
    s!"age={view.age.millis}ms wakelock={view.guard.name} source={view.source.label}\n"

/-- The line of a guard. -/
def guardLine (view : GuardView) : String :=
  let sources := view.sources.map fun (source, units) => s!"{source.label} x{units}"
  s!"Wakelock {view.guard.name}: count={view.count} held={view.held} " ++
    s!"sequence={view.sequence} generation={view.generation} " ++
    s!"held_total={view.heldTotal.millis}ms timeouts={view.expirations} " ++
    "sources=[" ++ ", ".intercalate sources ++ "]\n"

/-- The two lines of counters. -/
def counterLines (c : Counters) : String :=
  s!"Requests: submitted={c.submitted} success={c.success} rejected={c.rejected} " ++
    s!"unavailable={c.unavailable} timed_out={c.timedOut} violations={c.violations}\n" ++
    s!"Link: binds={c.binds} bind_failures={c.bindFailures} deaths={c.deaths} " ++
    s!"drained={c.drained} acks_received={c.acksReceived} local_acks={c.localAcks} " ++
    s!"indications={c.indications}\n"

/-- The line of the latencies of a kind. -/
def latencyLine : RequestKind × Latency → String
  | (kind, stats) =>
    s!"  {kind.name} count={stats.count} avg={stats.average.millis}ms " ++
      s!"max={stats.max.millis}ms\n"

/-- The status text. -/
def text (s : Status) : String :=
  s!"RadioProxy[{s.instanceName}] epoch={s.epoch.label} phase={s.phase.name} " ++
    s!"reconnect_armed={s.retryArmed}\n" ++
    s!"Pending requests: {s.pending.length}\n" ++
    String.join (s.pending.map pendingLine) ++
    guardLine s.request ++ guardLine s.ack ++ counterLines s.counters ++
    (if s.latency.isEmpty then "" else "Latency:\n" ++ String.join (s.latency.map latencyLine))

end Status

/-- The status of an engine of the given name. -/
def Engine.status (e : Engine) (instanceName : String) : Except Overflow Status := do
  let station := e.hub.station
  let request ← station.governor.view .request station.reading
  let ack ← station.governor.view .ack station.reading
  return {
    instanceName
    epoch := e.hub.link.epoch
    phase := e.hub.link.phase
    retryArmed := e.hub.link.retryArmed
    pending := station.ledger.views station.reading
    request
    ack
    counters := station.recorder.books.counters
    latency := station.recorder.books.latency.toList }

end ModemLink
