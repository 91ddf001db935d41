import ModemLink.Metrics.Collectors
import ModemLink.Metrics.Measurement

/-!
# The exposition

The measurements once more, in the form in which a monitoring system collects them: each goes to one
or two of twelve collectors, under labels that say of which kind it was.
-/

namespace ModemLink

/-- The bounds of the latency histogram, in milliseconds. -/
def Exposition.boundsMillis : List Nat :=
  [1, 2, 5, 10, 25, 50, 100, 250, 500, 1000, 2000, 4000, 8000, 16000]

/-- The bounds of the latency histogram, in seconds. -/
def Exposition.bounds : List Binary64 := boundsMillis.map (Binary64.round · 1000)

/-- The collectors of the radio's measurements. -/
structure Exposition (lib : Collectors) where
  submitted : lib.CounterVec :=
    lib.counterVec "ril_requests_submitted_total" "Requests submitted to the radio" ["kind"]
  completed : lib.CounterVec :=
    lib.counterVec "ril_requests_completed_total" "Requests completed" ["kind", "outcome"]
  latency : lib.HistogramVec :=
    lib.histogramVec "ril_request_latency_seconds" "Time from submission to completion"
      Exposition.bounds ["kind"]
  violations : lib.Counter :=
    lib.counter "ril_protocol_violations_total" "Replies or acks referring to unknown serials"
  acksReceived : lib.Counter :=
    lib.counter "ril_acks_received_total" "Early acknowledgments received from the radio"
  localAcks : lib.Counter :=
    lib.counter "ril_local_acks_sent_total" "Acknowledgments sent back to the radio"
  indications : lib.CounterVec :=
    lib.counterVec "ril_indications_total" "Unsolicited indications received" ["kind"]
  deliveries : lib.CounterVec :=
    lib.counterVec "ril_indication_deliveries_total" "Indications delivered to subscribers" ["kind"]
  wakelockTimeouts : lib.CounterVec :=
    lib.counterVec "ril_wakelock_timeouts_total" "Wakelocks force-released by their timeout"
      ["guard"]
  deaths : lib.Counter :=
    lib.counter "ril_endpoint_deaths_total" "Confirmed deaths of the radio endpoint"
  drained : lib.Counter :=
    lib.counter "ril_drained_requests_total" "Requests failed by an endpoint death"
  binds : lib.CounterVec :=
    lib.counterVec "ril_bind_attempts_total" "Attempts to bind the radio endpoint" ["result"]

namespace Exposition

variable {lib : Collectors}

instance : Inhabited (Exposition lib) := ⟨{}⟩

/-- A latency in seconds. -/
def seconds (latency : Duration) : Binary64 :=
  Binary64.ofNat latency.seconds + Binary64.round latency.subsecond 1000000000

/-- The value of the label for the result of a bind. -/
def bindResult (success : Bool) : String := if success then "success" else "failed"

/-- Enters a measurement. -/
def record (x : Exposition lib) : Measurement → Exposition lib
  | .submitted kind =>
    { x with submitted := lib.increaseAt [kind.name] (.ofNat 1) x.submitted }
  | .completed kind outcome latency =>
    { x with
      completed := lib.increaseAt [kind.name, outcome.name] (.ofNat 1) x.completed
      latency := lib.observeAt [kind.name] (seconds latency) x.latency }
  | .violation => { x with violations := lib.increase (.ofNat 1) x.violations }
  | .ackReceived => { x with acksReceived := lib.increase (.ofNat 1) x.acksReceived }
  | .localAck => { x with localAcks := lib.increase (.ofNat 1) x.localAcks }
  | .indication kind subscribers =>
    { x with
      indications := lib.increaseAt [kind.name] (.ofNat 1) x.indications
      deliveries := lib.increaseAt [kind.name] (.ofNat subscribers) x.deliveries }
  | .wakelockTimeout guard =>
    { x with wakelockTimeouts := lib.increaseAt [guard.name] (.ofNat 1) x.wakelockTimeouts }
  | .death drained =>
    { x with
      deaths := lib.increase (.ofNat 1) x.deaths
      drained := lib.increase (.ofNat drained) x.drained }
  | .bind success => { x with binds := lib.increaseAt [bindResult success] (.ofNat 1) x.binds }

/-- What is collected from each collector, in the order in which they are registered. -/
def families (x : Exposition lib) : List Family :=
  [ lib.collectCounterVec x.submitted,
    lib.collectCounterVec x.completed,
    lib.collectHistogramVec x.latency,
    lib.collectCounter x.violations,
    lib.collectCounter x.acksReceived,
    lib.collectCounter x.localAcks,
    lib.collectCounterVec x.indications,
    lib.collectCounterVec x.deliveries,
    lib.collectCounterVec x.wakelockTimeouts,
    lib.collectCounter x.deaths,
    lib.collectCounter x.drained,
    lib.collectCounterVec x.binds ]

/-- What the registry of all collectors hands out. -/
def gathered (x : Exposition lib) : List Family := lib.gather x.families

end Exposition

end ModemLink
