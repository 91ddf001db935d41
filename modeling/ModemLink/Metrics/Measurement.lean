import ModemLink.Guard
import ModemLink.IndicationKind
import ModemLink.Metrics.Latency
import ModemLink.Metrics.Outcome

/-!
# Measurements and the books in memory

Whatever is worth counting is reported as a `Measurement`.  The books in memory keep a counter of 64
bits for each sort, which wraps, and the table of latencies.

Main statement: `record_of_not_completed` (only a completion can overflow).
-/

namespace ModemLink

/-- Something worth counting. -/
inductive Measurement where
  | submitted (kind : RequestKind)
  | completed (kind : RequestKind) (outcome : Outcome) (latency : Duration)
  | violation
  | ackReceived
  | localAck
  | indication (kind : IndicationKind) (subscribers : Nat)
  | wakelockTimeout (guard : Guard)
  | death (drained : Nat)
  | bind (success : Bool)
deriving DecidableEq

/-- The counters. -/
structure Counters where
  submitted : UInt64 := 0
  success : UInt64 := 0
  rejected : UInt64 := 0
  unavailable : UInt64 := 0
  timedOut : UInt64 := 0
  violations : UInt64 := 0
  acksReceived : UInt64 := 0
  localAcks : UInt64 := 0
  indications : UInt64 := 0
  wakelockTimeouts : UInt64 := 0
  deaths : UInt64 := 0
  drained : UInt64 := 0
  binds : UInt64 := 0
  bindFailures : UInt64 := 0
deriving DecidableEq, Inhabited

namespace Counters

/-- The completions of all outcomes together. -/
def completed (c : Counters) : UInt64 := c.success + c.rejected + c.unavailable + c.timedOut

/-- Counts one completion. -/
def addOutcome (c : Counters) : Outcome → Counters
  | .success => { c with success := c.success + 1 }
  | .rejected => { c with rejected := c.rejected + 1 }
  | .unavailable => { c with unavailable := c.unavailable + 1 }
  | .timedOut => { c with timedOut := c.timedOut + 1 }

/-- The counter of completions with an outcome. -/
def ofOutcome (c : Counters) : Outcome → UInt64
  | .success => c.success
  | .rejected => c.rejected
  | .unavailable => c.unavailable
  | .timedOut => c.timedOut

/-- Counts a measurement. -/
def count (c : Counters) : Measurement → Counters
  | .submitted _ => { c with submitted := c.submitted + 1 }
  | .completed _ outcome _ => c.addOutcome outcome
  | .violation => { c with violations := c.violations + 1 }
  | .ackReceived => { c with acksReceived := c.acksReceived + 1 }
  | .localAck => { c with localAcks := c.localAcks + 1 }
  | .indication _ _ => { c with indications := c.indications + 1 }
  | .wakelockTimeout _ => { c with wakelockTimeouts := c.wakelockTimeouts + 1 }
  | .death drained =>
    { c with deaths := c.deaths + 1, drained := c.drained + UInt64.ofNat drained }
  | .bind true => { c with binds := c.binds + 1 }
  | .bind false => { c with bindFailures := c.bindFailures + 1 }

end Counters

/-- The books in memory. -/
structure Metrics where
  counters : Counters := {}
  latency : LatencyTable := .empty
deriving DecidableEq, Inhabited

namespace Metrics

/-- Enters a measurement.  A completion is counted before its latency is added up. -/
def record (m : Measurement) : Clocked Metrics Unit := fun metrics =>
  let metrics := { metrics with counters := metrics.counters.count m }
  match m with
  | .completed kind _ latency =>
    match LatencyTable.record kind latency metrics.latency with
    | .ok () table => .ok () { metrics with latency := table }
    | .error overflow table => .error overflow { metrics with latency := table }
  | _ => .ok () metrics

/-- Only the sum of latencies can overflow. -/
theorem record_of_not_completed {m : Measurement}
    (h : ∀ kind outcome latency, m ≠ .completed kind outcome latency) (metrics : Metrics) :
    record m metrics = .ok () { metrics with counters := metrics.counters.count m } := by
  cases m <;> first | rfl | exact absurd rfl (h _ _ _)

end Metrics

end ModemLink
