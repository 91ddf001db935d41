import ModemLink.Telemetry.Log

/-!
# Scripts for telemetry

Telemetry is started twice in a process that has no log yet, and what was started is ended.
-/

namespace ModemLink.Script

open Telemetry

/-- What two starts in one process gave, and the events that were logged. -/
structure TelemetryRun where
  starts : List (Except Fault Running)
  events : List Event

/-- Starts telemetry twice with the same settings, and then ends both in the order of their
starts. -/
def runTelemetry (settings : Settings) : TelemetryRun :=
  let (first, p) := Host.start {} settings
  let (second, p) := p.start settings
  let p := [first, second].foldl
    (fun p start =>
      match start with
      | .ok running => p.stop running
      | .error _ => p) p
  ⟨[first, second], (p.log.map (·.events)).getD []⟩

end ModemLink.Script
