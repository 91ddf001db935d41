import ModemLink.Script.Answer

/-!
# Scripts for the recorder

Measurements entered into both stores of a recorder, or into the second one alone, and measurements
entered into an exposition.
-/

namespace ModemLink.Script

/-- A step on a recorder. -/
inductive RecorderStep where
  /-- Enters a measurement; into the second store alone if so marked. -/
  | record (m : Measurement) (outsideOnly : Bool)
  | latency
  /-- Stops because a length of time in the step is out of range. -/
  | cut (overflow : Overflow)

/-- A look at a recorder. -/
structure RecorderLook where
  books : Counters
  outside : Counters
  completed : UInt64

/-- The counters of the second store, if it keeps books. -/
def outsideCounters (recorder : Recorder) : Counters :=
  match recorder.outside with
  | .books metrics => metrics.counters
  | _ => {}

/-- Runs a step on a recorder. -/
def RecorderStep.run : RecorderStep → Recorder → Answer × Recorder
  | .record m outsideOnly, recorder =>
    let action : Clocked Recorder Unit :=
      if outsideOnly then
        Clocked.within Recorder.outside (fun outside r => { r with outside })
          (OutsideStore.record m)
      else Recorder.record m
    match action recorder with
    | .ok () recorder => (.done, recorder)
    | .error overflow recorder => (.cut overflow, recorder)
  | .latency, recorder => (.latencies recorder.books.latency.toList, recorder)
  | .cut overflow, recorder => (.cut overflow, recorder)

/-- Runs a script on a recorder whose second store keeps books too. -/
def runRecorder (steps : List RecorderStep) : List (Answer × RecorderLook) :=
  trace RecorderStep.run
    (fun r =>
      (⟨r.books.counters, outsideCounters r, r.books.counters.completed⟩, r))
    steps ⟨{}, .books {}⟩

/-- The text of an exposition after some measurements. -/
def expositionText (measurements : List Measurement) : String :=
  (measurements.foldl Exposition.record ({} : Exposition .tallies)).text

end ModemLink.Script
