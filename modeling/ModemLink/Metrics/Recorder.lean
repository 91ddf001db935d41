import ModemLink.Metrics.Tallies

/-!
# The recorder

Every measurement goes to the books in memory and then to a second store outside, if there is one.
If the books in memory stop it with an overflow it does not reach the second store.
-/

namespace ModemLink

/-- The second store of measurements. -/
inductive OutsideStore where
  | silent
  | books (metrics : Metrics)
  | exposition (x : Exposition .tallies)
deriving Inhabited

namespace OutsideStore

/-- Enters a measurement into the second store. -/
def record (m : Measurement) : Clocked OutsideStore Unit := fun store =>
  match store with
  | .silent => .ok () .silent
  | .books metrics =>
    match Metrics.record m metrics with
    | .ok () metrics => .ok () (.books metrics)
    | .error overflow metrics => .error overflow (.books metrics)
  | .exposition x => .ok () (.exposition (x.record m))

end OutsideStore

/-- Both stores. -/
structure Recorder (σ : Type := OutsideStore) where
  books : Metrics
  outside : σ
deriving Inhabited

namespace Recorder

/-- Enters a measurement into both stores, the books in memory first. -/
def recordBoth {σ : Type} (enter : Measurement → Clocked σ Unit) (m : Measurement) :
    Clocked (Recorder σ) Unit := do
  Clocked.within Recorder.books (fun books r => { r with books }) (Metrics.record m)
  Clocked.within Recorder.outside (fun outside r => { r with outside }) (enter m)

/-- Enters a measurement into the books in memory and the second store there is. -/
def record (m : Measurement) : Clocked Recorder Unit := recordBoth OutsideStore.record m

end Recorder

end ModemLink
