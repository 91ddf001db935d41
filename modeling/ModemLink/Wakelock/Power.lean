import ModemLink.Guard

/-!
# Calls to the power manager

The device is kept awake by the power manager of the system.  It is told when a guard is taken and
released, and on whose behalf it is held.  A `PowerTrace` is the list of the calls made so far; what
the power manager believes about a guard is what the latest call that concerns it says.

Main statements: `isHeld_push`, `attribution_push`.
-/

namespace ModemLink

/-- One call to the power manager. -/
inductive PowerCall where
  | acquire (guard : Guard)
  | release (guard : Guard)
  | attribute (guard : Guard) (sources : List WorkSource)
deriving DecidableEq

namespace PowerCall

/-- What the call says about whether a guard is held, if it says anything. -/
def holds? (guard : Guard) : PowerCall → Option Bool
  | .acquire g => if g = guard then some true else none
  | .release g => if g = guard then some false else none
  | .attribute _ _ => none

/-- What the call says about whom a guard is held for, if it says anything. -/
def attributes? (guard : Guard) : PowerCall → Option (List WorkSource)
  | .attribute g sources => if g = guard then some sources else none
  | _ => none

end PowerCall

/-- The calls made so far, in order. -/
structure PowerTrace where
  calls : Array PowerCall
deriving DecidableEq, Inhabited

namespace PowerTrace

/-- No calls. -/
def empty : PowerTrace := ⟨#[]⟩

/-- One call more. -/
def push (trace : PowerTrace) (call : PowerCall) : PowerTrace := ⟨trace.calls.push call⟩

/-- Some calls more, in order. -/
def append (trace : PowerTrace) (calls : List PowerCall) : PowerTrace := calls.foldl push trace

/-- Whether a guard is held, as the power manager was last told. -/
def isHeld (trace : PowerTrace) (guard : Guard) : Bool :=
  trace.calls.foldl (fun held call => (call.holds? guard).getD held) false

/-- Whom a guard is held for, as the power manager was last told. -/
def attribution (trace : PowerTrace) (guard : Guard) : List WorkSource :=
  trace.calls.foldl (fun sources call => (call.attributes? guard).getD sources) []

/-- How often a guard was taken. -/
def acquisitions (trace : PowerTrace) (guard : Guard) : Nat :=
  trace.calls.countP fun call => call == .acquire guard

/-- The calls from a position on. -/
def since (trace : PowerTrace) (position : Nat) : List PowerCall :=
  (trace.calls.extract position trace.calls.size).toList

@[simp] theorem isHeld_push (trace : PowerTrace) (call : PowerCall) (guard : Guard) :
    (trace.push call).isHeld guard = (call.holds? guard).getD (trace.isHeld guard) := by
  simp [isHeld, push]

@[simp] theorem attribution_push (trace : PowerTrace) (call : PowerCall) (guard : Guard) :
    (trace.push call).attribution guard =
      (call.attributes? guard).getD (trace.attribution guard) := by
  simp [attribution, push]

end PowerTrace

end ModemLink
