import ModemLink.Fault

/-!
# Outcomes

How a request ended, as the books count it: with success, refused by the radio, with the radio
unavailable, or with the neutral result after a deadline.
-/

namespace ModemLink

/-- How a request ended. -/
inductive Outcome where
  | success
  | rejected
  | unavailable
  | timedOut
deriving DecidableEq, Repr

namespace Outcome

/-- Every outcome, in order. -/
def all : List Outcome := [.success, .rejected, .unavailable, .timedOut]

/-- The outcome that a result speaks of.  No result speaks of a missed deadline. -/
def ofResult : RequestResult → Outcome
  | .ok _ => .success
  | .error .unavailable => .unavailable
  | .error _ => .rejected

/-- The name of the outcome. -/
def name : Outcome → String
  | .success => "success"
  | .rejected => "rejected"
  | .unavailable => "unavailable"
  | .timedOut => "timed_out"

/-- The outcome of a name. -/
def ofName? (name : String) : Option Outcome := all.find? (·.name == name)

theorem ofName?_name (outcome : Outcome) : ofName? outcome.name = some outcome := by
  cases outcome <;> rfl

end Outcome

end ModemLink
