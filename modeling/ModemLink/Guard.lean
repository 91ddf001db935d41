import ModemLink.WorkSource

/-!
# Guards and tickets

A guard keeps the device awake.  There is one for open requests and one for local acknowledgments;
`unguarded` is the guard of work that holds neither.  Whoever takes a unit of a guard gets a ticket,
to give the unit back with.
-/

namespace ModemLink

/-- What keeps the device awake. -/
inductive Guard where
  | unguarded
  | request
  | ack
deriving DecidableEq, Hashable, Inhabited, Repr

namespace Guard

/-- Every guard, in order. -/
def all : List Guard := [.unguarded, .request, .ack]

/-- The name of the guard. -/
def name : Guard → String
  | .unguarded => "none"
  | .request => "request"
  | .ack => "ack"

/-- The guard of a name. -/
def ofName? (name : String) : Option Guard := all.find? (·.name == name)

theorem ofName?_name (guard : Guard) : ofName? guard.name = some guard := by
  cases guard <;> rfl

end Guard

/-- The right to give one unit of a guard back.  A forced clearing of the guard starts a new
generation and makes the tickets of the older ones worthless. -/
structure Ticket where
  guard : Guard
  generation : Nat
  source : WorkSource
deriving DecidableEq

end ModemLink
