/-!
# Epochs

Each attempt to bind the radio, and each confirmed death of it, starts a new epoch.  The epoch of a
bind is its cookie: a death is believed only if it names the epoch that is still current.
-/

namespace ModemLink

/-- The count of binds and deaths so far, as a 64-bit number that wraps. -/
structure Epoch where
  number : UInt64
deriving DecidableEq, Hashable, Inhabited

namespace Epoch

/-- The epoch before the first bind. -/
def start : Epoch := ⟨0⟩

/-- The epoch after this one. -/
def next (epoch : Epoch) : Epoch := ⟨epoch.number + 1⟩

/-- The number of the epoch in decimal. -/
def label (epoch : Epoch) : String := toString epoch.number

end Epoch

end ModemLink
