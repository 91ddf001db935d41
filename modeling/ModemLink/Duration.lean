/-!
# Durations

A duration is a whole number of nanoseconds below 2^64 seconds.  Readings of the clock are durations
too: the time since the clock was started.  Adding two durations may leave the range; that is the
one way in which an action of this library can be cut short, and `Clocked` is the type of such
actions: what they changed before the sum stays changed.

Main statements: `add?_eq_ok_iff` says when a sum exists, `nanos_elapsed` and `nanos_longer` read
the other operations off the number of nanoseconds.
-/

namespace ModemLink

namespace Duration

/-- The longest duration: one nanosecond less than 2^64 seconds. -/
def maxNanos : Nat := 18446744073709551616 * 1000000000 - 1

end Duration

/-- A length of time in whole nanoseconds, within the range of 64-bit seconds. -/
@[ext] structure Duration where
  nanos : Nat
  nanos_le : nanos ≤ Duration.maxNanos
deriving DecidableEq

/-- A sum left its range: a sum of durations, or the reading of a clock that is moved on. -/
inductive Overflow where
  | durationSum
  | clockReading
deriving DecidableEq, Repr

/-- The text reported for an overflow. -/
def Overflow.message : Overflow → String
  | .durationSum => "overflow when adding durations"
  | .clockReading => "overflow when adding duration to instant"

/-- An action on a state that an overflow may cut short; what it did before stays. -/
abbrev Clocked (σ α : Type) := EStateM Overflow σ α

/-- Runs an action on a part of the state. -/
def Clocked.within {σ τ α : Type} (get : σ → τ) (set : τ → σ → σ) (act : Clocked τ α) :
    Clocked σ α :=
  fun s =>
    match act (get s) with
    | .ok a t => .ok a (set t s)
    | .error e t => .error e (set t s)

namespace Clocked

variable {σ α β : Type}

/-- An action that reads the state goes on with it. -/
@[simp] theorem get_bind (next : σ → Clocked σ α) (s : σ) :
    ((get : Clocked σ σ) >>= next) s = next s s := rfl

/-- An action that writes the state goes on from it. -/
@[simp] theorem set_bind (t : σ) (next : PUnit → Clocked σ α) (s : σ) :
    ((set t : Clocked σ PUnit) >>= next) s = next ⟨⟩ t := rfl

/-- An action that only answers leaves the state alone. -/
@[simp] theorem pure_apply (a : α) (s : σ) : (pure a : Clocked σ α) s = .ok a s := rfl

end Clocked

namespace Duration

/-- No time at all. -/
def zero : Duration := ⟨0, Nat.zero_le _⟩

instance : Inhabited Duration := ⟨zero⟩

instance : LE Duration := ⟨fun a b => a.nanos ≤ b.nanos⟩

instance : LT Duration := ⟨fun a b => a.nanos < b.nanos⟩

instance (a b : Duration) : Decidable (a ≤ b) := inferInstanceAs (Decidable (a.nanos ≤ b.nanos))

instance (a b : Duration) : Decidable (a < b) := inferInstanceAs (Decidable (a.nanos < b.nanos))

/-- The duration of so many nanoseconds, if there is one. -/
def ofNanos? (n : Nat) : Except Overflow Duration :=
  if h : n ≤ maxNanos then .ok ⟨n, h⟩ else .error .durationSum

/-- The sum of two durations, if it is in range. -/
def add? (a b : Duration) : Except Overflow Duration := ofNanos? (a.nanos + b.nanos)

/-- So many milliseconds; every 64-bit number of them is in range. -/
def ofMillis (ms : UInt64) : Duration :=
  ⟨ms.toNat * 1000000, by have := ms.toNat_lt; unfold maxNanos; omega⟩

/-- The time from `since` to `now`; none if `since` is later. -/
def elapsed (now since : Duration) : Duration :=
  ⟨now.nanos - since.nanos, Nat.le_trans (Nat.sub_le _ _) now.nanos_le⟩

/-- The longer of two durations. -/
def longer (a b : Duration) : Duration := if a < b then b else a

/-- Whole milliseconds as a 64-bit number: the rest is cut off, then multiples of 2^64 are
dropped. -/
def millis (d : Duration) : UInt64 := UInt64.ofNat (d.nanos / 1000000)

/-- The part of whole seconds. -/
def seconds (d : Duration) : Nat := d.nanos / 1000000000

/-- The nanoseconds beyond the whole seconds. -/
def subsecond (d : Duration) : Nat := d.nanos % 1000000000

theorem ofNanos?_eq_ok_iff {n : Nat} {d : Duration} : ofNanos? n = .ok d ↔ d.nanos = n := by
  unfold ofNanos?
  split
  · constructor
    · rintro h; cases h; rfl
    · rintro rfl; rfl
  · rename_i h
    constructor
    · intro h'; cases h'
    · rintro rfl; exact absurd d.nanos_le h

/-- A sum exists exactly when some duration has as many nanoseconds as the two together. -/
theorem add?_eq_ok_iff {a b d : Duration} : a.add? b = .ok d ↔ d.nanos = a.nanos + b.nanos :=
  ofNanos?_eq_ok_iff

@[simp] theorem nanos_zero : zero.nanos = 0 := rfl

@[simp] theorem nanos_ofMillis (ms : UInt64) : (ofMillis ms).nanos = ms.toNat * 1000000 := rfl

@[simp] theorem nanos_elapsed (now since : Duration) :
    (elapsed now since).nanos = now.nanos - since.nanos := rfl

theorem nanos_longer (a b : Duration) : (longer a b).nanos = max a.nanos b.nanos := by
  unfold longer
  have hlt : a < b ↔ a.nanos < b.nanos := Iff.rfl
  split
  · rename_i h; rw [hlt] at h; omega
  · rename_i h; rw [hlt] at h; omega

end Duration

end ModemLink
