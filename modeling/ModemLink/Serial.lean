/-!
# Serials

A request is known to the radio by its serial.  Serials are handed out by a counter that runs from 0
to 2^31 - 1 and starts over; it starts at a given seed or at a drawn one, and is drawn anew whenever
the radio has died.

Main statements: `SerialCounter.issue_snd`, `val_next` (the counter goes up by one and wraps).
-/

namespace ModemLink

/-- The number by which the radio knows a request.  The radio may name numbers that were never
handed out, negative ones too. -/
structure Serial where
  number : Int
deriving DecidableEq, Hashable, Inhabited

namespace Serial

/-- How many serials there are. -/
def space : Nat := 2147483648

/-- The number in decimal. -/
def label (serial : Serial) : String := toString serial.number

end Serial

/-- Numbers to draw from, in order.  Once they are used up every draw gives zero. -/
structure Entropy where
  numbers : List Int
deriving DecidableEq, Inhabited

namespace Entropy

/-- Seeds are drawn from the numbers below this one. -/
def seedRange : Nat := 16777216

/-- Takes the next number, reduced to the range of seeds. -/
def draw : Entropy → Nat × Entropy
  | ⟨[]⟩ => (0, ⟨[]⟩)
  | ⟨v :: rest⟩ => ((v % (seedRange : Int)).toNat, ⟨rest⟩)

theorem fst_draw_lt (entropy : Entropy) : entropy.draw.1 < seedRange := by
  rcases entropy with ⟨_ | ⟨v, rest⟩⟩
  · decide
  · simp only [draw, seedRange]
    omega

end Entropy

/-- The counter of serials: the number that is handed out next. -/
structure SerialCounter where
  upcoming : Fin Serial.space
deriving DecidableEq

namespace SerialCounter

/-- A counter that starts at a seed; a negative seed counts as zero. -/
def ofSeed (seed : Int) : SerialCounter := ⟨⟨seed.toNat % Serial.space, Nat.mod_lt _ (by decide)⟩⟩

instance : Inhabited SerialCounter := ⟨ofSeed 0⟩

/-- A counter that starts at a drawn seed. -/
def drawn (entropy : Entropy) : SerialCounter × Entropy :=
  let (seed, entropy) := entropy.draw
  (ofSeed seed, entropy)

/-- A counter that starts at the given seed, or at a drawn one if none is given. -/
def start (seed : Option Int) (entropy : Entropy) : SerialCounter × Entropy :=
  match seed with
  | some seed => (ofSeed seed, entropy)
  | none => drawn entropy

/-- The serial that is handed out next. -/
def peek (counter : SerialCounter) : Serial := ⟨counter.upcoming.val⟩

/-- The counter after one serial was handed out. -/
def next (counter : SerialCounter) : SerialCounter :=
  ⟨⟨(counter.upcoming.val + 1) % Serial.space, Nat.mod_lt _ (by decide)⟩⟩

/-- Hands out a serial. -/
def issue (counter : SerialCounter) : Serial × SerialCounter := (counter.peek, counter.next)

@[simp] theorem issue_fst (counter : SerialCounter) : counter.issue.1 = counter.peek := rfl

@[simp] theorem issue_snd (counter : SerialCounter) : counter.issue.2 = counter.next := rfl

/-- The counter goes up by one and starts over at the end of the space of serials. -/
theorem val_next (counter : SerialCounter) :
    counter.next.upcoming.val = (counter.upcoming.val + 1) % Serial.space := rfl

end SerialCounter

end ModemLink
