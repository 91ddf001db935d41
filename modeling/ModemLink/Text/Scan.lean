/-!
# Scanning

Reading a text from its front: a scan takes some characters off, gives what they mean, and leaves
the rest, or refuses the text.  Scans are repeated by `repeated`, which makes at most one round more
than the text has characters, since a round that gives something takes a character off.

Main statements: `span_append`, `accept_append`.
-/

namespace ModemLink.Text

/-- Takes the front of a text off and gives what it means, or refuses the text. -/
abbrev Scan (α : Type) := StateT (List Char) Option α

namespace Scan

/-- The next character, which stays. -/
def peek : Scan (Option Char) := fun text => some (text.head?, text)

/-- The next character, taken off. -/
def next : Scan Char := fun text =>
  match text with
  | [] => none
  | c :: rest => some (c, rest)

/-- Whether a word stands in front; it stays. -/
def facing (word : String) : Scan Bool := fun text => some (word.toList.isPrefixOf text, text)

/-- Takes a word off if it stands in front, and tells whether it did. -/
def accept (word : String) : Scan Bool := fun text =>
  if word.toList.isPrefixOf text then some (true, text.drop word.toList.length)
  else some (false, text)

/-- Takes a word off that has to stand in front. -/
def expect (word : String) : Scan Unit := do
  if ← accept word then pure () else failure

/-- Takes off all characters of a class, up to the first other one. -/
def span (member : Char → Bool) : Scan (List Char) := fun text =>
  some (text.takeWhile member, text.dropWhile member)

/-- Takes off exactly so many characters of a class. -/
def exactly (count : Nat) (member : Char → Bool) : Scan (List Char) := fun text =>
  let front := text.take count
  if front.length = count ∧ front.all member then some (front, text.drop count) else none

/-- Repeats a step for as many rounds as the bound has characters, or until it gives nothing. -/
def rounds {α : Type} (step : Scan (Option α)) : List Char → Scan (List α)
  | [] => pure []
  | _ :: bound => do
    match ← step with
    | none => return []
    | some a => return a :: (← rounds step bound)

/-- Repeats a step until it gives nothing.  A step that gives something has to take a character off,
so the text with one character more bounds the rounds. -/
def repeated {α : Type} (step : Scan (Option α)) : Scan (List α) := fun text =>
  rounds step ('\n' :: text) text

/-- Reads the whole of a text. -/
def whole? {α : Type} (scan : Scan α) (text : List Char) : Option α :=
  match scan text with
  | some (a, []) => some a
  | _ => none

/-- A class takes off what belongs to it and nothing of what begins with another character. -/
theorem span_append (member : Char → Bool) (front rest : List Char)
    (hfront : ∀ c ∈ front, member c) (hrest : ∀ c ∈ rest.head?, member c = false) :
    span member (front ++ rest) = some (front, rest) := by
  have htake : rest.takeWhile member = [] := by
    cases rest with
    | nil => rfl
    | cons c rest => simp [hrest c (by simp)]
  have hdrop : rest.dropWhile member = rest := by
    cases rest with
    | nil => rfl
    | cons c rest => simp [hrest c (by simp)]
  unfold span
  rw [List.takeWhile_append_of_pos hfront, List.dropWhile_append_of_pos hfront, htake, hdrop,
    List.append_nil]

/-- A word that stands in front is taken off. -/
theorem accept_append (word : String) (rest : List Char) :
    accept word (word.toList ++ rest) = some (true, rest) := by
  have h : word.toList.isPrefixOf (word.toList ++ rest) = true := by
    rw [List.isPrefixOf_iff_prefix]
    exact List.prefix_append _ _
  simp [accept, h]

end Scan

end ModemLink.Text
