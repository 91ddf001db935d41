/-!
# Patterns

A pattern describes texts: characters, classes of characters, assertions about places, repetitions,
groups and alternatives.  Flags change how the rest of the group they stand in is understood.

Not every pattern can be matched here.  The matcher knows the case and the classes of the common
characters alone, so a pattern that asks for those of all scripts is refused; so is one that could
match a part of a character, and one that nests too deep.

Main statements: `settle_group`, `fits_bracket_of_negated`.
-/

namespace ModemLink.Text

/-- What a flag changes. -/
inductive PatternFlag where
  /-- Upper and lower case are the same. -/
  | caseless
  /-- The ends of lines count as ends of the text. -/
  | lines
  /-- The point stands for ends of lines too. -/
  | wholeText
  /-- Repetitions take as little as they can. -/
  | reluctant
  /-- Characters of all scripts count, and not bytes. -/
  | scripts
  /-- A line may end with two characters. -/
  | longEnds
  /-- Blanks and comments in the pattern do not count. -/
  | spaced
deriving DecidableEq

/-- What a group of flags sets and clears. -/
abbrev FlagChange := List (PatternFlag × Bool)

/-- The classes of characters that have letters of their own. -/
inductive Shorthand where
  | digit
  | space
  | word
deriving DecidableEq

/-- An assertion about a place in the text. -/
inductive PlaceAssertion where
  | lineStart
  | lineEnd
  | textStart
  | textEnd
  | wordEdge
  | noWordEdge
  | wordStart
  | wordEnd
deriving DecidableEq

/-- Whether an assertion is about words. -/
def PlaceAssertion.isAboutWords : PlaceAssertion → Bool
  | .wordEdge | .noWordEdge | .wordStart | .wordEnd => true
  | .lineStart | .lineEnd | .textStart | .textEnd => false

/-- A set of characters in brackets. -/
inductive CharSet where
  | empty
  | char (c : Char)
  | range (first last : Char)
  | named (name : String) (negated : Bool)
  | shorthand (kind : Shorthand) (negated : Bool)
  | bracket (negated : Bool) (inner : CharSet)
  | union (parts : List CharSet)
  /-- What an operator makes of two sets. -/
  | joined (left right : CharSet)

/-- A pattern. -/
inductive Pattern where
  | empty
  | flags (change : FlagChange)
  /-- A character; `byte` says whether it was written as the number of a byte. -/
  | literal (c : Char) (byte : Bool)
  /-- The point. -/
  | anything
  | assertion (place : PlaceAssertion)
  | shorthand (kind : Shorthand) (negated : Bool)
  | set (negated : Bool) (inner : CharSet)
  | repetition (inner : Pattern)
  | group (change : FlagChange) (inner : Pattern)
  | sequence (parts : List Pattern)
  | choice (parts : List Pattern)

/-- How a part of a pattern is to be understood. -/
structure PatternMode where
  caseless : Bool := false
  scripts : Bool := true
deriving DecidableEq

/-- The mode after a group of flags. -/
def PatternMode.after (mode : PatternMode) (change : FlagChange) : PatternMode :=
  { caseless := (change.lookup .caseless).getD mode.caseless
    scripts := (change.lookup .scripts).getD mode.scripts }

namespace CharSet

mutual

/-- How deep a set nests. -/
def depth : CharSet → Nat
  | .empty | .char _ | .range _ _ | .named _ _ | .shorthand _ _ => 0
  | .bracket _ inner => inner.depth + 1
  | .union parts => depthOfAll parts + 1
  | .joined left right => max left.depth right.depth + 1

/-- How deep the deepest of several sets nests. -/
def depthOfAll : List CharSet → Nat
  | [] => 0
  | first :: rest => max first.depth (depthOfAll rest)

end

mutual

/-- Whether a set can be matched.  Among the characters of all scripts case and shorthands are not
known; among bytes a set holds common characters alone, and so it is not negated. -/
def fits (mode : PatternMode) : CharSet → Bool
  | .empty => true
  | .char c => if mode.scripts then !mode.caseless else c.toNat < 128
  | .range _ last => if mode.scripts then !mode.caseless else last.toNat < 128
  | .named _ negated => if mode.scripts then !mode.caseless else !negated
  | .shorthand _ negated => !mode.scripts && !negated
  | .bracket negated inner => (mode.scripts || !negated) && inner.fits mode
  | .union parts => allFit mode parts
  | .joined left right => left.fits mode && right.fits mode

/-- Whether several sets can all be matched. -/
def allFit (mode : PatternMode) : List CharSet → Bool
  | [] => true
  | first :: rest => first.fits mode && allFit mode rest

end

/-- Among bytes no negated set can be matched. -/
theorem fits_bracket_of_negated {mode : PatternMode} (h : mode.scripts = false) (inner : CharSet) :
    (bracket true inner).fits mode = false := by
  simp [fits, h]

end CharSet

namespace Pattern

mutual

/-- How deep a pattern nests. -/
def depth : Pattern → Nat
  | .empty | .flags _ | .literal _ _ | .anything | .assertion _ | .shorthand _ _ => 0
  | .set _ inner => inner.depth + 1
  | .repetition inner => inner.depth + 1
  | .group _ inner => inner.depth + 1
  | .sequence parts => depthOfAll parts + 1
  | .choice parts => depthOfAll parts + 1

/-- How deep the deepest of several patterns nests. -/
def depthOfAll : List Pattern → Nat
  | [] => 0
  | first :: rest => max first.depth (depthOfAll rest)

end

mutual

/-- Goes through a pattern from the front in a mode, and gives the mode behind it; nothing if a part
cannot be matched.  Flags inside a group hold up to its end. -/
def settle (mode : PatternMode) : Pattern → Option PatternMode
  | .empty => some mode
  | .flags change => some (mode.after change)
  | .literal c byte =>
    let known := if mode.scripts then !mode.caseless else !byte || c.toNat < 128
    if known then some mode else none
  | .anything => if mode.scripts then some mode else none
  | .assertion place => if mode.scripts && place.isAboutWords then none else some mode
  | .shorthand kind negated =>
    if (CharSet.shorthand kind negated).fits mode then some mode else none
  | .set negated inner => if (CharSet.bracket negated inner).fits mode then some mode else none
  | .repetition inner => settle mode inner
  | .group change inner => (settle (mode.after change) inner).map fun _ => mode
  | .sequence parts => settleAll mode parts
  | .choice parts => settleAll mode parts

/-- Goes through several patterns one after the other. -/
def settleAll (mode : PatternMode) : List Pattern → Option PatternMode
  | [] => some mode
  | first :: rest =>
    match settle mode first with
    | some mode => settleAll mode rest
    | none => none

end

/-- How deep a pattern may nest. -/
def depthLimit : Nat := 250

/-- Whether a pattern can be matched. -/
def isMatchable (p : Pattern) : Bool := decide (p.depth ≤ depthLimit) && (p.settle {}).isSome

/-- Behind a group the mode is what it was before. -/
theorem settle_group {mode after : PatternMode} {change : FlagChange} {inner : Pattern}
    (h : settle mode (.group change inner) = some after) : after = mode := by
  simp only [settle, Option.map_eq_some_iff] at h
  obtain ⟨_, _, h⟩ := h
  exact h.symm

end Pattern

end ModemLink.Text
