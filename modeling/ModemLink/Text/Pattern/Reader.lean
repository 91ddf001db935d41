import ModemLink.Text.Alphanumeric
import ModemLink.Text.Blank
import ModemLink.Text.Digit
import ModemLink.Text.Pattern
import ModemLink.Text.Scan

/-!
# Reading patterns

A pattern is read from the front, with what stands around the groups that are still open.  In a
spaced part blanks and comments may stand between its pieces.

Counted repetitions, numbers of characters in braces, and classes by property are no part of these
patterns.

Main statement: `close?_of_outermost`.
-/

namespace ModemLink.Text

namespace Pattern

/-- Drops blanks and comments in front.  `comment` says whether the front is inside a comment, which
the end of a line ends. -/
def dropSpacing (comment : Bool) : List Char → List Char
  | [] => []
  | c :: rest =>
    if comment then dropSpacing (c != '\n') rest
    else if isBlank c then dropSpacing false rest
    else if c = '#' then dropSpacing true rest
    else c :: rest

/-- Takes off what does not count in front of a piece. -/
def spacing (spaced : Bool) : Scan Unit := fun text =>
  some ((), if spaced then dropSpacing false text else text)

/-! ### Escapes -/

/-- The character with a code point of so many hexadecimal digits. -/
def codePoint (spaced : Bool) (digits : Nat) : Scan Char := do
  let mut found : List Char := []
  for _ in List.range digits do
    spacing spaced
    found := found ++ (← Scan.exactly 1 isHexDigit)
  let n := ofDigits 16 found
  if n.isValidChar then return Char.ofNat n else failure

/-- What a backslash makes of the character behind it, if that is a letter with a meaning. -/
def ofLetter? : Char → Option Pattern
  | 'd' => some (.shorthand .digit false)
  | 'D' => some (.shorthand .digit true)
  | 's' => some (.shorthand .space false)
  | 'S' => some (.shorthand .space true)
  | 'w' => some (.shorthand .word false)
  | 'W' => some (.shorthand .word true)
  | 'a' => some (.literal '\x07' false)
  | 'f' => some (.literal '\x0c' false)
  | 't' => some (.literal '\t' false)
  | 'n' => some (.literal '\n' false)
  | 'r' => some (.literal '\r' false)
  | 'v' => some (.literal '\x0b' false)
  | 'A' => some (.assertion .textStart)
  | 'z' => some (.assertion .textEnd)
  | 'b' => some (.assertion .wordEdge)
  | 'B' => some (.assertion .noWordEdge)
  | '<' => some (.assertion .wordStart)
  | '>' => some (.assertion .wordEnd)
  | _ => none

/-- An escape, behind its backslash.  A common character that is no letter or digit stands for
itself. -/
def escape (spaced : Bool) : Scan Pattern := do
  match ← Scan.next with
  | 'x' => return .literal (← codePoint spaced 2) true
  | 'u' => return .literal (← codePoint spaced 4) false
  | 'U' => return .literal (← codePoint spaced 8) false
  | c =>
    match ofLetter? c with
    | some p => return p
    | none =>
      if c.toNat < 128 && !c.isAlphanum then return .literal c false else failure

/-! ### Sets in brackets -/

/-- The names of the classes that are written with a colon on either side. -/
def setNames : List String :=
  ["alnum", "alpha", "ascii", "blank", "cntrl", "digit", "graph", "lower", "print", "punct",
    "space", "upper", "word", "xdigit"]

/-- A class by its name, behind an opening bracket; nothing is taken off if there is none. -/
def namedSet : Scan (Option CharSet) := fun text =>
  match text with
  | ':' :: rest =>
    let negated := rest.head? = some '^'
    let rest := if negated then rest.tail else rest
    let name := String.ofList (rest.takeWhile (· != ':'))
    match rest.dropWhile (· != ':') with
    | ':' :: ']' :: behind =>
      if setNames.contains name then some (some (.named name negated), behind)
      else some (none, text)
    | _ => some (none, text)
  | _ => some (none, text)

/-- A set whose closing bracket has not come: what stands before its last operator, and the parts
behind that, the latest in front. -/
structure OpenSet where
  negated : Bool
  left : Option CharSet := none
  parts : List CharSet := []

namespace OpenSet

/-- Adds a part. -/
def push (s : OpenSet) (part : CharSet) : OpenSet := { s with parts := part :: s.parts }

/-- The set as far as it goes. -/
def inner (s : OpenSet) : CharSet :=
  let right :=
    match s.parts.reverse with
    | [] => .empty
    | [part] => part
    | parts => .union parts
  match s.left with
  | none => right
  | some left => .joined left right

/-- Puts an operator behind the set. -/
def operator (s : OpenSet) : OpenSet := { s with left := some s.inner, parts := [] }

end OpenSet

/-- The beginning of a set, behind its opening bracket.  Hyphens in front stand for themselves, and
so does a closing bracket. -/
def openSet (spaced : Bool) : Scan OpenSet := do
  spacing spaced
  let negated ← Scan.accept "^"
  spacing spaced
  let hyphens ← Scan.repeated do
    if ← Scan.accept "-" then
      spacing spaced
      return some (CharSet.char '-')
    else return none
  if hyphens.isEmpty then
    if ← Scan.accept "]" then return { negated, parts := [.char ']'] }
  return { negated, parts := hyphens }

/-- One member of a set, or one end of a range. -/
def setMember (spaced : Bool) : Scan Pattern := do
  match ← Scan.next with
  | '\\' => escape spaced
  | c => return .literal c false

/-- The set of one member. -/
def setOf? : Pattern → Option CharSet
  | .literal c _ => some (.char c)
  | .shorthand kind negated => some (.shorthand kind negated)
  | _ => none

/-- The character that is shown behind a hyphen. -/
def shownBehind (spaced : Bool) (text : List Char) : Option Char :=
  if spaced then
    match text.dropWhile isBlank with
    | '#' :: rest => (rest.dropWhile isBlank).head?.or text.head?
    | rest => rest.head?.or text.head?
  else text.head?

/-- Whether a hyphen with the other end of a range stands in front. -/
def facingRange (spaced : Bool) : Scan Bool := fun text =>
  match text with
  | '-' :: rest =>
    let shown := shownBehind spaced rest
    some (shown != some ']' && shown != some '-', text)
  | _ => some (false, text)

/-- A member of a set, or a range. -/
def setPart (spaced : Bool) : Scan CharSet := do
  let first ← setMember spaced
  spacing spaced
  if ← facingRange spaced then
    Scan.expect "-"
    spacing spaced
    match first, ← setMember spaced with
    | .literal a _, .literal b _ => if a ≤ b then return .range a b else failure
    | _, _ => failure
  else
    match setOf? first with
    | some part => return part
    | none => failure

/-- The rest of a set, with the sets around it, the innermost in front.  Every round takes a
character off. -/
def setRest (spaced : Bool) : Nat → OpenSet → List OpenSet → Scan Pattern
  | 0, _, _ => failure
  | rounds + 1, s, outer => do
    spacing spaced
    if ← Scan.accept "[" then
      match ← namedSet with
      | some part => setRest spaced rounds (s.push part) outer
      | none => setRest spaced rounds (← openSet spaced) (s :: outer)
    else if ← Scan.accept "]" then
      match outer with
      | [] => return .set s.negated s.inner
      | around :: outer =>
        setRest spaced rounds (around.push (.bracket s.negated s.inner)) outer
    else if (← Scan.accept "&&") then setRest spaced rounds s.operator outer
    else if (← Scan.accept "--") then setRest spaced rounds s.operator outer
    else if (← Scan.accept "~~") then setRest spaced rounds s.operator outer
    else setRest spaced rounds (s.push (← setPart spaced)) outer

/-- A set, behind its opening bracket. -/
def bracketed (spaced : Bool) : Scan Pattern := do
  let s ← openSet spaced
  fun text => setRest spaced (text.length + 1) s [] text

/-! ### Groups -/

/-- The flag of a letter. -/
def flag? : Char → Option PatternFlag
  | 'i' => some .caseless
  | 'm' => some .lines
  | 's' => some .wholeText
  | 'U' => some .reluctant
  | 'u' => some .scripts
  | 'R' => some .longEnds
  | 'x' => some .spaced
  | _ => none

/-- What letters set and, behind a hyphen, clear.  No flag is named twice, and the hyphen is not the
last character. -/
def flagChange? (text : List Char) : Option FlagChange := do
  let set ← (text.takeWhile (· != '-')).mapM flag?
  let cleared ←
    match text.dropWhile (· != '-') with
    | [] => pure []
    | [_] => none
    | _ :: letters => letters.mapM flag?
  if (set ++ cleared).Nodup then
    return set.map (·, true) ++ cleared.map (·, false)
  else none

/-- A character of the name of a group behind the first one. -/
def isNameChar (c : Char) : Bool :=
  c == '_' || c == '.' || c == '[' || c == ']' || isAlphanumeric c

/-- The name of a group, with the bracket behind it. -/
def groupName : Scan String := do
  let name ← Scan.span isNameChar
  Scan.expect ">"
  match name with
  | first :: _ => if first == '_' || isLetter first then return String.ofList name else failure
  | [] => failure

/-- What begins with an opening parenthesis. -/
inductive Opening where
  | group (name : Option String) (change : FlagChange)
  | flags (change : FlagChange)

/-- The beginning of a group, or a group of flags, behind its opening parenthesis.  What looks ahead
or behind is refused. -/
def opening (spaced : Bool) : Scan Opening := do
  spacing spaced
  for look in ["?=", "?!", "?<=", "?<!"] do
    if ← Scan.facing look then failure
  if ← Scan.accept "?P<" then return .group (← groupName) []
  if ← Scan.accept "?<" then return .group (← groupName) []
  if ← Scan.accept "?" then
    let letters ← Scan.span fun c => c != ':' && c != ')'
    match flagChange? letters with
    | none => failure
    | some change =>
      if ← Scan.accept ":" then return .group none change
      Scan.expect ")"
      if change.isEmpty then failure
      return .flags change
  return .group none []

/-- What stands around a group: the choices and pieces before it, the latest in front, and whether
they are spaced; and the flags of the group. -/
structure Surroundings where
  choices : List Pattern
  pieces : List Pattern
  spaced : Bool
  change : FlagChange

/-- A pattern of which a part was read. -/
structure Draft where
  /-- What stands around the open groups, the innermost in front. -/
  outer : List Surroundings := []
  /-- The choices that are over in the innermost group, the latest in front. -/
  choices : List Pattern := []
  /-- The pieces of the present choice, the latest in front. -/
  pieces : List Pattern := []
  spaced : Bool := false
  /-- The names of groups. -/
  names : List String := []

namespace Draft

/-- Adds a piece. -/
def push (d : Draft) (piece : Pattern) : Draft := { d with pieces := piece :: d.pieces }

/-- The present choice. -/
def choice (d : Draft) : Pattern :=
  match d.pieces.reverse with
  | [] => .empty
  | [piece] => piece
  | pieces => .sequence pieces

/-- The innermost group, or all if none is open. -/
def inner (d : Draft) : Pattern :=
  match d.choices with
  | [] => d.choice
  | choices => .choice (d.choice :: choices).reverse

/-- Begins the next choice. -/
def choose (d : Draft) : Draft := { d with choices := d.choice :: d.choices, pieces := [] }

/-- Repeats the last piece, if there is one that can be repeated. -/
def repeat? (d : Draft) : Option Draft :=
  match d.pieces with
  | [] => none
  | .flags _ :: _ => none
  | piece :: before => some { d with pieces := .repetition piece :: before }

/-- Takes in a group of flags, or opens a group; no name is given twice. -/
def open? (d : Draft) : Opening → Option Draft
  | .flags change =>
    some { d.push (.flags change) with spaced := (change.lookup .spaced).getD d.spaced }
  | .group name change =>
    if name.any d.names.contains then none
    else
      some
        { outer := ⟨d.choices, d.pieces, d.spaced, change⟩ :: d.outer
          spaced := (change.lookup .spaced).getD d.spaced
          names := name.toList ++ d.names }

/-- Closes the innermost group. -/
def close? (d : Draft) : Option Draft :=
  match d.outer with
  | [] => none
  | around :: outer =>
    some { d with
      outer
      choices := around.choices
      pieces := .group around.change d.inner :: around.pieces
      spaced := around.spaced }

/-- Without an open group there is none to close. -/
theorem close?_of_outermost {d : Draft} (h : d.outer = []) : d.close? = none := by
  simp [close?, h]

end Draft

/-! ### The whole -/

/-- The next piece of a pattern. -/
def piece (d : Draft) : Scan Draft := do
  match ← Scan.next with
  | '(' => d.open? (← opening d.spaced)
  | ')' => d.close?
  | '|' => return d.choose
  | '[' => return d.push (← bracketed d.spaced)
  | '?' | '*' | '+' =>
    let _ ← Scan.accept "?"
    d.repeat?
  | '\x7b' => failure
  | '\\' => return d.push (← escape d.spaced)
  | '.' => return d.push .anything
  | '^' => return d.push (.assertion .lineStart)
  | '$' => return d.push (.assertion .lineEnd)
  | c => return d.push (.literal c false)

/-- The pieces of a pattern to its end.  Every round takes a character off. -/
def pieces : Nat → Draft → Scan Draft
  | 0, _ => failure
  | rounds + 1, d => do
    spacing d.spaced
    match ← Scan.peek with
    | none => return d
    | some _ => pieces rounds (← piece d)

/-- A pattern from its text; every group has to be closed. -/
def ofText? (text : List Char) : Option Pattern := do
  let d ← (pieces (text.length + 1) {}).whole? text
  if d.outer.isEmpty then return d.inner else none

end Pattern

end ModemLink.Text
