import ModemLink.Text.Alphanumeric
import ModemLink.Text.Blank
import ModemLink.Text.Pattern.Reader

/-!
# Log filters

A filter is a list of directives with commas between them.  A directive names a level, and what it
speaks of: the targets that begin with a word, the events inside a span, or the events with a field.
Of the directives that speak of an event the most specific one decides, and among equals the last.

The marks of a directive are looked for in its text without the blanks around it, but its words are
cut out of the whole text at the same offsets.  So blanks in front shift every word toward them.

Main statements: `allows_of_no_directive`, `moreSpecific_irrefl`, `cut_zero_of_length_le`.
-/

namespace ModemLink.Telemetry

/-- How much is logged; each level lets through what the ones before it do. -/
inductive Level where
  | off
  | error
  | warn
  | info
  | debug
  | trace
deriving DecidableEq, Repr

namespace Level

/-- All levels, from the most silent one. -/
def all : List Level := [off, error, warn, info, debug, trace]

/-- The place of a level among all. -/
def rank : Level → Nat
  | off => 0
  | error => 1
  | warn => 2
  | info => 3
  | debug => 4
  | trace => 5

/-- The name of a level. -/
def name : Level → String
  | off => "off"
  | error => "error"
  | warn => "warn"
  | info => "info"
  | debug => "debug"
  | trace => "trace"

/-- A level from its number, which may have a plus and zeros in front. -/
def ofNumber? (text : List Char) : Option Level :=
  let digits :=
    match text with
    | '+' :: digits => digits
    | digits => digits
  if digits.isEmpty || !digits.all Char.isDigit then none
  else
    let n := digits.foldl (fun n c => n * 10 + (c.toNat - '0'.toNat)) 0
    all.find? (·.rank = n)

/-- A level from its number or, in whatever case, its name. -/
def ofText? (text : List Char) : Option Level :=
  (ofNumber? text).or (all.find? fun level => level.name.toList = text.map Char.toLower)

end Level

/-- A directive of a filter. -/
structure Directive where
  level : Level
  target : Option String := none
  /-- The name of a span. -/
  span : Option String := none
  /-- The name of a field, and whether a value is asked of it. -/
  field : Option (String × Bool) := none
deriving DecidableEq

namespace Directive

/-- The characters of a text with their offsets in bytes. -/
def offsets (start : Nat) : List Char → List (Nat × Char)
  | [] => []
  | c :: rest => (start, c) :: offsets (start + c.utf8Size) rest

/-- The characters of a text that begin between two offsets. -/
def cut (text : List Char) (first last : Nat) : List Char :=
  ((offsets 0 text).filter fun (i, _) => decide (first ≤ i ∧ i < last)).map (·.2)

/-- The characters of a text from an offset on. -/
def cutFrom (text : List Char) (first : Nat) : List Char :=
  ((offsets 0 text).filter fun (i, _) => decide (first ≤ i)).map (·.2)

/-- The level behind a target or span; none stands for the fullest. -/
def levelOf? : List Char → Option Level
  | [] => some .trace
  | text => Level.ofText? text

/-- The digits of a number without sign, where some may stand behind a point and an exponent may
follow. -/
def isUnsignedNumber (text : List Char) : Bool :=
  let isDigits (digits : List Char) : Bool := !digits.isEmpty && digits.all Text.isDigit
  let isMark (c : Char) : Bool := c == 'e' || c == 'E'
  let size := text.takeWhile fun c => !isMark c
  let whole := size.takeWhile (· != '.')
  let known :=
    match size.dropWhile (· != '.') with
    | [] => isDigits whole
    | _ :: fraction => isDigits (whole ++ fraction)
  known &&
    match text.dropWhile fun c => !isMark c with
    | [] => true
    | _ :: '+' :: digits => isDigits digits
    | _ :: '-' :: digits => isDigits digits
    | _ :: digits => isDigits digits

/-- A number, which may have a sign and may be infinite or none at all. -/
def isNumber (text : List Char) : Bool :=
  let size :=
    match text with
    | '+' :: size => size
    | '-' :: size => size
    | size => size
  isUnsignedNumber size ||
    ["inf", "infinity", "nan"].any fun word => word.toList = size.map Char.toLower

/-- A value that a field may be asked for: a number, or a pattern that can be matched. -/
def isValue (text : List Char) : Bool :=
  isNumber text || (Text.Pattern.ofText? text).any Text.Pattern.isMatchable

/-- A field, with or without a value.  The value ends where a second equals sign stands. -/
def fieldOf? (text : List Char) : Option (String × Bool) :=
  if text.isEmpty then none
  else
    let name := String.ofList (text.takeWhile (· != '='))
    match text.dropWhile (· != '=') with
    | [] => some (name, false)
    | _ :: rest => if isValue (rest.takeWhile (· != '=')) then some (name, true) else none

/-- How far the reading of a directive has come, with the offset where its present word begins. -/
inductive Stage where
  | start
  /-- In a level or a target. -/
  | word (first : Nat)
  | span (first : Nat)
  | field (first : Nat)
  /-- Behind the closing brace. -/
  | fields
  /-- Behind the closing bracket. -/
  | closed
  | level (first : Nat)
deriving DecidableEq

/-- Takes the character at an offset.  The words are those of `text`. -/
def advance? (text : List Char) (stage : Stage) (d : Directive) (i : Nat) (c : Char) :
    Option (Stage × Directive) :=
  let word (first : Nat) : String := String.ofList (cut text first i)
  match stage with
  | .start =>
    if c = '[' then some (.span (i + 1), d)
    else if ['-', ':', '_'].contains c || Text.isAlphanumeric c then some (.word i, d)
    else none
  | .word first =>
    if c = '=' then some (.level (i + 1), { d with target := some (word first) })
    else if c = '[' then some (.span (i + 1), { d with target := some (word first) })
    else some (stage, d)
  | .span first =>
    if c = ']' then some (.closed, { d with span := some (word first) })
    else if c = '\x7b' then
      some (.field (i + 1), { d with span := if first = i then none else some (word first) })
    else some (stage, d)
  | .field first =>
    if c = '\x7d' then
      (fieldOf? (cut text first i)).map fun field => (.fields, { d with field := some field })
    else some (stage, d)
  | .fields => if c = ']' then some (.closed, d) else none
  | .closed => if c = '=' then some (.level (i + 1), d) else none
  | .level _ => some (stage, d)

/-- Ends a directive.  A single word is a level if it can be one, and else a target. -/
def finish? (text : List Char) (stage : Stage) (d : Directive) : Option Directive :=
  match stage with
  | .word first =>
    let word := cutFrom text first
    match Level.ofText? word with
    | some level => some { d with level }
    | none => some { d with target := some (String.ofList word) }
  | .level first => (levelOf? (cutFrom text first)).map fun level => { d with level }
  | .closed => some d
  | _ => none

/-- A directive from its text. -/
def ofText? (text : List Char) : Option Directive := do
  let trimmed := ((text.dropWhile Text.isBlank).reverse.dropWhile Text.isBlank).reverse
  let (stage, d) ←
    (offsets 0 trimmed).foldlM
      (fun (stage, d) (i, c) => advance? text stage d i c) (Stage.start, { level := .trace })
  finish? text stage d

/-- The beginning of a text up to an offset behind its end is the text. -/
theorem cut_zero_of_length_le {text : List Char} {last : Nat}
    (h : ∀ pair ∈ offsets 0 text, pair.1 < last) :
    cut text 0 last = (offsets 0 text).map (·.2) := by
  unfold cut
  rw [List.filter_eq_self.2]
  intro pair hp
  simpa using h pair hp

/-- Whether the directive speaks of events outside all spans: of those whose target begins with its
own, and which have its field. -/
def covers (d : Directive) (target : String) (fields : List String) : Bool :=
  d.span.isNone &&
    (d.target.all fun front => front.toList.isPrefixOf target.toList) &&
    d.field.all fun (name, valued) => !valued && fields.contains name

/-- What makes a directive specific: the length of its target, then whether it asks for a field. -/
def specificity (d : Directive) : Nat × Nat :=
  ((d.target.map (·.utf8ByteSize + 1)).getD 0, if d.field.isSome then 1 else 0)

/-- Whether one directive is more specific than another.  Between two fields the later name wins. -/
def moreSpecific (d e : Directive) : Bool :=
  let (a, b) := d.specificity
  let (a', b') := e.specificity
  if a ≠ a' then decide (a' < a)
  else if b ≠ b' then decide (b' < b)
  else decide ((e.field.map (·.1)).getD "" < (d.field.map (·.1)).getD "")

/-- No directive is more specific than itself. -/
theorem moreSpecific_irrefl (d : Directive) : d.moreSpecific d = false := by
  simp [moreSpecific]

end Directive

/-- A filter. -/
structure LogFilter where
  directives : List Directive

namespace LogFilter

/-- The parts of a text between commas. -/
def parts : List Char → List (List Char)
  | [] => [[]]
  | c :: rest =>
    match c, parts rest with
    | ',', found => [] :: found
    | _, part :: found => (c :: part) :: found
    | _, [] => [[c]]

/-- A filter from its text.  Empty parts do not count; without directives only errors pass. -/
def ofText? (text : String) : Option LogFilter := do
  let directives ← ((parts text.toList).filter (!·.isEmpty)).mapM Directive.ofText?
  return ⟨if directives.isEmpty then [{ level := .error }] else directives⟩

/-- The directive that decides about an event outside all spans. -/
def decisive? (filter : LogFilter) (target : String) (fields : List String) : Option Directive :=
  (filter.directives.filter (·.covers target fields)).foldl
    (fun best d =>
      match best with
      | none => some d
      | some e => if e.moreSpecific d then some e else some d) none

/-- Whether an event of a level passes. -/
def allows (filter : LogFilter) (level : Level) (target : String) (fields : List String) : Bool :=
  (filter.decisive? target fields).any fun d => decide (level.rank ≤ d.level.rank)

/-- What no directive speaks of does not pass. -/
theorem allows_of_no_directive (filter : LogFilter) (level : Level) (target : String)
    (fields : List String) (h : ∀ d ∈ filter.directives, d.covers target fields = false) :
    filter.allows level target fields = false := by
  have : filter.directives.filter (·.covers target fields) = [] := by
    rw [List.filter_eq_nil_iff]
    intro d hd
    simp [h d hd]
  simp [allows, decisive?, this]

end LogFilter

end ModemLink.Telemetry
