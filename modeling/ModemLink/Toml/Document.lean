import ModemLink.Toml.Moment
import ModemLink.Toml.Numeral
import ModemLink.Toml.Quoted
import ModemLink.Toml.Table

/-!
# TOML files

A file is a sequence of lines: blank ones, headers, and entries with a key and a value.  The entries
between two headers form a section, and the sections grow into one table.

A key has fewer than `depthLimit` names, and lists and tables in braces nest less than that deep.
-/

namespace ModemLink.Toml

open Text

/-- How many names a key may not have, and how deep values may not nest. -/
def depthLimit : Nat := 80

/-- A line of a file. -/
inductive Line where
  | blank
  | header (path : List String) (name : String) (repeated : Bool)
  | entry (path : List String) (name : String) (value : Value)

/-! ### Keys -/

/-- A character of a name without quotes. -/
def isBare (c : Char) : Bool := c.isAlphanum || c == '-' || c == '_'

/-- One name of a key. -/
def name : Scan String := do
  match ← Scan.peek with
  | some '"' => quotedLine '"' true
  | some '\'' => quotedLine '\'' false
  | _ =>
    let bare ← Scan.span isBare
    if bare.isEmpty then failure
    return String.ofList bare

/-- A key: names with points and blanks between them.  The last name is given apart. -/
def key : Scan (List String × String) := do
  blanks
  let first ← name
  blanks
  let others ← Scan.repeated do
    if ← Scan.accept "." then
      blanks
      let other ← name
      blanks
      return some other
    else return none
  let names := first :: others
  if depthLimit ≤ names.length then failure
  return (names.dropLast, names.getLast?.getD first)

/-! ### Values -/

/-- A character of a number, a date, a time of day, or one of the words. -/
def isWordChar (c : Char) : Bool :=
  c.isAlphanum || c == '+' || c == '-' || c == '_' || c == '.' || c == ':'

/-- A value without quotes or brackets. -/
def word : Scan Value := do
  let chars ← Scan.span isWordChar
  let joined ← longDate chars
  if joined = "true".toList then return .boolean true
  if joined = "false".toList then return .boolean false
  if isMoment joined then return .moment (String.ofList joined)
  match number? joined with
  | some value => return value
  | none => failure
where
  /-- A blank may stand between a date and a time of day. -/
  longDate (chars : List Char) : Scan (List Char) := fun text =>
    match text with
    | ' ' :: c :: rest =>
      if isDigit c && (date.whole? chars).isSome then
        some (chars ++ ' ' :: (c :: rest).takeWhile isWordChar, (c :: rest).dropWhile isWordChar)
      else some (chars, text)
    | _ => some (chars, text)

/-- The elements of a list, behind its opening bracket, and the closing bracket.  A comma separates
elements and may follow the last. -/
def elements (element : Scan Value) : Scan (List Value) := do
  let found ← Scan.repeated do
    layout
    if ← Scan.facing "]" then return none
    if ← Scan.facing "," then return none
    let value ← element
    layout
    let separated ← Scan.accept ","
    let last ← Scan.facing "]"
    if separated || last then return some value else failure
  layout
  Scan.expect "]"
  return found

/-- An entry: a key, an equals sign and a value. -/
def binding (element : Scan Value) : Scan (List String × String × Value) := do
  let (path, last) ← key
  Scan.expect "="
  blanks
  return (path, last, ← element)

/-- The entries of a table in braces, behind the opening brace, and the closing brace.  It stands on
one line, and no comma follows the last entry. -/
def braced (element : Scan Value) : Scan Value := do
  blanks
  let entries ←
    if ← Scan.facing "\x7d" then pure []
    else do
      let first ← binding element
      blanks
      let others ← Scan.repeated do
        if ← Scan.accept "," then
          let other ← binding element
          blanks
          return some other
        else return none
      pure (first :: others)
  Scan.expect "\x7d"
  match (Table.fresh .stated).insertAll? entries with
  | some t => return t.toValue
  | none => failure

/-- A value, given how the values inside it are read.  Without that, brackets and braces are
refused. -/
def valueOver (inner : Option (Scan Value)) : Scan Value := do
  match ← Scan.peek with
  | some '"' => return .text (← quoted '"' true)
  | some '\'' => return .text (← quoted '\'' false)
  | some '[' =>
    let some element := inner | failure
    Scan.expect "["
    return .list (← elements element)
  | some '\x7b' =>
    let some element := inner | failure
    Scan.expect "\x7b"
    braced element
  | _ => word

/-- A value in which lists and tables nest at most so deep. -/
def value : Nat → Scan Value
  | 0 => valueOver none
  | depth + 1 => valueOver (some (value depth))

/-! ### Lines and sections -/

/-- The next line, or nothing at the end of the text. -/
def line : Scan (Option Line) := do
  blanks
  match ← Scan.peek with
  | none => return none
  | some '[' =>
    Scan.expect "["
    let repeated ← Scan.accept "["
    let (path, last) ← key
    Scan.expect (if repeated then "]]" else "]")
    lineRest
    return some (.header path last repeated)
  | some c =>
    if c == '#' || c == '\n' || c == '\r' then
      lineRest
      return some .blank
    let (path, last, value) ← binding (value (depthLimit - 1))
    lineRest
    return some (.entry path last value)

/-- A header with the entries that follow it. -/
structure Section where
  path : List String
  name : String
  repeated : Bool
  entries : List (List String × String × Value)

/-- The entries before the first header, and the sections. -/
def sections : List Line → List (List String × String × Value) × List Section
  | [] => ([], [])
  | line :: rest =>
    let (entries, found) := sections rest
    match line with
    | .blank => (entries, found)
    | .entry path name value => ((path, name, value) :: entries, found)
    | .header path name repeated => ([], ⟨path, name, repeated, entries⟩ :: found)

/-- The table that the lines of a file grow into. -/
def table? (lines : List Line) : Option Table := do
  let (entries, found) := sections lines
  let root ← (Table.fresh .stated).insertAll? entries
  found.foldlM (fun t s => t.addSection? s.path s.name s.repeated s.entries) root

end ModemLink.Toml

namespace ModemLink

/-- The value of a TOML file.  A byte order mark in front of it is dropped. -/
def Value.ofToml? (text : String) : Option Value := do
  let chars :=
    match text.toList with
    | '\uFEFF' :: rest => rest
    | chars => chars
  let lines ← (Text.Scan.repeated Toml.line).whole? chars
  let table ← Toml.table? lines
  return table.toValue

end ModemLink
