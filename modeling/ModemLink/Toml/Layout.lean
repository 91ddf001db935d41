import ModemLink.Text.Scan

/-!
# The layout of TOML files

The blanks, comments and ends of lines that stand between the words of a file.

Main statement: `acceptNewline_append`.
-/

namespace ModemLink.Toml

open Text

/-- A blank within a line. -/
def isBlank (c : Char) : Bool := c == ' ' || c == '\t'

/-- A character that a line may hold: no control character except the tab. -/
def isPlain (c : Char) : Bool := c == '\t' || (0x20 ≤ c.val && c.val != 0x7f)

/-- Takes off the end of a line, if it stands in front, and tells whether it did. -/
def acceptNewline : Scan Bool := do
  if ← Scan.accept "\n" then return true else Scan.accept "\r\n"

/-- Takes off blanks. -/
def blanks : Scan Unit := do
  let _ ← Scan.span isBlank

/-- Takes off a comment, if one stands in front, and tells whether it did. -/
def acceptComment : Scan Bool := do
  if ← Scan.accept "#" then
    let _ ← Scan.span isPlain
    return true
  else return false

/-- Takes off what may follow on a line: blanks, a comment, and the end of the line or text. -/
def lineRest : Scan Unit := do
  blanks
  let _ ← acceptComment
  if ← acceptNewline then return
  match ← Scan.peek with
  | none => return
  | some _ => failure

/-- Takes off the end of a line and the blank lines that follow it, with the blanks of the line
after them. -/
def blankLines : Scan Unit := do
  let _ ← Scan.repeated do
    blanks
    if ← acceptNewline then return some () else return none

/-- Takes off blanks, comments and ends of lines. -/
def layout : Scan Unit := do
  let _ ← Scan.repeated do
    blanks
    if ← acceptComment then
      if ← acceptNewline then return some () else failure
    else if ← acceptNewline then return some ()
    else return none

/-- Either end of a line is taken off whole. -/
theorem acceptNewline_append (rest : List Char) :
    acceptNewline ('\n' :: rest) = some (true, rest) ∧
      acceptNewline ('\r' :: '\n' :: rest) = some (true, rest) :=
  ⟨rfl, rfl⟩

end ModemLink.Toml
