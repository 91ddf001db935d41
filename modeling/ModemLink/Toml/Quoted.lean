import ModemLink.Text.Digit
import ModemLink.Toml.Layout

/-!
# Quoted texts

A text stands in double quotes, where a backslash begins an escape, or in single quotes, where every
character stands for itself.  Three quotes on either side let it run over several lines: a line end
directly behind the opening quotes is dropped, one or two quotes may stand inside, and up to two
directly before the closing ones.  In three double quotes a backslash at the end of a line joins it
with the next line that is not blank.
-/

namespace ModemLink.Toml

open Text

/-- The character with a code point of so many hexadecimal digits. -/
def codePoint (digits : Nat) : Scan Char := do
  let n := ofDigits 16 (← Scan.exactly digits isHexDigit)
  if n.isValidChar then return Char.ofNat n else failure

/-- The character that an escape stands for, behind its backslash. -/
def escape : Scan Char := do
  match ← Scan.next with
  | 'b' => return '\x08'
  | 't' => return '\t'
  | 'n' => return '\n'
  | 'f' => return '\x0c'
  | 'r' => return '\r'
  | '"' => return '"'
  | '\\' => return '\\'
  | 'u' => codePoint 4
  | 'U' => codePoint 8
  | _ => failure

/-- Whether a line ends behind the blanks in front. -/
def facingLineEnd : Scan Bool := fun text =>
  (do blanks; acceptNewline : Scan Bool) text |>.map fun (found, _) => (found, text)

/-- A character of a text in quotes that is no line end: it stands for itself, or a backslash begins
an escape, or nothing at all if it joins two lines. -/
def quotedChar (escapes lines : Bool) : Scan (List Char) := do
  match ← Scan.next with
  | '\\' =>
    if !escapes then return ['\\']
    let joins ← facingLineEnd
    if lines && joins then
      blankLines
      blanks
      return []
    else return [← escape]
  | c => if isPlain c then return [c] else failure

/-- The next characters of a text in quotes, or nothing at its end.  `escapes` says whether a
backslash begins an escape, and `lines` whether the text may run over several lines. -/
def quotedPiece (quote : Char) (escapes lines : Bool) : Scan (Option (List Char)) := do
  let closing := String.ofList (List.replicate (if lines then 3 else 1) quote)
  if ← Scan.facing closing then return none
  if lines then
    if ← acceptNewline then return some ['\n']
  return some (← quotedChar escapes lines)

/-- The quotes that close a text, and those before them that belong to it. -/
def closingQuotes (quote : Char) : Scan (List Char) := do
  let quotes (n : Nat) := String.ofList (List.replicate n quote)
  if ← Scan.accept (quotes 5) then return [quote, quote]
  else if ← Scan.accept (quotes 4) then return [quote]
  else
    Scan.expect (quotes 3)
    return []

/-- A text on one line, with its quotes. -/
def quotedLine (quote : Char) (escapes : Bool) : Scan String := do
  let mark := String.singleton quote
  Scan.expect mark
  let pieces ← Scan.repeated (quotedPiece quote escapes false)
  Scan.expect mark
  return String.ofList pieces.flatten

/-- A text with its quotes, on one line or, with three quotes, on several. -/
def quoted (quote : Char) (escapes : Bool) : Scan String := do
  if ← Scan.accept (String.ofList (List.replicate 3 quote)) then
    let _ ← acceptNewline
    let pieces ← Scan.repeated (quotedPiece quote escapes true)
    let trailing ← closingQuotes quote
    return String.ofList (pieces.flatten ++ trailing)
  else quotedLine quote escapes

end ModemLink.Toml
