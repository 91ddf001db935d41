import ModemLink.Config.Reader
import ModemLink.Toml.Document

/-!
# Configuration files

A configuration file is a TOML file; what it states has to be valid.
-/

namespace ModemLink

/-- What is found under the name of a file. -/
inductive FileContent where
  | missing
  | directory
  | bytes (bytes : ByteArray)

namespace Config

/-- The valid configuration that the text of a file states. -/
def ofToml (text : String) : Except ConfigFault Config := do
  match Value.ofToml? text with
  | none => throw .malformed
  | some value => (← Config.read .toml value).validate

/-- Whether a name leads to a directory whatever the files are: it stays in the working directory or
climbs to those above. -/
def namesDirectory (name : String) : Bool :=
  name != "" && (name.splitOn "/").all ["", ".", ".."].contains

/-- The valid configuration of a file. -/
def load (name : String) (content : FileContent) : Except ConfigFault Config :=
  if namesDirectory name then .error (.unreadable name .directory)
  else
    match content with
    | .missing => .error (.unreadable name .missing)
    | .directory => .error (.unreadable name .directory)
    | .bytes bytes =>
      match String.fromUTF8? bytes with
      | none => .error (.unreadable name .notText)
      | some text => ofToml text

end Config

end ModemLink
