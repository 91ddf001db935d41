import ModemLink.Telemetry.LogFilter
import ModemLink.Telemetry.Settings

/-!
# The log of a process

Telemetry is started with settings and tells so in the log, and tells again when it ends.  A process
has one log at most: telemetry that logs to the console can be started once, while telemetry without
console output can be started any number of times.

Main statement: `plain_of_no_escape`.
-/

namespace ModemLink.Telemetry

/-- Why telemetry could not be started. -/
inductive Fault where
  | logging (reason : String)
  | metrics (reason : String)
  | configuration (reason : String)
deriving DecidableEq

/-- The text of the fault. -/
def Fault.message : Fault → String
  | .logging reason => s!"Failed to initialize logging: {reason}"
  | .metrics reason => s!"Failed to initialize Prometheus metrics: {reason}"
  | .configuration reason => s!"Invalid configuration: {reason}"

/-- How many characters behind an escape character set a colour with it: an opening bracket, numbers
with semicolons, and the letter `m`. -/
def colourLength? : List Char → Option Nat
  | '[' :: rest =>
    let numbers := rest.takeWhile fun c => c.isDigit || c == ';'
    if (rest.drop numbers.length).head? = some 'm' then some (numbers.length + 2) else none
  | _ => none

/-- A text behind so many characters, without what sets colours. -/
def plain : Nat → List Char → List Char
  | _, [] => []
  | n + 1, _ :: rest => plain n rest
  | 0, c :: rest =>
    if c = '\x1b' then
      match colourLength? rest with
      | some n => plain n rest
      | none => c :: plain 0 rest
    else c :: plain 0 rest

/-- A text that sets no colours stays as it is. -/
theorem plain_of_no_escape {text : List Char} (h : '\x1b' ∉ text) : plain 0 text = text := by
  induction text with
  | nil => rfl
  | cons c rest ih =>
    simp only [List.mem_cons, not_or] at h
    simp [plain, Ne.symm h.1, ih h.2]

/-- What a field of an event holds. -/
inductive FieldValue where
  | text (value : String)
  | flag (value : Bool)
deriving DecidableEq

/-- The text of a field's value. -/
def FieldValue.label : FieldValue → String
  | .text value => value
  | .flag value => toString value

/-- An event that tells how the process is doing. -/
structure Event where
  target : String
  message : String
  fields : List (String × FieldValue)
deriving DecidableEq

namespace Event

/-- The level of all events. -/
def level : Level := .info

/-- The level as it is written in front of an event. -/
def levelName : String := "INFO"

/-- The names of the fields, of which the message is one. -/
def fieldNames (e : Event) : List String := "message" :: e.fields.map (·.1)

/-- The event as a line of text, without colours. -/
def line (e : Event) : String :=
  let fields := e.fields.map fun (name, value) => s!" {name}={value.label}"
  let text := s!"{levelName} {e.target}: {e.message}" ++ String.join fields
  String.ofList (plain 0 text.toList)

/-- Telemetry was started. -/
def started (s : Settings) : Event :=
  ⟨"radio_telemetry::logging", "Logging initialized",
    [("service", .text s.fullName), ("level", .text s.logLevel), ("json", .flag s.json)]⟩

/-- Telemetry ends. -/
def ended (service : String) : Event :=
  ⟨"radio_telemetry", "Shutting down telemetry", [("service", .text service)]⟩

end Event

/-- The log of a process: which events pass, how they are written, and those that passed. -/
structure Log where
  filter : LogFilter
  json : Bool
  events : List Event := []

/-- Writes an event down if it passes. -/
def Log.note (log : Log) (e : Event) : Log :=
  if log.filter.allows Event.level e.target e.fieldNames then
    { log with events := log.events ++ [e] }
  else log

/-- A process as far as it logs: it may have a log. -/
structure Host where
  log : Option Log := none

/-- Telemetry that was started. -/
structure Running where
  settings : Settings
  service : String
  /-- Whether it set the log up. -/
  logging : Bool

namespace Host

/-- Writes an event down if there is a log. -/
def note (p : Host) (e : Event) : Host := ⟨p.log.map (·.note e)⟩

/-- Starts telemetry.  The filter is read even if nothing is to be logged. -/
def start (p : Host) (s : Settings) : Except Fault Running × Host :=
  match LogFilter.ofText? s.logLevel with
  | none =>
    (.error (.configuration s!"log level {s.logLevel}: invalid filter directive"), p)
  | some filter =>
    if s.console then
      match p.log with
      | some _ => (.error (.logging "a log is set up already"), p)
      | none =>
        let p : Host := ⟨some { filter, json := s.json }⟩
        (.ok ⟨s, s.fullName, true⟩, p.note (.started s))
    else (.ok ⟨s, s.fullName, false⟩, p)

/-- Ends telemetry. -/
def stop (p : Host) (running : Running) : Host := p.note (.ended running.service)

end Host

end ModemLink.Telemetry
