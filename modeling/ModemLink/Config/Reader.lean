import ModemLink.Config
import ModemLink.Guard
import ModemLink.IndicationKind
import ModemLink.Record

/-!
# Reading a configuration

A configuration is read out of a table, entry by entry.  An entry that is missing keeps its default
and an entry nobody knows is ignored; an entry of the wrong form spoils the whole.  A record may
also be written as a list of its fields in their order, of which the last may be missing.  The two
formats that values come from differ in small ways, which a `Dialect` states.

Main statement: `record?_list`.
-/

namespace ModemLink

/-- How a format writes what a value alone does not tell. -/
structure Dialect where
  /-- Whether a value may stand behind the name of a choice that carries nothing. -/
  standsForNothing : Value → Bool
  /-- Whether a record that is written as a list may have more elements than fields. -/
  spareElements : Bool

namespace Dialect

/-- In a JSON record a choice may be written as a table with one null entry; lists have exactly as
many elements as the record has fields. -/
def json : Dialect :=
  ⟨fun value => match value with | .null => true | _ => false, false⟩

/-- In a TOML file a choice may be written as a table with one entry that is an empty list or table;
further elements of a list are ignored. -/
def toml : Dialect :=
  ⟨fun value => match value with | .list [] => true | .table [] => true | _ => false, true⟩

end Dialect

namespace Value

/-- The name of a choice: a text, or a table with one entry that stands for nothing. -/
def choice? (dialect : Dialect) : Value → Option String
  | .text name => some name
  | .table [(name, value)] => if dialect.standsForNothing value then some name else none
  | _ => none

/-- A kind of request. -/
def requestKind? (dialect : Dialect) (value : Value) : Option RequestKind :=
  value.choice? dialect >>= RequestKind.ofName?

/-- A kind of indication, by its short name. -/
def indicationKind? (dialect : Dialect) (value : Value) : Option IndicationKind :=
  value.choice? dialect >>= IndicationKind.ofShortName?

/-- A guard. -/
def guard? (dialect : Dialect) (value : Value) : Option Guard :=
  value.choice? dialect >>= Guard.ofName?

/-- A number of 64 bits. -/
def uint64? (value : Value) : Option UInt64 :=
  (value.natBelow? 18446744073709551616).map UInt64.ofNat

/-- A number of 32 bits. -/
def uint32? (value : Value) : Option UInt32 := (value.natBelow? 4294967296).map UInt32.ofNat

/-- The entries of a record: those of a table, or the elements of a list under the names of the
fields. -/
def record? (dialect : Dialect) (fields : List String) : Value → Option Value
  | .table entries => some (.table entries)
  | .list values =>
    if values.length ≤ fields.length || dialect.spareElements then
      some (.table (fields.zip values))
    else none
  | _ => none

/-- A work source: user number and package. -/
def workSource? (dialect : Dialect) (value : Value) : Option WorkSource := do
  let record ← value.record? dialect ["uid", "package"]
  let uid ← (← record.get? "uid").uint32?
  let package ← (← record.get? "package").text?
  return ⟨uid, package⟩

/-- A list of things that are all of the right form. -/
def listOf? {α : Type} (element : Value → Option α) : Value → Option (List α)
  | .list values => values.mapM element
  | _ => none

/-- An entry of a table; a missing one gives the default. -/
def entryOr {α : Type} (value : Value) (name : String) (default : α) (read : Value → Option α) :
    Option α :=
  match value.get? name with
  | none => some default
  | some entry => read entry

/-- The names of the settings. -/
def configFields : List String :=
  ["instance_name", "wakelock_timeout_ms", "ack_wakelock_timeout_ms",
    "blocking_response_timeout_ms", "reconnect_delay_ms", "free_list_capacity", "blocking_kinds",
    "default_work_source"]

/-- The settings that a record states. -/
def config? (dialect : Dialect) (value : Value) : Option Config := do
  let defaults : Config := {}
  let record ← value.record? dialect configFields
  let instanceName ← record.entryOr "instance_name" defaults.instanceName text?
  let wakelockTimeoutMs ←
    record.entryOr "wakelock_timeout_ms" defaults.wakelockTimeoutMs uint64?
  let ackWakelockTimeoutMs ←
    record.entryOr "ack_wakelock_timeout_ms" defaults.ackWakelockTimeoutMs uint64?
  let blockingResponseTimeoutMs ←
    record.entryOr "blocking_response_timeout_ms" defaults.blockingResponseTimeoutMs uint64?
  let reconnectDelayMs ←
    record.entryOr "reconnect_delay_ms" defaults.reconnectDelayMs uint64?
  let freeListCapacity ←
    record.entryOr "free_list_capacity" defaults.freeListCapacity uint64?
  let blockingKinds ←
    record.entryOr "blocking_kinds" defaults.blockingKinds (listOf? (requestKind? dialect))
  let defaultSource ←
    record.entryOr "default_work_source" defaults.defaultSource (workSource? dialect)
  return {
    instanceName, wakelockTimeoutMs, ackWakelockTimeoutMs, blockingResponseTimeoutMs,
    reconnectDelayMs, freeListCapacity, blockingKinds, defaultSource }

/-- A list with no more elements than there are fields states the first of them. -/
theorem record?_list {dialect : Dialect} {fields : List String} {values : List Value}
    (h : values.length ≤ fields.length) :
    record? dialect fields (.list values) = some (.table (fields.zip values)) := by
  simp [record?, h]

end Value

/-- The configuration that a value states, before it is validated. -/
def Config.read (dialect : Dialect) (value : Value) : Except ConfigFault Config :=
  match value.config? dialect with
  | some config => .ok config
  | none => .error .malformed

end ModemLink
