import ModemLink.Duration
import ModemLink.RequestKind
import ModemLink.WorkSource

/-!
# Configuration

How long to wait for what, how many vacated places to keep, which kinds of request get a neutral
result after a deadline, and whom unattributed work is charged to.  A configuration is valid if no
time in it is zero and every kind with a deadline has a neutral result.

Main statements: `validate_default`, `validate_eq_ok_iff`.
-/

namespace ModemLink

/-- The settings of one link. -/
structure Config where
  instanceName : String := "slot0"
  wakelockTimeoutMs : UInt64 := 60000
  ackWakelockTimeoutMs : UInt64 := 200
  blockingResponseTimeoutMs : UInt64 := 2000
  reconnectDelayMs : UInt64 := 4000
  freeListCapacity : UInt64 := 4
  blockingKinds : List RequestKind := [.getActivityInfo, .pullLceData]
  defaultSource : WorkSource := .phone
deriving DecidableEq, Inhabited

/-- Why a configuration file could not be read. -/
inductive ReadFault where
  | missing
  | directory
  | notText
deriving DecidableEq, Repr

/-- The text of a fault of reading. -/
def ReadFault.message : ReadFault → String
  | .missing => "No such file or directory (os error 2)"
  | .directory => "Is a directory (os error 21)"
  | .notText => "stream did not contain valid UTF-8"

/-- Why there is no configuration, or no link that follows it. -/
inductive ConfigFault where
  | unreadable (name : String) (fault : ReadFault)
  | malformed
  | zeroTime (field : String)
  | noNeutralResult (kind : RequestKind)
  | noScheduler
deriving DecidableEq

/-- The text of the fault. -/
def ConfigFault.message : ConfigFault → String
  | .unreadable name fault => s!"Failed to read config file {name}: {fault.message}"
  | .malformed => "Failed to parse config"
  | .zeroTime field => s!"Invalid config: {field} cannot be 0"
  | .noNeutralResult kind =>
    s!"Invalid config: {kind.name} has no neutral default and cannot be allow-listed"
  | .noScheduler => "Invalid config: no scheduler given and no tokio runtime running"

namespace Config

/-- How long the request guard is held after its latest unit. -/
def wakelockTimeout (c : Config) : Duration := .ofMillis c.wakelockTimeoutMs

/-- How long the ack guard is held after its latest unit. -/
def ackWakelockTimeout (c : Config) : Duration := .ofMillis c.ackWakelockTimeoutMs

/-- The deadline of the kinds that have one. -/
def blockingResponseTimeout (c : Config) : Duration := .ofMillis c.blockingResponseTimeoutMs

/-- The time from a failed bind or a death to the next attempt. -/
def reconnectDelay (c : Config) : Duration := .ofMillis c.reconnectDelayMs

/-- The times that may not be zero, in the order in which they are checked. -/
def times (c : Config) : List (String × UInt64) :=
  [("wakelock_timeout_ms", c.wakelockTimeoutMs),
    ("ack_wakelock_timeout_ms", c.ackWakelockTimeoutMs),
    ("blocking_response_timeout_ms", c.blockingResponseTimeoutMs),
    ("reconnect_delay_ms", c.reconnectDelayMs)]

/-- Passes a valid configuration on. -/
def validate (c : Config) : Except ConfigFault Config :=
  match c.times.find? (·.2 == 0) with
  | some (field, _) => .error (.zeroTime field)
  | none =>
    match c.blockingKinds.find? (·.neutralResult?.isNone) with
    | some kind => .error (.noNeutralResult kind)
    | none => .ok c

/-- The defaults are valid. -/
theorem validate_default : validate {} = .ok {} := rfl

/-- What is passed on is the configuration itself, and it is valid. -/
theorem validate_eq_ok_iff (c d : Config) :
    c.validate = .ok d ↔
      d = c ∧ (∀ time ∈ c.times, time.2 ≠ 0) ∧
        ∀ kind ∈ c.blockingKinds, kind.neutralResult?.isSome := by
  unfold validate
  split
  · rename_i field ms h
    have := List.find?_some h
    have hm := List.mem_of_find?_eq_some h
    constructor
    · intro h'; cases h'
    · rintro ⟨_, ht, _⟩; exact absurd (by simpa using this) (ht _ hm)
  · rename_i ht
    split
    · rename_i kind h
      have := List.find?_some h
      have hm := List.mem_of_find?_eq_some h
      constructor
      · intro h'; cases h'
      · rintro ⟨_, _, hk⟩
        have := hk _ hm
        simp_all
    · rename_i hk
      rw [List.find?_eq_none] at ht hk
      constructor
      · intro h'
        cases h'
        refine ⟨rfl, fun time hm => ?_, fun kind hm => ?_⟩
        · simpa using ht time hm
        · simpa [Option.isNone_iff_eq_none, Option.isSome_iff_ne_none] using hk kind hm
      · rintro ⟨rfl, _, _⟩; rfl

end Config

end ModemLink
