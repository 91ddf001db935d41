import ModemLink.Payload

/-!
# Kinds of request

The requests a caller can make of the radio, each with its number on the wire and its name.  Two of
them have a neutral result, which stands in for a reply that never comes.

Main statements: `mem_all` (the list of kinds misses none), `ofCode?_code` and `ofName?_name` (a
kind is found again under its number and its name).
-/

namespace ModemLink

/-- A request to the radio, in the order of the numbers on the wire. -/
inductive RequestKind where
  | getSimStatus
  | getCurrentCalls
  | dial
  | getImsi
  | hangup
  | signalStrength
  | voiceRegistrationState
  | dataRegistrationState
  | operator
  | radioPower
  | sendSms
  | setupDataCall
  | getImei
  | deactivateDataCall
  | queryNetworkSelectionMode
  | setNetworkSelectionAutomatic
  | deviceIdentity
  | getCellInfoList
  | getHardwareConfig
  | getRadioCapability
  | startLce
  | pullLceData
  | getActivityInfo
deriving DecidableEq, Hashable, Inhabited, Repr

namespace RequestKind

/-- Every kind, in order. -/
def all : List RequestKind :=
  [
    .getSimStatus, .getCurrentCalls, .dial, .getImsi, .hangup, .signalStrength,
    .voiceRegistrationState, .dataRegistrationState, .operator, .radioPower, .sendSms,
    .setupDataCall, .getImei, .deactivateDataCall, .queryNetworkSelectionMode,
    .setNetworkSelectionAutomatic, .deviceIdentity, .getCellInfoList, .getHardwareConfig,
    .getRadioCapability, .startLce, .pullLceData, .getActivityInfo
  ]

/-- The number of the request on the wire. -/
def code : RequestKind → UInt32
  | .getSimStatus => 1
  | .getCurrentCalls => 9
  | .dial => 10
  | .getImsi => 11
  | .hangup => 12
  | .signalStrength => 19
  | .voiceRegistrationState => 20
  | .dataRegistrationState => 21
  | .operator => 22
  | .radioPower => 23
  | .sendSms => 25
  | .setupDataCall => 27
  | .getImei => 38
  | .deactivateDataCall => 41
  | .queryNetworkSelectionMode => 45
  | .setNetworkSelectionAutomatic => 46
  | .deviceIdentity => 98
  | .getCellInfoList => 109
  | .getHardwareConfig => 124
  | .getRadioCapability => 130
  | .startLce => 132
  | .pullLceData => 134
  | .getActivityInfo => 135

/-- The name of the request. -/
def name : RequestKind → String
  | .getSimStatus => "GET_SIM_STATUS"
  | .getCurrentCalls => "GET_CURRENT_CALLS"
  | .dial => "DIAL"
  | .getImsi => "GET_IMSI"
  | .hangup => "HANGUP"
  | .signalStrength => "SIGNAL_STRENGTH"
  | .voiceRegistrationState => "VOICE_REGISTRATION_STATE"
  | .dataRegistrationState => "DATA_REGISTRATION_STATE"
  | .operator => "OPERATOR"
  | .radioPower => "RADIO_POWER"
  | .sendSms => "SEND_SMS"
  | .setupDataCall => "SETUP_DATA_CALL"
  | .getImei => "GET_IMEI"
  | .deactivateDataCall => "DEACTIVATE_DATA_CALL"
  | .queryNetworkSelectionMode => "QUERY_NETWORK_SELECTION_MODE"
  | .setNetworkSelectionAutomatic => "SET_NETWORK_SELECTION_AUTOMATIC"
  | .deviceIdentity => "DEVICE_IDENTITY"
  | .getCellInfoList => "GET_CELL_INFO_LIST"
  | .getHardwareConfig => "GET_HARDWARE_CONFIG"
  | .getRadioCapability => "GET_RADIO_CAPABILITY"
  | .startLce => "START_LCE"
  | .pullLceData => "PULL_LCEDATA"
  | .getActivityInfo => "GET_ACTIVITY_INFO"

/-- The kind of a number on the wire. -/
def ofCode? (code : UInt32) : Option RequestKind := all.find? (·.code == code)

/-- The kind of a name. -/
def ofName? (name : String) : Option RequestKind := all.find? (·.name == name)

/-- The place of a kind in the list of all. -/
def rank (kind : RequestKind) : Nat := kind.ctorIdx

/-- How many transmit power levels an activity report lists. -/
def txPowerLevels : Nat := 5

/-- Numbers in an activity report: sleep, idle and a timestamp, the transmit levels, and receive. -/
def activityInfoFields : Nat := 3 + txPowerLevels + 1

/-- Numbers in a link capacity report. -/
def lceDataFields : Nat := 3

/-- The result that stands in for a missing reply, for the kinds that have one. -/
def neutralResult? : RequestKind → Option Payload
  | .getActivityInfo => some (.ints (List.replicate activityInfoFields 0))
  | .pullLceData => some (.ints (List.replicate lceDataFields 0))
  | _ => none

theorem mem_all (kind : RequestKind) : kind ∈ all := by cases kind <;> decide

theorem ofCode?_code (kind : RequestKind) : ofCode? kind.code = some kind := by
  cases kind <;> decide

theorem ofName?_name (kind : RequestKind) : ofName? kind.name = some kind := by
  cases kind <;> rfl

end RequestKind

end ModemLink
