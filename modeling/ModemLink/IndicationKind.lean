import ModemLink.Payload

/-!
# Kinds of indication

What the radio may report without being asked, each with its number and its name.  A kind is looked
up by its short name; its full name adds `UNSOL_` in front.

Main statements: `mem_all`, `ofShortName?_shortName`.
-/

namespace ModemLink

/-- A report of the radio that answers no request. -/
inductive IndicationKind where
  | radioStateChanged
  | callStateChanged
  | voiceNetworkStateChanged
  | newSms
  | nitzTimeReceived
  | signalStrength
  | dataCallListChanged
  | callRing
  | simStatusChanged
  | rilConnected
  | cellInfoList
  | lceData
  | modemRestart
deriving DecidableEq, Hashable, Inhabited, Repr

namespace IndicationKind

/-- Every kind, in order. -/
def all : List IndicationKind :=
  [
    .radioStateChanged, .callStateChanged, .voiceNetworkStateChanged, .newSms, .nitzTimeReceived,
    .signalStrength, .dataCallListChanged, .callRing, .simStatusChanged, .rilConnected,
    .cellInfoList, .lceData, .modemRestart
  ]

/-- The number of the indication on the wire. -/
def code : IndicationKind → UInt32
  | .radioStateChanged => 1000
  | .callStateChanged => 1001
  | .voiceNetworkStateChanged => 1002
  | .newSms => 1003
  | .nitzTimeReceived => 1008
  | .signalStrength => 1009
  | .dataCallListChanged => 1010
  | .callRing => 1018
  | .simStatusChanged => 1019
  | .rilConnected => 1034
  | .cellInfoList => 1036
  | .lceData => 1045
  | .modemRestart => 1047

/-- The name under which a kind is looked up. -/
def shortName : IndicationKind → String
  | .radioStateChanged => "RADIO_STATE_CHANGED"
  | .callStateChanged => "CALL_STATE_CHANGED"
  | .voiceNetworkStateChanged => "VOICE_NETWORK_STATE_CHANGED"
  | .newSms => "NEW_SMS"
  | .nitzTimeReceived => "NITZ_TIME_RECEIVED"
  | .signalStrength => "SIGNAL_STRENGTH"
  | .dataCallListChanged => "DATA_CALL_LIST_CHANGED"
  | .callRing => "CALL_RING"
  | .simStatusChanged => "SIM_STATUS_CHANGED"
  | .rilConnected => "RIL_CONNECTED"
  | .cellInfoList => "CELL_INFO_LIST"
  | .lceData => "LCE_DATA"
  | .modemRestart => "MODEM_RESTART"

/-- The full name of a kind. -/
def name (kind : IndicationKind) : String := "UNSOL_" ++ kind.shortName

/-- The kind of a short name. -/
def ofShortName? (name : String) : Option IndicationKind := all.find? (·.shortName == name)

theorem mem_all (kind : IndicationKind) : kind ∈ all := by cases kind <;> decide

theorem ofShortName?_shortName (kind : IndicationKind) :
    ofShortName? kind.shortName = some kind := by
  cases kind <;> rfl

end IndicationKind

/-- One report: its kind and what it carries. -/
structure Indication where
  kind : IndicationKind
  payload : Payload
deriving DecidableEq

end ModemLink
