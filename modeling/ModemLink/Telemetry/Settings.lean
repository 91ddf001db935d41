/-!
# Telemetry settings

How a process logs: under which name, how much, whether to the console at all, and in which form.
The settings come from the environment of the process.

Main statement: `fullName_forInstance`.
-/

namespace ModemLink.Telemetry

/-- How a process logs. -/
structure Settings where
  serviceName : String := "radio-proxy"
  instanceName : String := "slot0"
  logLevel : String := "info"
  console : Bool := true
  json : Bool := false
deriving DecidableEq, Inhabited

namespace Settings

/-- The settings that an environment states; what it does not state keeps its default.  The level
has a second variable that counts if the first is missing.  The words for yes and no are told apart
from others without regard to case; no letter of another script has a letter of these words as its
small form. -/
def ofEnvironment (lookup : String → Option String) : Settings :=
  let defaults : Settings := {}
  { serviceName := (lookup "RIL_SERVICE_NAME").getD defaults.serviceName
    instanceName := (lookup "RIL_INSTANCE").getD defaults.instanceName
    logLevel :=
      ((lookup "RIL_LOG_LEVEL").or (lookup "RUST_LOG")).getD defaults.logLevel
    console :=
      ((lookup "RIL_CONSOLE_OUTPUT").map fun word =>
        word.toLower != "false" && word != "0").getD defaults.console
    json :=
      ((lookup "RIL_JSON_LOGS").map fun word =>
        word.toLower == "true" || word == "1").getD defaults.json }

/-- The settings of one instance. -/
def forInstance (s : Settings) (instanceName : String) : Settings := { s with instanceName }

/-- The name of the service together with that of the instance, if it has one. -/
def fullName (s : Settings) : String :=
  if s.instanceName.isEmpty then s.serviceName else s!"{s.serviceName}-{s.instanceName}"

/-- An instance without a name is called like the service. -/
theorem fullName_forInstance (s : Settings) : (s.forInstance "").fullName = s.serviceName := rfl

end Settings

end ModemLink.Telemetry
