import ReleaseSelection.Data.Layer
import ReleaseSelection.Data.Toml
import ReleaseSelection.Data.Variable
import ReleaseSelection.Policy

/-!
# Configurations

A configuration is put together from defaults, a document and the environment. A later layer wins
over an earlier one, setting by setting.
-/

namespace ReleaseSelection

structure Telemetry where
  logLevel : String
  json : Bool
  deriving DecidableEq, Repr

structure Configuration where
  telemetry : Telemetry
  policy : Policy
  deriving DecidableEq, Repr

def Telemetry.settings : List String := ["log_level", "json"]

instance : DataForm Telemetry where
  toData t := .record [("log_level", toData t.logLevel), ("json", toData t.json)]
  ofData? d := do
    let m ← Members.of? Telemetry.settings d
    return ⟨← m.required "log_level", ← m.required "json"⟩

instance : DataForm Configuration where
  toData c := .record [("telemetry", toData c.telemetry), ("decision", toData c.policy)]
  ofData? d := do
    let m ← Members.of? ["telemetry", "decision"] d
    return ⟨← m.required "telemetry", ← m.required "decision"⟩

namespace Configuration

def default : Configuration := ⟨⟨"info", false⟩, .default⟩

inductive Error where
  | unreadable
  | invalid (error : Policy.Error)
  | fault (fault : Fault)
  deriving DecidableEq, Repr

/-- Variables of the program are told by how their names start. -/
def variableMark : String := "GAMARR_"

/-- The settings of an environment. Of two variables for one setting the later wins. -/
def environment (assignments : List (String × String)) : Except Fault Data := do
  let settings := assignments.filterMap fun (name, value) =>
    (Variable.names? variableMark name).map (·, value)
  let layers ← settings.mapM fun (names, value) => do
    return Variable.nested (← Variable.read value) names
  return .overlay layers

/-- The settings of a document; without a document there are none. -/
def document? : Option String → Option Data
  | some text => Toml.read? text
  | none => some (.record [])

/-- A row of settings may go on after the last of them. -/
def cutRow (settings : List String) : Data → Data
  | .list row => .list (row.take settings.length)
  | d => d

def cutDelayProfiles : Data → Data
  | .list profiles => .list (profiles.map (cutRow DelayProfile.settings))
  | d => d

/-- The delay profiles are the last setting of a policy. -/
def cutPolicy (d : Data) : Data :=
  match cutRow Policy.settings d with
  | .list row => .list (row.modify (Policy.settings.length - 1) cutDelayProfiles)
  | d => d.mapMember "delay_profiles" cutDelayProfiles

/-- Leaves out what goes beyond the settings of each row. -/
def cutRows (d : Data) : Data :=
  (d.mapMember "telemetry" (cutRow Telemetry.settings)).mapMember "decision" cutPolicy

/-- The settings in force: defaults, then the document, then the environment. -/
def settings (document environment : Data) : Data :=
  .overlay [toData default, document, environment]

def load (document : Option String) (assignments : List (String × String)) :
    Except Error Configuration :=
  match environment assignments, document? document with
  | .error fault, _ => .error (.fault fault)
  | .ok _, none => .error .unreadable
  | .ok environment, some document =>
    match (ofData? (cutRows (settings document environment)) : Option Configuration) with
    | none => .error .unreadable
    | some configuration =>
      match configuration.policy.validate with
      | .error error => .error (.invalid error)
      | .ok _ => .ok configuration

end Configuration

end ReleaseSelection
