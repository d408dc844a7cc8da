import HomeProvision.Data.Value
import HomeProvision.Settings.Basic
import HomeProvision.Text.Utf8
import HomeProvision.Text.Words
import HomeProvision.Yaml.Error

/-!
# Why a configuration is refused

Each cause of a refusal with its wording. Most causes are bad input, which the command reports and
survives; a few are of another class, because the reader meets a value of a type that it has no
rule for.
-/

namespace HomeProvision

open HomeProvision.Data HomeProvision.Text

/-- The key of a configuration file that holds the settings. -/
def settingsKey : String := "CreateHome"

/-- Why a configuration is refused. -/
inductive SettingsError where
  /-- A word that is neither on nor off, as messages show it. -/
  | notSwitch (shown : String)
  /-- A value that denotes no mode, as messages show it. -/
  | badMode (shown : String)
  /-- A mode of a type that is neither text nor number. -/
  | modeType
  /-- A directive that does not split into words. -/
  | words (e : WordsError)
  /-- A directive without its first word. -/
  | noSwitch
  /-- A keyword at the end of a directive. -/
  | noValue (keyword : String)
  /-- A word of a directive that is neither a mode in its place nor a keyword, as messages show
  it. -/
  | unknownWord (shown : String)
  /-- Keys of a mapping that have no meaning, in order. -/
  | unknownKeys (keys : List String)
  /-- Unknown keys that cannot be put in order. -/
  | unorderedKeys (e : Value.OrderError)
  /-- A value out of range. -/
  | invalid (e : Invalid)
  /-- A value under the settings key that is no form of settings. -/
  | unsupported (value : String)
  /-- A file that the system does not let us read, with its reason. -/
  | unreadable (path reason : String)
  /-- A file whose text is no document. -/
  | malformed (path : String)
  /-- A file whose document is not a mapping. -/
  | notMapping (path : String)
  /-- A file that is not UTF-8. -/
  | encoding (e : Utf8Error)
  /-- A document with a value that cannot be built. -/
  | document (e : DocumentError)
  deriving Repr, DecidableEq

namespace SettingsError

/-- The class of an error. -/
def errorClass : SettingsError → ErrorClass
  | modeType => .type
  | unorderedKeys _ => .type
  | encoding _ => .encoding
  | document e => e.errorClass
  | _ => .value

/-- Whether an error is bad input, which the command reports. -/
def isBadInput (e : SettingsError) : Bool :=
  match e.errorClass with
  | .value | .encoding => true
  | _ => false

/-- The wording of an error. -/
def message : SettingsError → String
  | notSwitch shown => "expected on/off, got " ++ shown
  | badMode shown => "invalid mode: " ++ shown
  | modeType => "int() can't convert non-string with explicit base"
  | words e => e.message
  | noSwitch => settingsKey ++ ": missing on/off argument"
  | noValue keyword => settingsKey ++ ": '" ++ keyword ++ "' requires a value"
  | unknownWord shown => settingsKey ++ ": unknown parameter " ++ shown
  | unknownKeys keys => settingsKey ++ ": unknown keys [" ++ ", ".intercalate keys ++ "]"
  | unorderedKeys e => e.message
  | invalid e => settingsKey ++ ": " ++ e.message
  | unsupported value => settingsKey ++ ": unsupported value " ++ value
  | unreadable path reason => "Invalid config file " ++ path ++ ": " ++ reason
  | malformed path => "Invalid config file " ++ path ++ ": <yaml error>"
  | notMapping path => "Config file must contain a mapping: " ++ path
  | encoding e => e.message
  | document e => e.message

end SettingsError

end HomeProvision
