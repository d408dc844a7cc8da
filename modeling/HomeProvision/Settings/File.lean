import HomeProvision.Provision.Path
import HomeProvision.Settings.Directive
import HomeProvision.System.Program
import HomeProvision.Yaml.Document

/-!
# The configuration file

Settings may stand in a document of the system. A file that is not there holds none. A file that is
there is either understood or refused, and the refusal names the file unless the text itself is at
fault.
-/

namespace HomeProvision

open HomeProvision.Data HomeProvision.Text

/-- Whether an error means that there is no file. -/
def Errno.meansAbsent : Errno → Bool
  | .noEntry | .notDirectory | .badDescriptor | .tooManyLinks => true
  | _ => false

/-- Whether a failed look at a path means that there is no file. A path that cannot name a file
names none. -/
def Fault.meansAbsent : Fault → Bool
  | .system e => e.code?.any Errno.meansAbsent
  | f => f.isBadInput

/-- Why a file could not be read: the error of the system, if it has a number. -/
def unreadableReason (e : SystemError) : String :=
  if e.message.startsWith "[Errno " then e.message else DocumentError.malformed.message

/-- The settings under the settings key of a document, if there are any: a truth value, a directive
or a mapping. A document that is empty or false holds none. -/
def Settings.ofDocument (path : String) (d : Yaml.Document) :
    Except SettingsError (Option Settings) :=
  match d.view d.root with
  | .scalar v => if v.truthy then .error (.notMapping path) else .ok none
  | .items empty => if empty then .ok none else .error (.notMapping path)
  | .mapping entries =>
      match Value.lookup? (.text settingsKey) entries with
      | none => .ok none
      | some place =>
          match d.view place with
          | .scalar .null => .ok none
          | .scalar (.bool enabled) => .ok (some { enabled })
          | .scalar (.text line) => (Settings.ofDirective line).map some
          | .scalar (.illFormed line) => (Settings.ofPoints line).map some
          | .scalar v => .error (.unsupported v.shown)
          | .items _ => .error (.unsupported (d.value place).shown)
          | .mapping entries =>
              (Settings.ofMapping (entries.map fun entry => (entry.1, d.value entry.2))).map some

/-- The settings in the content of a file. A file without a document holds none. -/
def Settings.ofContent (path : String) (content : List UInt8) :
    Except SettingsError (Option Settings) := do
  let text ← (readText content).mapError .encoding
  match Yaml.Document.ofText text with
  | .error .malformed => throw (.malformed path)
  | .error e => throw (.document e)
  | .ok none => return none
  | .ok (some d) => Settings.ofDocument path d

namespace Program

/-- The result of a computation on settings. -/
def ofSettings {α : Type} (r : Except SettingsError α) : Program α :=
  ofExcept (r.mapError .settings)

/-- Whether there is a file at a path. -/
def fileExists (path : String) : Program Bool := do
  match ← outcome (stat path) with
  | .ok _ => return true
  | .error f => if f.meansAbsent then return false else raise f

/-- The content of a configuration file. -/
def readConfiguration (path : String) : Program (List UInt8) := do
  match ← attempt (readFile path) with
  | .ok content => return content
  | .error e => ofSettings (.error (.unreadable path (unreadableReason e)))

/-- The settings in a configuration file, if there are any. -/
def loadSettings (path : String) : Program (Option Settings) := do
  let path := Path.plain path
  if ← fileExists path then
    ofSettings (Settings.ofContent path (← readConfiguration path))
  else
    log .debug "No config file" [("path", .text path)]
    return none

end Program

end HomeProvision
