import HomeProvision.Settings.Error
import HomeProvision.System.Errno

/-!
# Faults

Everything that can end a program early: an error of the system, an argument that is refused before
the system looks at it, settings that are refused, and whatever a caller's hook raises.
-/

namespace HomeProvision

/-- A number beyond the range of a machine type. -/
inductive RangeFault where
  | negativeUnsigned
  | beyondUnsigned
  | mode
  | beyondInt
  | idTooLarge (group : Bool)
  | idTooSmall (group : Bool)
  deriving Repr, DecidableEq

/-- The word for an owner's number. -/
def idWord (group : Bool) : String :=
  if group then "gid" else "uid"

/-- The wording of a fault. -/
def RangeFault.message : RangeFault → String
  | .negativeUnsigned => "can't convert negative value to unsigned int"
  | .beyondUnsigned => "Python int too large to convert to C unsigned long"
  | .mode => "mode out of range"
  | .beyondInt => "Python int too large to convert to C int"
  | .idTooLarge group => idWord group ++ " is greater than maximum"
  | .idTooSmall group => idWord group ++ " is less than minimum"

/-- The kinds of faults that come from outside, apart from errors of the system. -/
inductive ThrownKind where
  | runtime
  | value
  | key
  /-- The user's interruption. -/
  | interrupt
  /-- Any other kind, by its name. -/
  | other (name : String)
  deriving Repr, DecidableEq

/-- Where a blank value cannot stand for a text. -/
inductive BlankPlace where
  /-- The name of a user that is looked up. -/
  | userName
  /-- The path of a file that is looked for. -/
  | filePath
  deriving Repr, DecidableEq

/-- The wording of a fault. -/
def BlankPlace.message : BlankPlace → String
  | .userName => "unhashable type: 'list'"
  | .filePath => "'list' object has no attribute 'exists'"

/-- What ends a program early. -/
inductive Fault where
  | system (e : SystemError)
  | embeddedNul
  | range (e : RangeFault)
  | settings (e : SettingsError)
  | invalid (e : Invalid)
  | blank (place : BlankPlace)
  | thrown (kind : ThrownKind) (text : String)
  /-- The walk went deeper, or a file was longer, than the limits allow. -/
  | limit
  deriving Repr, DecidableEq

namespace Fault

/-- The wording of a fault. A missing key is shown in quotes. -/
def message : Fault → String
  | system e => e.message
  | embeddedNul => "embedded null byte"
  | range e => e.message
  | settings e => e.message
  | invalid e => e.message
  | blank place => place.message
  | thrown .key text => Text.quoted text
  | thrown _ text => text
  | limit => "limit exceeded"

/-- Whether a fault is bad input, which the command reports instead of failing. -/
def isBadInput : Fault → Bool
  | embeddedNul | invalid _ | thrown .value _ => true
  | settings e => e.isBadInput
  | _ => false

end Fault

end HomeProvision
