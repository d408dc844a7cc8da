import HomeProvision.System.Fault
import HomeProvision.Text.CaseFold

/-!
# Log events

What the program reports while it runs: a level, an event and details by name, in order.
-/

namespace HomeProvision

/-- The levels of events, from the least to the most serious. -/
inductive Level where
  | debug
  | info
  | warning
  | error
  | critical
  deriving Repr, DecidableEq

namespace Level

/-- The weight of a level. -/
def weight : Level → Nat
  | debug => 10
  | info => 20
  | warning => 30
  | error => 40
  | critical => 50

/-- The name of a level. -/
def name : Level → String
  | debug => "debug"
  | info => "info"
  | warning => "warning"
  | error => "error"
  | critical => "critical"

/-- Every level, from the least serious on. -/
def all : List Level := [debug, info, warning, error, critical]

end Level

/-- A detail of an event. -/
inductive Detail where
  | text (s : String)
  | int (n : Int)
  deriving Repr, DecidableEq

/-- An event. -/
structure LogEvent where
  level : Level
  event : String
  details : List (String × Detail)
  deriving Repr, DecidableEq

namespace LogFilter

/-- Why a word chooses no level. -/
inductive FilterError where
  /-- A word that names a text instead of a level. -/
  | notLevel (text : String)
  /-- A word that names a table instead of a level. -/
  | notHashable
  deriving Repr, DecidableEq

/-- The wording of an error. -/
def FilterError.message : FilterError → String
  | .notLevel text => Text.quoted text
  | .notHashable => "unhashable type: 'dict'"

/-- The least weight that is let through, by the word that the user chooses it with. The word is
read in any case; a word that names no level, or none at all, chooses `info`. -/
def threshold (word : Option String) : Except FilterError Nat :=
  match Text.upperCase (word.getD "INFO") with
  | "DEBUG" => .ok 10
  | "WARN" | "WARNING" => .ok 30
  | "ERROR" => .ok 40
  | "CRITICAL" | "FATAL" => .ok 50
  | "NOTSET" => .ok 0
  | "BASIC_FORMAT" => .error (.notLevel "%(levelname)s:%(name)s:%(message)s")
  | "_STYLES" => .error .notHashable
  | _ => .ok 20

/-- The levels that are let through. -/
def levels (word : Option String) : Except FilterError (List Level) :=
  (threshold word).map fun least => Level.all.filter fun l => least ≤ l.weight

end LogFilter

/-- What becomes of a fault that nothing caught. -/
inductive UncaughtAction where
  /-- It is left to the system's own report. -/
  | default
  /-- It is logged. -/
  | logged (level : Level) (event : String)
  deriving Repr, DecidableEq

/-- An interruption by the user is left alone, and every other fault is logged. -/
def uncaughtAction (kind : ThrownKind) : UncaughtAction :=
  match kind with
  | .interrupt => .default
  | _ => .logged .critical "Uncaught exception"

end HomeProvision
