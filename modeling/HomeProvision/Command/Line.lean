import HomeProvision.Command.Option
import HomeProvision.Provision.Path
import HomeProvision.Settings.Directive

/-!
# The command line

A command line gives one path and options. Arguments are taken from left to right and the first one
that is wrong ends the reading, except that arguments without a use are named at the very end, after
the check that nothing required is missing. A request for help ends the reading at once.
-/

namespace HomeProvision.Command

open HomeProvision.Text

/-- What an option gives. -/
inductive Given (α : Type) where
  | absent
  /-- The mark that ends the options, joined to an option as its value, leaves nothing there. -/
  | blank
  | value (a : α)
  deriving Repr, DecidableEq

namespace Given

variable {α : Type}

/-- Whether an option is missing. -/
def isAbsent : Given α → Bool
  | absent => true
  | _ => false

/-- The value that is given, if there is one. -/
def value? : Given α → Option α
  | value a => some a
  | _ => none

/-- What is given, or a value where nothing is. -/
def orValue (g : Given α) (default : α) : Given α :=
  match g with
  | absent => value default
  | g => g

end Given

/-- What the options give. -/
structure Options where
  user : Given String := .absent
  uid : Given Int := .absent
  gid : Given Int := .absent
  /-- The path of the configuration file in plain spelling. -/
  configuration : Given String := .absent
  enable : Bool := false
  skeleton : Given String := .absent
  mode : Given Int := .absent
  intermediateMode : Given Int := .absent
  deriving Repr, DecidableEq

/-- What a command line asks for. -/
inductive Line where
  | help
  | run (path : String) (options : Options)
  deriving Repr, DecidableEq

/-- What is wrong with a command line. -/
inductive LineError where
  | ambiguous (a : Ambiguous)
  | noValue (option : OptionName)
  | unwantedValue (option : OptionName) (text : String)
  /-- A value that is no value of its kind. -/
  | badValue (option : OptionName) (kind text : String)
  | missing (names : List String)
  | unrecognized (texts : List String)
  deriving Repr, DecidableEq

/-- The wording of an error. -/
def LineError.message : LineError → String
  | ambiguous a =>
      "ambiguous option: " ++ a.text ++ " could match " ++ ", ".intercalate a.options
  | noValue option => "argument " ++ option.text ++ ": expected one argument"
  | unwantedValue option text =>
      "argument " ++ option.text ++ ": ignored explicit argument " ++ quoted text
  | badValue option kind text =>
      "argument " ++ option.text ++ ": invalid " ++ kind ++ " value: " ++ quoted text
  | missing names => "the following arguments are required: " ++ ", ".intercalate names
  | unrecognized texts => "unrecognized arguments: " ++ " ".intercalate texts

/-- What has been taken from a command line so far. -/
structure Taken where
  path : Option String := none
  options : Options := {}
  /-- The arguments without a use, in order. -/
  extras : List String := []
  deriving Repr, DecidableEq

namespace Taken

/-- Keeps an argument that has no use. -/
def addExtra (t : Taken) (text : String) : Taken :=
  { t with extras := t.extras ++ [text] }

/-- The value of an option that is read as an integer in base ten. -/
def readId (option : OptionName) (text : String) : Except LineError Int :=
  match Number.decimal? text with
  | some n => .ok n
  | none => .error (.badValue option "int" text)

/-- The value of an option that is read as a mode. -/
def readMode (option : OptionName) (text : String) : Except LineError Int :=
  (Directive.readOctal (.ofText text)).mapError fun _ => .badValue option "parse_mode" text

/-- What a text gives, read in some way unless it is the mark that ends the options. -/
def giving {α : Type} (read : String → Except LineError α) (text : String) :
    Except LineError (Given α) :=
  if text = endMark then .ok .blank else (read text).map .value

/-- Sets an option to what a text gives. -/
def set (t : Taken) (option : OptionName) (text : String) : Except LineError Taken :=
  let o := t.options
  let store (options : Options) : Taken := { t with options }
  match option with
  | .help | .enable => .error (.unwantedValue option text)
  | .user => (giving .ok text).map fun g => store { o with user := g }
  | .skeleton => (giving .ok text).map fun g => store { o with skeleton := g }
  | .configuration =>
      (giving (fun s => .ok (Path.plain s)) text).map fun g => store { o with configuration := g }
  | .uid => (giving (readId option) text).map fun g => store { o with uid := g }
  | .gid => (giving (readId option) text).map fun g => store { o with gid := g }
  | .mode => (giving (readMode option) text).map fun g => store { o with mode := g }
  | .intermediateMode =>
      (giving (readMode option) text).map fun g => store { o with intermediateMode := g }

/-- Switches an option on that takes no value. -/
def switch (t : Taken) : Taken :=
  { t with options := { t.options with enable := true } }

end Taken

/-- Reads what follows a short request for help. Further requests are passed over, and anything
else is refused. -/
def checkTail (text : String) : Except LineError Unit :=
  match text.toList.dropWhile (· = 'h') with
  | [] => .ok ()
  | rest => .error (.unwantedValue .help (String.ofList rest))

/-- Takes arguments from left to right; the result is none if help is asked for. -/
def take (t : Taken) : List Item → Except LineError (Option Taken)
  | [] => .ok (some t)
  | .word text :: .mark :: rest =>
      if t.path.isNone then take { t with path := some text } rest
      else take ((t.addExtra text).addExtra endMark) rest
  | .mark :: .word text :: rest =>
      if t.path.isNone then take { t with path := some text } rest
      else take ((t.addExtra endMark).addExtra text) rest
  | .word text :: rest =>
      if t.path.isNone then take { t with path := some text } rest
      else take (t.addExtra text) rest
  | .mark :: rest => take (t.addExtra endMark) rest
  | .stray text :: rest => take (t.addExtra text) rest
  | .option .help joined :: _ =>
      match joined with
      | .nothing => .ok none
      | .value text => .error (.unwantedValue .help text)
      | .tail text => (checkTail text).map fun _ => none
  | .option .enable .nothing :: rest => take t.switch rest
  | .option name (.value text) :: rest => t.set name text >>= fun t => take t rest
  | .option name .nothing :: .word text :: rest => t.set name text >>= fun t => take t rest
  | .option name _ :: _ => .error (.noValue name)

/-- The names of what is required and missing. -/
def Taken.missing (t : Taken) : List String :=
  (if t.path.isNone then ["path"] else []) ++
    (if t.options.user.isAbsent then [OptionName.user.text] else [])

/-- The command line that has been taken, if it is complete and nothing is left over. -/
def Taken.finish (t : Taken) : Except LineError Line :=
  match t.path, t.missing, t.extras with
  | some path, [], [] => .ok (.run path t.options)
  | some _, [], extras => .error (.unrecognized extras)
  | _, missing, _ => .error (.missing missing)

/-- The command line that the arguments form. -/
def Line.ofArguments (arguments : List String) : Except LineError Line := do
  let items ← (classifyAll arguments).mapError .ambiguous
  match ← take {} items with
  | none => return .help
  | some taken => taken.finish

end HomeProvision.Command
