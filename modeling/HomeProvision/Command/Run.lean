import HomeProvision.Command.Help
import HomeProvision.Command.Line
import HomeProvision.Command.Report
import HomeProvision.Provision.Home
import HomeProvision.Settings.Environment
import HomeProvision.Settings.File

/-!
# The command

The command takes settings from the configuration file and lets options override single fields. The
owner's numbers come from options or else from the list of users. Wrong arguments, refused settings
and unknown users end the command with exit code 2 before anything is created; otherwise it prints a
report, and its exit code says whether the home is there.
-/

namespace HomeProvision.Command

/-- What the command leaves behind. -/
structure CommandResult where
  exitCode : Nat
  output : String := ""
  /-- What is printed about wrong arguments. -/
  complaint : String := ""
  deriving Repr, DecidableEq

/-- The exit code for wrong arguments, settings and users. -/
def refusedCode : Nat := 2

/-! ## Settings -/

/-- The skeleton that is asked for. The empty path is none. -/
def Options.skeleton? (o : Options) : Option String :=
  o.skeleton.value?.filter (· ≠ "")

/-- Whether options override any field of the settings. -/
def Options.overrides (o : Options) : Bool :=
  o.enable || o.skeleton?.isSome || !o.mode.isAbsent || !o.intermediateMode.isAbsent

/-- A mode with an option over it. A blank is no number. -/
def Given.overMode (g : Given Int) (m : Mode) : Except FieldProblem Mode :=
  match g with
  | .absent => .ok m
  | .blank => .error .notInt
  | .value n => checkMode n

/-- Settings with the options over them, each on its own field. -/
def Options.override (o : Options) (s : Settings) : Except Invalid Settings :=
  Settings.checked (s.enabled || o.enable) (o.mode.overMode s.finalMode)
    (o.intermediateMode.overMode s.intermediateMode) (o.skeleton?.or s.skeleton)

/-- The settings that options make of those in the configuration file. Without a file's settings
there are none, unless an option asks for some. -/
def Options.resolve (o : Options) (loaded : Option Settings) : Except Invalid (Option Settings) :=
  match loaded with
  | some s => (o.override s).map some
  | none => if o.overrides then (o.override {}).map some else .ok none

/-- The settings for a run. -/
def resolveSettings (o : Options) (configuration : String) : Program (Option Settings) := do
  let loaded ← Program.loadSettings configuration
  Program.ofExcept ((o.resolve loaded).mapError .invalid)

/-- The path of the configuration file, which must not be blank. -/
def Options.configurationPath (o : Options) (constants : Constants) : Except Fault String :=
  match o.configuration with
  | .absent => .ok constants.configuration
  | .blank => .error (.blank .filePath)
  | .value path => .ok path

/-! ## Owner -/

/-- The name of the user, which must not be blank. -/
def Options.userName (o : Options) : Except Fault String :=
  match o.user with
  | .value user => .ok user
  | _ => .error (.blank .userName)

/-- The user in messages. -/
def Options.userLabel (o : Options) : String :=
  o.user.value?.getD "[]"

/-- The owner of the home: options first, and the user's numbers where they are missing. -/
def resolveOwner (o : Options) : Program (Option (Given Int × Given Int)) :=
  if !o.uid.isAbsent && !o.gid.isAbsent then return some (o.uid, o.gid)
  else do
    let known ← Program.ask (.lookupUser (← Program.ofExcept o.userName))
    return known.map fun ids => (o.uid.orValue ids.1, o.gid.orValue ids.2)

/-- An owner's number that is given. A blank is no number. -/
def Given.owner (g : Given Int) : Except FieldProblem Nat :=
  match g with
  | .absent => .error .missing
  | .blank => .error .notInt
  | .value n => checkOwner n

/-! ## The run -/

/-- The end of a run that is refused, with the event that says why. -/
def refuse (event : String) (details : List (String × Detail)) : Program CommandResult := do
  Program.log .error event details
  return { exitCode := refusedCode }

/-- Creates the home that options ask for, once there are settings. -/
def runWith (constants : Constants) (path : String) (o : Options) (settings : Option Settings) :
    Program CommandResult := do
  match ← resolveOwner o with
  | none => refuse "Unknown user" [("user", .text o.userLabel)]
  | some (uid, gid) =>
      let result ←
        Program.provisionIfEnabled settings path o.userLabel
          (·.requestFor path uid.owner gid.owner) .automatic constants.chunkSize
      return {
        exitCode := if result.success then 0 else 1
        output := result.json.page ++ "\n" }

/-- Creates the home that a command line asks for. -/
def runOptions (constants : Constants) (path : String) (o : Options) : Program CommandResult := do
  let configuration ← Program.ofExcept (o.configurationPath constants)
  match ← Program.outcome (resolveSettings o configuration) with
  | .ok settings => runWith constants path o settings
  | .error f =>
      if f.isBadInput then
        refuse "Invalid configuration"
          [("path", .text configuration), ("error", .text f.message)]
      else .raise f

/-- Runs the command with its arguments. -/
def run (constants : Constants) (arguments : List String) : Program CommandResult :=
  match Line.ofArguments arguments with
  | .ok (.run path options) => runOptions constants path options
  | .ok .help => return { exitCode := 0, output := help constants.configuration }
  | .error e => return { exitCode := refusedCode, complaint := complaint e.message }

end HomeProvision.Command
