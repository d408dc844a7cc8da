import HomeProvision.Command.Run

/-!
# The program

Runs the command on this system. The runtime reads files and creates directories. It has no calls
for owners, links, identities and the content of directories: those are refused, like calls that
the system does not permit. A path counts as there if it can be opened.
-/

namespace HomeProvision.Console

open HomeProvision.Text

/-- The error of the system that a failure of the runtime stands for. -/
def errnoOf : IO.Error → Errno
  | .noFileOrDirectory _ _ _ => .noEntry
  | .alreadyExists _ _ _ => .alreadyExists
  | .permissionDenied _ _ _ => .accessDenied
  | .inappropriateType _ code _ =>
      if code.toNat = Errno.notDirectory.number then .notDirectory else .isDirectory
  | .invalidArgument _ _ _ => .invalidArgument
  | .resourceExhausted _ _ _ => .noSpace
  | _ => .inputOutput

/-- Does something about a path; a failure is an error of the system. -/
def onFile {α : Type} (path : String) (action : IO α) : IO (Except Fault α) := do
  try return .ok (← action)
  catch e => return .error (.system (.numbered (errnoOf e) (.one path)))

/-- The refusal of a call that the runtime does not have. -/
def notPermitted {α : Type} : IO (Except Fault α) :=
  return .error (.system (.numbered .notPermitted .none))

/-- The rights in three bits of a mode. -/
def accessRight (bits : Nat) : IO.AccessRight where
  read := bits &&& 4 ≠ 0
  write := bits &&& 2 ≠ 0
  execution := bits &&& 1 ≠ 0

/-- The rights in a mode. -/
def fileRight (mode : Int) : IO.FileRight :=
  let bits := (mode % (0o1000 : Int)).toNat
  { user := accessRight (bits / 64), group := accessRight (bits / 8), other := accessRight bits }

/-- What is known of a node that can be opened. -/
def openedStatus : Status where
  mode := 0
  size := 0
  device := 0
  inode := 0

/-- The content of a file as text, or none if it cannot be read. -/
def readLines (path : String) : IO (List String) := do
  try
    match decodeUtf8 (← IO.FS.readBinFile path).toList with
    | .ok cs => return (splitLines cs).map String.ofList
    | .error _ => return []
  catch _ => return []

/-- The numbers of a user in a line of the list of users. -/
def userIn? (name line : String) : Option (Int × Int) :=
  match line.splitOn ":" with
  | user :: _ :: uid :: gid :: _ =>
      if user = name then
        match Number.decimal? uid, Number.decimal? gid with
        | some uid, some gid => some (uid, gid)
        | _, _ => none
      else none
  | _ => none

/-- The identity that stands for nobody. -/
def nobody : Int := 65534

/-- A number of this process: the real one comes first and the effective one second. -/
def processId (label : String) (effective : Bool) : IO Int := do
  let lines ← readLines "/proc/self/status"
  let ids := lines.findSome? fun line =>
    match line.splitOn "\t" with
    | key :: real :: current :: _ =>
        if key = label then Number.decimal? (if effective then current else real) else none
    | _ => none
  return ids.getD nobody

/-- A detail as a line of the log shows it. -/
def detailText (d : String × Detail) : String :=
  d.1 ++ "=" ++
    match d.2 with
    | .text s => quoted s
    | .int n => toString n

/-- Prints an event, if its level is let through. -/
def report (threshold : Nat) (e : LogEvent) : IO Unit := do
  if threshold ≤ e.level.weight then
    IO.eprintln (" ".intercalate (e.level.name :: e.event :: e.details.map detailText))

/-- Makes a call. -/
def reply (threshold : Nat) (c : Call) : IO c.Reply :=
  match c with
  | .stat path => onFile path do
      let _ ← IO.FS.Handle.mk path .read
      return openedStatus
  | .mkdir path mode => onFile path do
      IO.FS.createDir path
      IO.setAccessRights path (fileRight mode)
  | .chmod path mode => onFile path (IO.setAccessRights path (fileRight mode))
  | .umask _ => return .ok 0
  | .readFile path => onFile path do return (← IO.FS.readBinFile path).toList
  | .lookupUser name => return (← readLines "/etc/passwd").findSome? (userIn? name)
  | .realUid => processId "Uid:" false
  | .effectiveUid => processId "Uid:" true
  | .effectiveGid => processId "Gid:" true
  | .elevate | .relinquish | .pause => return .ok ()
  | .log e => report threshold e
  | .lstat _ | .chown _ _ _ | .lchown _ _ _ | .openRead _ | .openExclusive _ _ | .read _ _
  | .write _ _ | .truncate _ _ | .close _ | .readlink _ | .symlink _ _ | .list _
  | .setEffectiveUid _ | .setEffectiveGid _ => notPermitted

/-- Runs a program with calls of this system. -/
def perform {α : Type} (threshold : Nat) : Program α → IO (Except Fault α)
  | .done a => return .ok a
  | .raise f => return .error f
  | .call c next => do perform threshold (next (← reply threshold c))

/-- The environment variables that the command knows, as far as they are set. -/
def assignedVariables : IO (List (String × String)) := do
  let keys := [Environment.configurationKey, Environment.chunkSizeKey]
  return (← keys.mapM fun key => return (← IO.getEnv key).map (key, ·)).filterMap id

/-- The command with its arguments in a directory. -/
def command (assigned : List (String × String)) (directory : String) (arguments : List String) :
    Program Command.CommandResult := do
  Command.run (← Program.readConstants assigned directory) arguments

end HomeProvision.Console

open HomeProvision in
/-- Runs the command, prints what it has to say and ends with its exit code. -/
def main (arguments : List String) : IO UInt32 := do
  match LogFilter.threshold (← IO.getEnv "LOG_LEVEL") with
  | .error e =>
      IO.eprintln e.message
      return 1
  | .ok threshold =>
      let assigned ← Console.assignedVariables
      let directory := toString (← IO.currentDir)
      match ← Console.perform threshold (Console.command assigned directory arguments) with
      | .ok result =>
          IO.print result.output
          IO.eprint result.complaint
          return result.exitCode.toUInt32
      | .error f =>
          Console.report threshold
            ⟨.critical, "Uncaught exception", [("error", .text f.message)]⟩
          return 1
