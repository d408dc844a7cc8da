import HomeProvision.Number.Octal
import HomeProvision.Provision.Report
import HomeProvision.System.Program

/-!
# One directory

A directory is created with an exact mode and owner unless it is there already, and then it is left
as it is. Only a failed look at the path and a failed creation are failures; a directory whose owner
cannot be set stays.
-/

namespace HomeProvision

/-- The details of an event about a path. -/
def onPath (path : String) : List (String × Detail) :=
  [("path", .text path)]

/-- The details of an event about an error on a path. -/
def errorOnPath (path : String) (e : SystemError) : List (String × Detail) :=
  [("path", .text path), ("error", .text e.message)]

/-- The details of an event about an owner that could not be set. -/
def ownerDetails (path : String) (uid gid : Int) (e : SystemError) : List (String × Detail) :=
  [("path", .text path), ("uid", .int uid), ("gid", .int gid), ("error", .text e.message)]

namespace Program

/-- Runs a program while no bit of a mode is masked, and puts the mask back afterwards. -/
def withClearMask {α : Type} (body : Program α) : Program α := do
  let mask ← umask 0
  ensuring body do
    let _ ← umask mask

/-- Creates a directory that another process may have created in the meantime. The result says how
to go on: `none` if it was created here. -/
def createDirectory (path : String) (mode : Int) : Program (Option StepResult) := do
  match ← attempt (mkdir path mode) with
  | .ok _ => return none
  | .error e =>
      if e.code? = some .alreadyExists then
        log .debug "Directory created concurrently" (onPath path)
        return some (.ok (some path))
      else
        log .warning "Error creating directory" (errorOnPath path e)
        return some (.failure .create path e.message)

/-- Creates a missing directory and sets its owner. -/
def makeDirectory (path : String) (uid gid mode : Int) : Program StepResult := do
  match ← withClearMask (createDirectory path mode) with
  | some result => return result
  | none =>
      match ← attempt (chown path uid gid) with
      | .ok _ => pure ()
      | .error e =>
          log .warning "Error setting directory ownership" (ownerDetails path uid gid e)
      log .debug "Directory created"
        [("path", .text path), ("mode", .text (Number.paddedOctal mode))]
      return .ok (some path)

/-- Makes sure that a directory is there. -/
def ensureDirectory (path : String) (uid gid mode : Int) : Program StepResult := do
  match ← attempt (stat path) with
  | .ok _ =>
      log .debug "Directory already exists" (onPath path)
      return .ok (some path)
  | .error e =>
      if e.code? = some .noEntry then makeDirectory path uid gid mode
      else
        log .warning "Error checking directory" (errorOnPath path e)
        return .failure .stat path e.message

end Program

end HomeProvision
