import HomeProvision.Provision.Directory
import HomeProvision.Provision.Path

/-!
# The way to a home

Every directory on the way to a home is made sure of, from the root on. Those above the home belong
to the administrator, and the home itself belongs to its user. A step that fails is noted and the
walk goes on: what counts is whether the path is there in the end.
-/

namespace HomeProvision.Program

/-- The owner of directories above a home. -/
def administrator : Int := 0

/-- Whether a path leads to something. -/
def exists? (path : String) : Program Bool := do
  match ← attempt (stat path) with
  | .ok _ => return true
  | .error _ => return false

/-- Notes a step that failed, and gives control to the hook. -/
def finishSegment (segment : String) (result : StepResult) : Program Unit := do
  if !result.success then
    log .warning "Could not create path segment"
      [("path", .text segment),
        ("error", .text ((result.error.map FailureKind.name).getD ""))]
  pause

/-- Makes sure of the directories on a way, the last one for the user. -/
def walkSegments (uid gid intermediateMode finalMode : Int) : List String → Program Unit
  | [] => return
  | [home] => do
      finishSegment home (← ensureDirectory home uid gid finalMode)
  | segment :: rest => do
      finishSegment segment
        (← ensureDirectory segment administrator administrator intermediateMode)
      walkSegments uid gid intermediateMode finalMode rest

/-- Makes sure that a home and every directory above it are there. -/
def ensurePath (path user : String) (uid gid intermediateMode finalMode : Int) :
    Program StepResult := do
  if ← exists? path then return .ok (some path)
  let about : List (String × Detail) := [("path", .text path), ("user", .text user)]
  log .debug "Creating home directory" about
  let segments := Path.ancestors path
  walkSegments uid gid intermediateMode finalMode segments
  let there ← if segments.isEmpty then pure false else exists? path
  if there then
    log .debug "Home directory created" about
    return .ok (some path)
  else return .failure .path path ("home directory for " ++ user ++ " was not created")

end HomeProvision.Program
