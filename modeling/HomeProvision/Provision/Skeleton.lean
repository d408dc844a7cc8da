import HomeProvision.Provision.Directory
import HomeProvision.Provision.Entry
import HomeProvision.Provision.Path

/-!
# Copying a skeleton

The content of a skeleton directory is copied into an existing directory and given to one user.
Nothing that is there already is replaced, links that point into the skeleton are moved along, and
what is neither a directory nor a file nor a link is left out. Whatever goes wrong with one entry is
noted in the report, and the walk goes on.

A directory is entered once only, and the destination is never entered as a part of the skeleton.
The walk is limited in depth, as the interpreter limits recursion, and in the number of pieces of a
file, so that it ends in any world.
-/

namespace HomeProvision

/-- How far a walk goes before it is given up. -/
structure Limits where
  /-- The depth of directories. This stands for the recursion limit of the interpreter: the walk calls
  itself for every sub-directory, and one that goes too deep ends with a recursion error, which is the
  fault `limit` here. How deep is too deep depends on the interpreter and on the calls around the walk,
  and it can be far less than the default, which stops no walk at all: a path is shorter than 4096
  bytes, so no tree is deeper. -/
  depth : Nat := 4096
  /-- The number of pieces that a file is read in. A file has fewer than 2 ^ 63 bytes. -/
  pieces : Nat := 0x8000000000000000
  deriving Repr, DecidableEq

/-- How many bytes are read at a time unless the caller says otherwise. -/
def defaultChunkSize : Int := 1024

/-- Who copies are given to, and how they are made. -/
structure Cloner where
  uid : Int
  gid : Int
  chunkSize : Int := defaultChunkSize
  limits : Limits := {}
  deriving Repr, DecidableEq

/-- A cloner for an owner. A chunk size of zero is the same as none. -/
def Cloner.make (uid gid : Int) (chunkSize : Option Int) (limits : Limits := {}) : Cloner where
  uid := uid
  gid := gid
  chunkSize :=
    match chunkSize with
    | none | some 0 => defaultChunkSize
    | some n => n
  limits := limits

/-- One walk: who makes it, where it starts and which directory it fills. -/
structure Walk where
  cloner : Cloner
  sourceTop : String
  destTop : String
  /-- The identity of the directory that is filled, if it is known. -/
  destRoot : Option Identity

namespace Program

/-! ## Files -/

/-- Closes a descriptor. An error is noted and otherwise ignored. -/
def closeQuietly (descriptor : Int) (event path : String) : Program Unit := do
  match ← attempt (close descriptor) with
  | .ok _ => pure ()
  | .error e => log .warning event (errorOnPath path e)

/-- Copies piece by piece until the source is at its end or a piece is not taken whole; then the
result is how much of it was taken and how much there was. The hook gets control after each
piece. -/
def copyPieces (source dest chunkSize : Int) : (pieces : Nat) → Program (Option (Int × Nat))
  | 0 => raise .limit
  | pieces + 1 => do
      let chunk ← read source chunkSize
      if chunk.isEmpty then return none
      let written ← write dest chunk
      if written ≠ chunk.length then return some (written, chunk.length)
      pause
      copyPieces source dest chunkSize pieces

/-- Copies the content of one open file to another. -/
def stream (c : Cloner) (source dest : Int) (path : String) : Program StepResult := do
  let copying : Program StepResult := do
    match ← copyPieces source dest c.chunkSize c.limits.pieces with
    | none => return .ok (some path)
    | some (written, expected) =>
        log .warning "Short write to destination file"
          [("path", .text path), ("expected", .int expected), ("written", .int written)]
        return .failure .copy path
          ("short write: " ++ toString written ++ " of " ++ toString expected ++ " bytes")
  match ← attempt copying with
  | .ok result => return result
  | .error e =>
      log .warning "Error writing destination file" (errorOnPath path e)
      return .failure .copy path e.message

/-- The result of a step after a further one: the first failure counts. -/
def firstFailure (result : StepResult) (kind : FailureKind) (path : String) (e : SystemError) :
    StepResult :=
  if result.success then .failure kind path e.message else result

/-- Gives a new file to its owner. -/
def finishOwner (c : Cloner) (path : String) (result : StepResult) : Program StepResult := do
  match ← attempt (chown path c.uid c.gid) with
  | .ok _ => return result
  | .error e =>
      log .warning "Error changing file ownership" (ownerDetails path c.uid c.gid e)
      return firstFailure result .chown path e

/-- Gives a new file its mode. -/
def finishMode (path : String) (mode : Int) (result : StepResult) : Program StepResult := do
  match ← attempt (chmod path mode) with
  | .ok _ => return result
  | .error e =>
      log .warning "Error changing file mode"
        [("path", .text path), ("mode", .text (Number.paddedOctal mode)),
          ("error", .text e.message)]
      return firstFailure result .chmod path e

/-- Fills a file that was just created, then sets its owner and mode whatever became of it. -/
def fillFile (c : Cloner) (source dest : Int) (path : String) (mode : Int) :
    Program StepResult := do
  match ← attempt (truncate path 0) with
  | .ok _ => pure ()
  | .error e => log .debug "Unable to truncate destination file" (errorOnPath path e)
  ensuring
    (do
      let result ← stream c source dest path
      let result ← finishOwner c path result
      finishMode path mode result)
    (closeQuietly dest "Error closing destination file" path)

/-- Copies a file to a path where nothing is yet. -/
def copyFile (c : Cloner) (source path : String) (mode : Int) : Program StepResult := do
  match ← attempt (openRead source) with
  | .error e =>
      log .debug "Unable to open skeleton file" (errorOnPath source e)
      return .failure .openFile source e.message
  | .ok reading =>
      ensuring
        (do
          match ← attempt (openExclusive path) with
          | .error e =>
              log .debug "Unable to create destination file" (errorOnPath path e)
              return .failure .openFile path e.message
          | .ok writing => fillFile c reading writing path mode)
        (closeQuietly reading "Error closing skeleton file" source)

/-! ## Links -/

/-- Creates the copy of a link whose target is known. -/
def placeLink (c : Cloner) (target path : String) : Program StepResult := do
  match ← attempt (symlink target path) with
  | .error e =>
      log .warning "Error creating link"
        [("target", .text target), ("path", .text path), ("error", .text e.message)]
      return .failure .symlink path e.message
  | .ok _ =>
      match ← attempt (lchown path c.uid c.gid) with
      | .ok _ => return .ok (some path)
      | .error e =>
          log .warning "Error changing link ownership" (ownerDetails path c.uid c.gid e)
          return .ok (some path)

/-- Copies a link; a target in the source directory is moved to the destination. -/
def copySymlink (c : Cloner) (sourceTop source destTop path : String)
    (target : Option String) : Program StepResult := do
  let target : Except SystemError String ←
    match target with
    | some target => pure (.ok target)
    | none => attempt (readlink source)
  match target with
  | .error e =>
      log .warning "Error reading link" (errorOnPath source e)
      return .failure .symlink source e.message
  | .ok target => placeLink c (Path.remap target sourceTop destTop) path

/-! ## Directories -/

/-- Whether something other than a directory is at a path. A link counts as such, since it must not
be followed out of the home. -/
def isPlantedNonDirectory (path : String) : Program Bool := do
  match ← attempt (lstat path) with
  | .error _ => return false
  | .ok status =>
      let mode ← ofRange (machineMode status.mode)
      if EntryType.ofBits mode = .directory then return false
      log .warning "Destination exists and is not a directory, skipping" (onPath path)
      return true

/-- The report of a walk so far, and the directories that it has entered. -/
abbrev WalkState := CloneReport × List Identity

/-- Copies one directory with the content that `descend` copies. -/
def cloneSubdirectory (w : Walk) (descend : String → String → List Identity → Program WalkState)
    (entry : Entry) (dest : String) (state : WalkState) : Program WalkState := do
  let (report, entered) := state
  if entered.contains entry.identity || w.destRoot = some entry.identity then
    log .warning "Skipping skeleton directory already being copied" (onPath entry.path)
    return (report.addSkipped entry.path, entered)
  if ← isPlantedNonDirectory dest then
    return (report.addFailure
      (.failure .create dest "destination exists and is not a directory"), entered)
  let created ← ensureDirectory dest w.cloner.uid w.cloner.gid (withoutSetId entry.mode)
  if !created.success then return (report.addFailure created, entered)
  let (inner, entered) ← descend entry.path dest entered
  return ((report.addCopied dest).absorb inner, entered)

/-- Copies one entry, whatever it is. -/
def cloneEntry (w : Walk) (descend : String → String → List Identity → Program WalkState)
    (name source dest : String) (state : WalkState) : Program WalkState := do
  let (report, entered) := state
  match ← attempt (describeEntry name source) with
  | .error e =>
      log .debug "Unable to stat skeleton entry, skipping" (errorOnPath source e)
      return (report.addFailure (.failure .stat source e.message), entered)
  | .ok entry =>
      match entry.type with
      | .directory => cloneSubdirectory w descend entry dest state
      | .regularFile =>
          let result ← copyFile w.cloner source dest (withoutSetId entry.mode)
          return (report.record result dest, entered)
      | .symlink =>
          let result ← copySymlink w.cloner w.sourceTop source w.destTop dest entry.linkTarget
          return (report.record result dest, entered)
      | .other =>
          log .debug "Skipping skeleton entry"
            [("path", .text source), ("type", .text entry.type.name)]
          return (report.addSkipped source, entered)

/-- Copies the entries with the given names. The hook gets control before each of them. -/
def cloneNames (w : Walk) (descend : String → String → List Identity → Program WalkState)
    (source dest : String) : List String → WalkState → Program WalkState
  | [], state => return state
  | name :: rest, state => do
      pause
      if name = "." || name = ".." then cloneNames w descend source dest rest state
      else
        let state ← cloneEntry w descend name (Path.join source name) (Path.join dest name) state
        cloneNames w descend source dest rest state

/-- Copies the content of a directory. -/
def cloneDirectory (w : Walk) :
    (depth : Nat) → (source dest : String) → List Identity → Program WalkState
  | 0, _, _, _ => raise .limit
  | depth + 1, source, dest, entered => do
      let opening : Program (Status × List String) := do
        let status ← stat source
        return (status, ← list source)
      match ← attempt opening with
      | .error e =>
          log .warning "Error copying skeleton files" (errorOnPath source e)
          return ({ outcome := .failure .openFile source e.message }, entered)
      | .ok (status, names) =>
          cloneNames w (cloneDirectory w depth) source dest names
            ({ outcome := .ok (some source) }, status.identity :: entered)

/-- Copies the content of a skeleton into an existing directory. -/
def clone (c : Cloner) (source dest : String) : Program CloneReport := do
  let destRoot ←
    match ← attempt (stat dest) with
    | .ok status => pure (some status.identity)
    | .error _ => pure none
  let walk : Walk := { cloner := c, sourceTop := source, destTop := dest, destRoot }
  let (report, _) ← cloneDirectory walk c.limits.depth source dest []
  return report

/-- Copies the content of a skeleton into an existing directory for an owner. -/
def cloneTree (source dest : String) (uid gid : Int) (chunkSize : Option Int)
    (limits : Limits := {}) : Program CloneReport :=
  clone (Cloner.make uid gid chunkSize limits) source dest

end Program

/-! ## Cloners in use -/

/-- A cloner with what its last walk has left in it: the walk, and the directories that it has
entered. -/
structure KeptCloner extends Walk where
  entered : List Identity

open Program in
/-- Copies the content of a skeleton with a cloner that may have been used before. What is left in
it is cleared first. -/
def KeptCloner.clone (k : KeptCloner) (source dest : String) : Program CloneReport := do
  let k : KeptCloner :=
    { k with sourceTop := source, destTop := dest, destRoot := none, entered := [] }
  let k : KeptCloner ←
    match ← attempt (stat dest) with
    | .ok status => pure { k with destRoot := some status.identity }
    | .error _ => pure k
  let (report, _) ← cloneDirectory k.toWalk k.cloner.limits.depth source dest k.entered
  return report

end HomeProvision
