/-!
# Reports

Every step of the work says how it went, and a failed step is a value and no fault. The report on a
skeleton collects what was copied, what was left out and what failed, in the order of the walk.
-/

namespace HomeProvision

/-- What kind of step failed. -/
inductive FailureKind where
  | stat
  | create
  | chown
  | chmod
  | openFile
  | copy
  | symlink
  | path
  deriving Repr, DecidableEq

namespace FailureKind

/-- The name of a kind. -/
def name : FailureKind → String
  | stat => "stat"
  | create => "create"
  | chown => "chown"
  | chmod => "chmod"
  | openFile => "open"
  | copy => "copy"
  | symlink => "symlink"
  | path => "path"

/-- Every kind. -/
def all : List FailureKind := [stat, create, chown, chmod, openFile, copy, symlink, path]

/-- The kind with a name. -/
def ofName? (s : String) : Option FailureKind :=
  all.find? fun k => k.name = s

end FailureKind

/-- How a step went, and on which path. -/
inductive StepResult where
  | ok (path : Option String)
  | failed (kind : Option FailureKind) (path message : Option String)
  deriving Repr, DecidableEq

namespace StepResult

/-- Whether a step went well. -/
def success : StepResult → Bool
  | ok _ => true
  | failed _ _ _ => false

/-- The path of a step. -/
def path : StepResult → Option String
  | ok path => path
  | failed _ path _ => path

/-- What kind of step failed, if any. -/
def error : StepResult → Option FailureKind
  | ok _ => none
  | failed kind _ _ => kind

/-- Why the step failed, if it did. -/
def message : StepResult → Option String
  | ok _ => none
  | failed _ _ message => message

/-- A failure on a path. -/
def failure (kind : FailureKind) (path message : String) : StepResult :=
  failed (some kind) (some path) (some message)

end StepResult

/-- The report on copying a directory of a skeleton. -/
structure CloneReport where
  outcome : StepResult
  /-- The paths of copies. -/
  copied : List String := []
  /-- The paths of entries that were left out. -/
  skipped : List String := []
  failures : List StepResult := []
  deriving Repr, DecidableEq

namespace CloneReport

/-- Whether the directory itself could be read. -/
def success (r : CloneReport) : Bool :=
  r.outcome.success

/-- Adds a copy. -/
def addCopied (r : CloneReport) (path : String) : CloneReport :=
  { r with copied := r.copied ++ [path] }

/-- Adds an entry that was left out. -/
def addSkipped (r : CloneReport) (path : String) : CloneReport :=
  { r with skipped := r.skipped ++ [path] }

/-- Adds a failure. -/
def addFailure (r : CloneReport) (failure : StepResult) : CloneReport :=
  { r with failures := r.failures ++ [failure] }

/-- The failure that a report stands for when it is part of another: its own, if it has one. -/
def ownFailure (r : CloneReport) : List StepResult :=
  if r.success then []
  else [.failed (some (r.outcome.error.getD .openFile)) r.outcome.path r.outcome.message]

/-- Takes over the items of another report, and its own failure after them. -/
def absorb (r other : CloneReport) : CloneReport :=
  { r with
    copied := r.copied ++ other.copied
    skipped := r.skipped ++ other.skipped
    failures := r.failures ++ other.failures ++ other.ownFailure }

/-- Notes the result of copying one entry to `path`. -/
def record (r : CloneReport) (result : StepResult) (path : String) : CloneReport :=
  if result.success then r.addCopied path else r.addFailure result

end CloneReport

/-- What came of a request. -/
inductive ProvisionOutcome where
  /-- Homes are not created on demand. -/
  | skipped
  /-- The home could not be established. -/
  | failed (kind : FailureKind) (message : Option String)
  /-- The home is there; the report tells about its skeleton, if it was to have one. -/
  | ready (skeleton : Option CloneReport)
  deriving Repr, DecidableEq

/-- The result for a target. -/
structure ProvisionResult where
  target : String
  outcome : ProvisionOutcome
  deriving Repr, DecidableEq

namespace ProvisionResult

/-- Whether the home is there or was not asked for. -/
def success (r : ProvisionResult) : Bool :=
  match r.outcome with
  | .failed _ _ => false
  | _ => true

/-- Whether there was nothing to do. -/
def skipped (r : ProvisionResult) : Bool :=
  match r.outcome with
  | .skipped => true
  | _ => false

/-- What kind of step failed, if any. -/
def error (r : ProvisionResult) : Option FailureKind :=
  match r.outcome with
  | .failed kind _ => some kind
  | _ => none

/-- Why the home could not be established, if so. -/
def message (r : ProvisionResult) : Option String :=
  match r.outcome with
  | .failed _ message => message
  | _ => none

/-- The report on the skeleton, if there is one. -/
def skeleton (r : ProvisionResult) : Option CloneReport :=
  match r.outcome with
  | .ready skeleton => skeleton
  | _ => none

end ProvisionResult

end HomeProvision
