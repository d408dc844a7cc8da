import HomeProvision.Provision.Report
import HomeProvision.Text.Json

/-!
# The report of the command

Results as JSON, every field in its place and null where there is nothing to say.
-/

namespace HomeProvision

open HomeProvision.Text

/-- The name of a kind of failure, or null. -/
def FailureKind.json (kind : Option FailureKind) : Json :=
  Json.ofOption (kind.map FailureKind.name)

/-- The fields of a step. -/
def StepResult.entries (r : StepResult) : List (String × Json) :=
  [("success", .bool r.success), ("path", Json.ofOption r.path),
    ("error", FailureKind.json r.error), ("message", Json.ofOption r.message)]

/-- A step as JSON. -/
def StepResult.json (r : StepResult) : Json :=
  .object r.entries

/-- Paths as JSON. -/
def pathsJson (paths : List String) : Json :=
  .list (paths.map .text)

/-- A report on a skeleton as JSON. -/
def CloneReport.json (r : CloneReport) : Json :=
  .object (r.outcome.entries ++
    [("copied", pathsJson r.copied), ("skipped", pathsJson r.skipped),
      ("failures", .list (r.failures.map StepResult.json))])

/-- A result as JSON. -/
def ProvisionResult.json (r : ProvisionResult) : Json :=
  .object
    [("success", .bool r.success), ("target_path", .text r.target), ("skipped", .bool r.skipped),
      ("error", FailureKind.json r.error), ("message", Json.ofOption r.message),
      ("skeleton", (r.skeleton.map CloneReport.json).getD .null)]

end HomeProvision
