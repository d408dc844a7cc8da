import HomeProvision.Provision.PathWalk
import HomeProvision.Provision.Privilege
import HomeProvision.Provision.Skeleton

/-!
# Creating a home

A request is carried out inside one window of elevated rights: first the way to the home, then the
skeleton. Only a home that is not there in the end is a failure; trouble with the skeleton is part
of the report.
-/

namespace HomeProvision

/-- Who answers the calls to the privilege controller. -/
inductive Privileges where
  /-- The world that the program runs in. -/
  | world
  /-- A controller that suits the process. -/
  | automatic
  /-- A new controller of the given kind. -/
  | fresh (c : Controller)
  deriving Repr, DecidableEq

namespace Program

/-- Runs a program with a choice of privileges. -/
def withPrivileges {α : Type} (p : Privileges) (body : Program α) : Program α :=
  let running (c : Controller) : Program α := (under c body).bind fun r => ofExcept r.1
  match p with
  | .world => body
  | .automatic => defaultController.bind running
  | .fresh c => running c

/-- Copies the skeleton of a request, if it has one. The empty path is none. -/
def fillHome (r : Request) (chunkSize : Option Int) (limits : Limits := {}) :
    Program (Option CloneReport) := do
  match r.skeleton with
  | none | some "" => return none
  | some source =>
      log .debug "Copying skeleton files" [("source", .text source), ("path", .text r.target)]
      let report ← cloneTree source r.target r.ownerUid r.ownerGid chunkSize limits
      if !report.success then
        log .debug "Error copying skeleton files"
          [("source", .text source), ("error", .text (report.outcome.message.getD ""))]
      return some report

/-- The work of a request that needs elevated rights. -/
def establishHome (r : Request) (user : String) (chunkSize : Option Int)
    (limits : Limits := {}) : Program ProvisionOutcome := do
  let result ←
    ensurePath r.target user r.ownerUid r.ownerGid r.intermediateMode.toInt r.finalMode.toInt
  if result.success then return .ready (← fillHome r chunkSize limits)
  log .warning "Unable to create home directory" [("path", .text r.target), ("user", .text user)]
  return .failed .path result.message

/-- Carries out a request. Files are copied in pieces of `chunkSize` bytes, or of the usual size. -/
def provision (r : Request) (user : String) (chunkSize : Option Int := none)
    (limits : Limits := {}) : Program ProvisionResult := do
  let outcome ← elevated (establishHome r user chunkSize limits)
  match outcome with
  | .ready _ =>
      log .info "Home directory ready" [("path", .text r.target), ("user", .text user)]
  | _ => pure ()
  return { target := r.target, outcome }

/-- Creates a home if the settings ask for it. `request` makes the request of them. -/
def provisionIfEnabled (settings : Option Settings) (target user : String)
    (request : Settings → Except Invalid Request) (privileges : Privileges)
    (chunkSize : Option Int := none) (limits : Limits := {}) : Program ProvisionResult := do
  match settings with
  | some s =>
      if s.enabled then
        let request ← ofExcept ((request s).mapError .invalid)
        withPrivileges privileges (provision request user chunkSize limits)
      else return { target, outcome := .skipped }
  | none => return { target, outcome := .skipped }

/-- Creates a home for an owner if the settings ask for it. -/
def provisionHome (settings : Option Settings) (target user : String) (uid gid : Int)
    (privileges : Privileges) (chunkSize : Option Int := none) (limits : Limits := {}) :
    Program ProvisionResult :=
  provisionIfEnabled settings target user (·.toRequest target uid gid) privileges chunkSize limits

end Program

end HomeProvision
