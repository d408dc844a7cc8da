import HomeProvision.System.Program

/-!
# Privileges

The work is done with the rights of the administrator. Windows of elevated rights nest: only the
outermost one changes the identity, and its end restores it. A process that cannot become the
administrator only counts.
-/

namespace HomeProvision

/-- The state of a privilege controller. -/
inductive Controller where
  /-- Switches to the administrator and back; `saved` is the identity to restore. -/
  | administrator (depth : Nat) (saved : Option (Int × Int))
  /-- Keeps the identity. -/
  | nominal (depth : Nat)
  deriving Repr, DecidableEq

namespace Controller

/-- How many windows are open. -/
def depth : Controller → Nat
  | administrator depth _ => depth
  | nominal depth => depth

open Program in
/-- Switches the effective user, if it differs. -/
def switchUid (current wanted : Int) : Program (Except Fault Unit) :=
  if current = wanted then pure (.ok ()) else outcome (setEffectiveUid wanted)

open Program in
/-- Switches the effective group, if it differs. -/
def switchGid (current wanted : Int) : Program (Except Fault Unit) :=
  if current = wanted then pure (.ok ()) else outcome (setEffectiveGid wanted)

open Program in
/-- Becomes the administrator, the user first, since changing the group takes the administrator's
rights. If the group cannot be changed the user is changed back. -/
def takeOver : Program (Except Fault Unit × Controller) := do
  let uid ← ask .effectiveUid
  let gid ← ask .effectiveGid
  let owed := Controller.administrator 0 (some (uid, gid))
  match ← switchUid uid 0 with
  | .error f => return (.error f, owed)
  | .ok _ =>
      match ← switchGid gid 0 with
      | .ok _ => return (.ok (), .administrator 1 (some (uid, gid)))
      | .error (.system e) =>
          match ← switchUid 0 uid with
          | .error f =>
              return (.error f, owed)
          | .ok _ => return (.error (.system e), .administrator 0 none)
      | .error f => return (.error f, owed)

open Program in
/-- Restores an identity, the group first. -/
def giveBack (uid gid : Int) : Program (Except Fault Unit) := do
  match ← switchGid (← ask .effectiveGid) gid with
  | .error f => return .error f
  | .ok _ => switchUid (← ask .effectiveUid) uid

/-- Opens a window. -/
def elevate : Controller → Program (Except Fault Unit × Controller)
  | administrator 0 _ => takeOver
  | administrator (n + 1) saved => pure (.ok (), administrator (n + 2) saved)
  | nominal n => pure (.ok (), nominal (n + 1))

/-- Closes a window, if one is open. -/
def relinquish : Controller → Program (Except Fault Unit × Controller)
  | administrator 0 saved => pure (.ok (), administrator 0 saved)
  | administrator 1 (some (uid, gid)) => do
      return (← giveBack uid gid, administrator 0 none)
  | administrator (n + 1) saved => pure (.ok (), administrator n saved)
  | nominal n => pure (.ok (), nominal (n - 1))

end Controller

namespace Program

/-- Runs a program whose calls to the privilege controller are answered by a given one. The result
is the program's outcome and the controller afterwards. -/
def under {α : Type} : Controller → Program α → Program (Except Fault α × Controller)
  | c, done a => done (.ok a, c)
  | c, raise f => done (.error f, c)
  | c, call .elevate next => (c.elevate).bind fun r => under r.2 (next r.1)
  | c, call .relinquish next => (c.relinquish).bind fun r => under r.2 (next r.1)
  | c, call other next => call other fun r => under c (next r)

/-- Runs a program with elevated rights, and gives them back however it ends. -/
def elevated {α : Type} (body : Program α) : Program α := do
  call .elevate ofExcept
  ensuring body (call .relinquish ofExcept)

/-- Runs a program inside a number of windows. -/
def elevatedTimes {α : Type} : Nat → Program α → Program α
  | 0, body => body
  | n + 1, body => elevated (elevatedTimes n body)

/-- The controller for the process: the administrator's if the real user is the administrator. -/
def defaultController : Program Controller := do
  let uid ← ask .realUid
  if uid = 0 then return .administrator 0 none
  log .debug "Not running as root, provisioning with current identity" [("uid", .int uid)]
  return .nominal 0

end Program

end HomeProvision
