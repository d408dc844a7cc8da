import HomeProvision.Machine.Basic

/-!
# Trials

A trial runs a program on a machine while calls fail as planned, and keeps a record of every call
and event. A planned failure counts the calls that it is meant for and strikes at one of them, or at
each. It strikes before the machine looks at the call, or after the call has taken effect; a reading
or writing call can also be made to handle fewer bytes than it is asked for.
-/

namespace HomeProvision.Machine

/-! ## Records -/

/-- A call as it is seen from outside. -/
structure Record where
  name : String
  arguments : List Detail
  /-- What came of it, where that is told. -/
  outcome : Option (Except Fault Detail)

/-- A mode as a record shows it. -/
def modeDetail (mode : Int) : Detail :=
  .text (Number.markedOctal mode)

/-- The flags of an exclusive creation for writing. -/
def exclusiveFlags : Int := 193

/-- The name of a call. Calls without a name leave no record of their own. -/
def callName : Call → String
  | .stat _ => "stat"
  | .lstat _ => "lstat"
  | .mkdir _ _ => "mkdir"
  | .chown _ _ _ => "chown"
  | .lchown _ _ _ => "lchown"
  | .chmod _ _ => "chmod"
  | .umask _ => "umask"
  | .openRead _ | .openExclusive _ _ => "open"
  | .read _ _ => "read"
  | .write _ _ => "write"
  | .truncate _ _ => "truncate"
  | .close _ => "close"
  | .readlink _ => "readlink"
  | .symlink _ _ => "symlink"
  | .list _ => "scandir"
  | .readFile _ => "read_file"
  | .setEffectiveUid _ => "seteuid"
  | .setEffectiveGid _ => "setegid"
  | .elevate => "elevate"
  | .relinquish => "relinquish"
  | .lookupUser _ | .realUid | .effectiveUid | .effectiveGid | .pause | .log _ => ""

/-- The arguments of a call. -/
def callArguments : Call → List Detail
  | .stat path | .lstat path | .readlink path | .list path | .readFile path => [.text path]
  | .mkdir path mode | .chmod path mode => [.text path, modeDetail mode]
  | .chown path uid gid | .lchown path uid gid => [.text path, .int uid, .int gid]
  | .umask mask => [modeDetail mask]
  | .openRead path => [.text path, .int 0]
  | .openExclusive path mode => [.text path, .int exclusiveFlags, modeDetail mode]
  | .read number size => [.int number, .int size]
  | .write number bytes => [.int number, .int bytes.length]
  | .truncate path length => [.text path, .int length]
  | .close number => [.int number]
  | .symlink target path => [.text target, .text path]
  | .setEffectiveUid id | .setEffectiveGid id => [.int id]
  | _ => []

/-- The file names in an error of a call. -/
def callNames : Call → FileNames
  | .stat path | .lstat path | .readlink path | .list path | .readFile path | .mkdir path _
  | .chmod path _ | .chown path _ _ | .lchown path _ _ | .openRead path | .openExclusive path _
  | .truncate path _ => .one path
  | .symlink target path => .two target path
  | _ => .none

/-- The path that a call is about, as far as plans can tell: the path argument, or the path that a
descriptor was opened with. -/
def callPath (m : Machine) : Call → Option String
  | .read number _ | .write number _ | .close number => (m.descriptor? number).map (·.path)
  | c =>
      match callNames c with
      | .none => none
      | .one path => some path
      | .two _ path => some path

/-! ## Plans -/

/-- What a planned failure does to a call. -/
inductive Strike where
  /-- The call is refused. -/
  | refuse (e : Errno)
  /-- A fault of another kind. -/
  | raise (f : Fault)
  /-- At most so many bytes are handled. -/
  | short (limit : Nat)
  deriving Repr, DecidableEq

/-- A planned failure. -/
structure PlannedFailure where
  /-- The name of the calls that it is meant for. -/
  call : String
  /-- The path of the calls that it is meant for, or none for every path. -/
  path : Option String := none
  /-- The number of the one call that it strikes at, or none for every call. -/
  nth : Option Nat := none
  strike : Strike
  /-- Whether the call takes effect first. -/
  after : Bool := false
  /-- How many calls there have been so far. -/
  count : Nat := 0
  deriving Repr, DecidableEq

namespace PlannedFailure

/-- Whether a failure is meant for a call. -/
def concerns (p : PlannedFailure) (call : String) (path : Option String) : Bool :=
  p.call = call && (p.path.isNone || p.path = path)

/-- Counts a call that a failure is meant for. -/
def advance (p : PlannedFailure) (call : String) (path : Option String) : PlannedFailure :=
  if p.concerns call path then { p with count := p.count + 1 } else p

/-- Whether a failure strikes at the call that has just been counted. -/
def strikes (p : PlannedFailure) (call : String) (path : Option String) : Bool :=
  p.concerns call path && (p.nth.isNone || p.nth = some p.count)

end PlannedFailure

/-- What the caller's hook does when it gets control. -/
structure Hook where
  /-- The record that it leaves. -/
  mark : Record
  /-- The number of the one call that it stops the program at. -/
  nth : Option Nat := none
  /-- The fault that it stops the program with, if it ever does. -/
  fault : Option Fault := none
  /-- How many calls there have been so far. -/
  count : Nat := 0

/-! ## Running -/

end Machine

/-- A trial: a machine, what is planned and what has been seen. -/
structure Trial where
  machine : Machine
  plan : List Machine.PlannedFailure := []
  hook : Option Machine.Hook := none
  records : List Machine.Record := []
  events : List LogEvent := []

namespace Trial

open Machine

/-- Adds a record. -/
def note (t : Trial) (r : Record) : Trial :=
  { t with records := t.records ++ [r] }

/-- What is told of a call that answers with items: how many there are. -/
def countDetail {α : Type} (items : List α) : Detail :=
  .int items.length

/-- The fault that a strike puts in place of the machine's reply, if it does. -/
def struck (c : Call) : Strike → Option Fault
  | .refuse e => some (.system (.numbered e (callNames c)))
  | .raise f => some f
  | .short _ => none

/-- Makes a call on the machine, or lets it fail as planned. `act` makes the call; it is given the
limit on the bytes, if there is one. -/
def perform {α : Type} (t : Trial) (c : Call) (tell : α → Detail)
    (act : Option Nat → Machine → Except Fault α × Machine) : Except Fault α × Trial :=
  let name := callName c
  let path := callPath t.machine c
  let plan := t.plan.map fun p => p.advance name path
  let chosen := plan.find? fun p => p.strikes name path
  let limit :=
    match chosen with
    | some { strike := .short limit, .. } => some limit
    | _ => none
  let fault := chosen.bind fun p => struck c p.strike
  let (result, machine) :=
    match fault with
    | none => act limit t.machine
    | some f =>
        if chosen.any PlannedFailure.after then
          match act none t.machine with
          | (.ok _, machine) => (.error f, machine)
          | failed => failed
        else (.error f, t.machine)
  let record : Record := ⟨name, callArguments c, some (result.map tell)⟩
  (result, { t with machine, plan, records := t.records ++ [record] })

/-- What is told of a call that succeeds without an answer. -/
def done {α : Type} (_ : α) : Detail :=
  .text "ok"

/-- Gives control to the hook. -/
def interrupt (t : Trial) : Except Fault Unit × Trial :=
  match t.hook with
  | none => (.ok (), t)
  | some h =>
      let count := h.count + 1
      let t := { t.note h.mark with hook := some { h with count } }
      match h.fault with
      | some f => if h.nth.isNone || h.nth = some count then (.error f, t) else (.ok (), t)
      | none => (.ok (), t)

/-- The reply to a call during a trial, and the trial after it. -/
def reply (c : Call) (t : Trial) : c.Reply × Trial :=
  match c with
  | .stat path => t.perform (.stat path) done fun _ => Machine.reply (.stat path)
  | .lstat path => t.perform (.lstat path) done fun _ => Machine.reply (.lstat path)
  | .mkdir path mode => t.perform (.mkdir path mode) done fun _ => Machine.reply (.mkdir path mode)
  | .chown path uid gid =>
      t.perform (.chown path uid gid) done fun _ => Machine.reply (.chown path uid gid)
  | .lchown path uid gid =>
      t.perform (.lchown path uid gid) done fun _ => Machine.reply (.lchown path uid gid)
  | .chmod path mode => t.perform (.chmod path mode) done fun _ => Machine.reply (.chmod path mode)
  | .umask mask => t.perform (.umask mask) modeDetail fun _ => Machine.reply (.umask mask)
  | .openRead path => t.perform (.openRead path) .int fun _ => Machine.reply (.openRead path)
  | .openExclusive path mode =>
      t.perform (.openExclusive path mode) .int fun _ => Machine.reply (.openExclusive path mode)
  | .read number size =>
      t.perform (.read number size) countDetail fun
        | none => Machine.reply (.read number size)
        | some limit => Machine.reply (.read number (min size limit))
  | .write number bytes =>
      t.perform (.write number bytes) .int fun
        | none => Machine.reply (.write number bytes)
        | some limit => Machine.reply (.write number (bytes.take limit))
  | .truncate path length =>
      t.perform (.truncate path length) done fun _ => Machine.reply (.truncate path length)
  | .close number => t.perform (.close number) done fun _ => Machine.reply (.close number)
  | .readlink path => t.perform (.readlink path) done fun _ => Machine.reply (.readlink path)
  | .symlink target path =>
      t.perform (.symlink target path) done fun _ => Machine.reply (.symlink target path)
  | .list path => t.perform (.list path) countDetail fun _ => Machine.reply (.list path)
  | .readFile path => t.perform (.readFile path) countDetail fun _ => Machine.reply (.readFile path)
  | .setEffectiveUid uid =>
      t.perform (.setEffectiveUid uid) done fun _ => Machine.reply (.setEffectiveUid uid)
  | .setEffectiveGid gid =>
      t.perform (.setEffectiveGid gid) done fun _ => Machine.reply (.setEffectiveGid gid)
  | .lookupUser name => (t.machine.users.lookup name, t)
  | .realUid => (t.machine.realUid, t)
  | .effectiveUid => (t.machine.effectiveUid, t)
  | .effectiveGid => (t.machine.effectiveGid, t)
  | .elevate => (.ok (), t.note ⟨"elevate", [], none⟩)
  | .relinquish => (.ok (), t.note ⟨"relinquish", [], none⟩)
  | .pause => t.interrupt
  | .log event => ((), { t with events := t.events ++ [event] })

/-- A trial as a world that programs run in. -/
def layer : Layer Trial where
  reply := reply

end Trial

end HomeProvision
