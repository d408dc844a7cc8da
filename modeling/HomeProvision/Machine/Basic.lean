import HomeProvision.Machine.Place
import HomeProvision.System.Program

/-!
# The machine

A machine is a file tree with a process on it: its directory, its creation mask, its identity, the
files that it has open and the users that it knows. Every call is refused or takes effect, and a
call that is refused changes nothing. Apart from the few rules below everybody may do everything.
-/

namespace HomeProvision

namespace Machine

/-- An open file. -/
structure Descriptor where
  number : Nat
  /-- The path that it was opened with. -/
  path : String
  node : Nat
  /-- How many bytes have been read. -/
  offset : Nat
  deriving Repr, DecidableEq

end Machine

/-- A machine with one process. -/
structure Machine where
  tree : Machine.Tree := .empty
  /-- The current directory. -/
  current : String := "/"
  mask : Nat := 0o022
  realUid : Int := 0
  effectiveUid : Int := 0
  realGid : Int := 0
  effectiveGid : Int := 0
  descriptors : List Machine.Descriptor := []
  users : List (String × Int × Int) := []
  deriving Repr, DecidableEq

namespace Machine

/-! ## Arguments -/

/-- A refusal of a call on a path. -/
def refused (path : String) (e : Errno) : Fault :=
  .system (.numbered e (.one path))

/-- A path as an argument, which holds no NUL. -/
def checkText (text : String) : Except Fault Unit :=
  if text.toList.contains '\x00' then .error .embeddedNul else .ok ()

/-- A mode as an argument, which is a machine integer. -/
def checkModeArgument (mode : Int) : Except Fault Unit :=
  if -0x80000000 ≤ mode && mode < 0x80000000 then .ok () else .error (.range .beyondInt)

/-- An owner's number as an argument. -/
def checkId (group : Bool) (n : Int) : Except Fault Unit :=
  if 0x8000000000000000 ≤ n then .error (.range (.idTooLarge group))
  else if n < -1 || 0x100000000 ≤ n then .error (.range (.idTooSmall group))
  else .ok ()

/-- The bits of a mode within a mask. A negative mode stands for its two's complement. -/
def grantedBits (mode : Int) (mask : Nat) : Nat :=
  (mode % (0o10000 : Int)).toNat &&& mask

/-- The bits of a mode that the creation mask leaves. -/
def unmasked (bits mask : Nat) : Nat :=
  bits &&& (0o7777 ^^^ (mask &&& 0o7777))

/-- An owner's number after a change; minus one and its two's complement leave it as it is. -/
def newId (old new : Int) : Int :=
  if new = -1 || new = 0xffffffff then old else new

/-! ## Looking -/

variable (m : Machine)

/-- Where a path leads. -/
def resolve (follow : Bool) (path : String) : Except Fault Place := do
  checkText path
  (m.tree.resolve m.current follow path).mapError (refused path)

/-- The node that a path leads to, with its place. -/
def find (follow : Bool) (path : String) : Except Fault (Nat × Node) := do
  let p ← m.resolve follow path
  match m.tree.node? p.node with
  | some n => return (p.node, n)
  | none => throw (refused path .noEntry)

/-- The status of a node. -/
def statusOf (follow : Bool) (path : String) : Except Fault Status := do
  return (← m.find follow path).2.status

/-- The target of a link. -/
def targetOf (path : String) : Except Fault String := do
  match (← m.find false path).2.body with
  | .link target => return target
  | _ => throw (refused path .invalidArgument)

/-- The names in a directory. -/
def namesOf (path : String) : Except Fault (List String) := do
  match (← m.find true path).2.body with
  | .directory entries dots => return (if dots then [".", ".."] else []) ++ entries.map (·.1)
  | _ => throw (refused path .notDirectory)

/-- The content of a file. -/
def contentOf (path : String) : Except Fault (List UInt8) := do
  match (← m.find true path).2.body with
  | .file content => return content
  | .directory _ _ => throw (refused path .isDirectory)
  | _ => return []

/-! ## Changing the tree -/

/-- A machine with another tree. -/
def withTree (t : Tree) : Machine :=
  { m with tree := t }

/-- A new node of the process in a directory. -/
def newNode (directory : Nat) (bits : Nat) (body : Body) : Node where
  mode := bits
  uid := m.effectiveUid
  gid := m.effectiveGid
  device := ((m.tree.node? directory).map Node.device).getD 1
  inode := m.tree.nextInode
  body := body

/-- The machine with a new node at a path. `check` may refuse once the spot is found. -/
def createAt (names : FileNames) (path : String) (check : Except Errno Unit) (bits : Nat)
    (body : Body) : Except Fault Machine := do
  let fail (e : Errno) : Fault := .system (.numbered e names)
  let spot ← (m.tree.spot m.current path).mapError fail
  check.mapError fail
  (m.tree.checkFree spot).mapError fail
  return m.withTree (m.tree.create spot.directory spot.name (m.newNode spot.directory bits body))

/-- Creates a directory. -/
def mkdir (path : String) (mode : Int) : Except Fault Machine := do
  checkText path
  checkModeArgument mode
  m.createAt (.one path) path (.ok ()) (unmasked (grantedBits mode 0o1777) m.mask)
    (.directory [] false)

/-- Creates a link. -/
def symlink (target path : String) : Except Fault Machine := do
  let names := FileNames.two target path
  checkText target
  checkText path
  (Tree.checkPath target).mapError fun e => .system (.numbered e names)
  let made ← m.createAt names path (.ok ()) 0o777 (.link target)
  if Path.endsInSlash path then throw (.system (.numbered .noEntry names))
  return made

/-- Changes the owner of a node, for the administrator only. -/
def chown (follow : Bool) (path : String) (uid gid : Int) : Except Fault Machine := do
  checkText path
  checkId false uid
  checkId true gid
  let (i, _) ← m.find follow path
  if m.effectiveUid ≠ 0 then throw (refused path .notPermitted)
  return m.withTree
    (m.tree.modify i fun n => { n with uid := newId n.uid uid, gid := newId n.gid gid })

/-- Changes the permission bits of a node, for the administrator and its owner only. -/
def chmod (path : String) (mode : Int) : Except Fault Machine := do
  checkText path
  checkModeArgument mode
  let (i, n) ← m.find true path
  if m.effectiveUid ≠ 0 && m.effectiveUid ≠ n.uid then throw (refused path .notPermitted)
  return m.withTree (m.tree.modify i fun n => { n with mode := grantedBits mode 0o7777 })

/-- Cuts a file to a length, or fills it up with zeros. -/
def truncate (path : String) (length : Int) : Except Fault Machine := do
  checkText path
  let (i, n) ← m.find true path
  match n.body with
  | .file _ =>
      if length < 0 then throw (refused path .invalidArgument)
      return m.withTree
        (m.tree.modify i (Node.mapContent fun content =>
          content.take length.toNat ++ List.replicate (length.toNat - content.length) 0))
  | .directory _ _ => throw (refused path .isDirectory)
  | _ => throw (refused path .invalidArgument)

/-! ## Open files -/

/-- The least number that a descriptor can have. -/
def firstDescriptor : Nat := 3

/-- The least number from `n` on that is not taken. -/
def freeFrom (taken : List Nat) (n : Nat) : Nat :=
  ((List.range (taken.length + 1)).map (n + ·)).find? (!taken.contains ·) |>.getD n

/-- The number of the next descriptor. -/
def nextDescriptor : Nat :=
  freeFrom (m.descriptors.map (·.number)) firstDescriptor

/-- The machine with one more open file, and the descriptor's number. -/
def opened (path : String) (node : Nat) : Int × Machine :=
  let number := m.nextDescriptor
  (number, { m with descriptors := m.descriptors ++ [{ number, path, node, offset := 0 }] })

/-- Opens a file or a directory for reading. -/
def openRead (path : String) : Except Fault (Int × Machine) := do
  let (i, n) ← m.find true path
  match n.body with
  | .pipe => throw (refused path .noDevice)
  | _ => return m.opened path i

/-- Creates a file and opens it for writing. -/
def openExclusive (path : String) (mode : Int) : Except Fault (Int × Machine) := do
  checkText path
  checkModeArgument mode
  let check : Except Errno Unit :=
    if Path.endsInSlash path then .error .isDirectory else .ok ()
  let made ←
    m.createAt (.one path) path check (unmasked (grantedBits mode 0o7777) m.mask) (.file [])
  return made.opened path m.tree.nextPlace

/-- The open file with a number. -/
def descriptor? (number : Int) : Option Descriptor :=
  m.descriptors.find? fun d => (d.number : Int) = number

/-- A refusal of a call on a descriptor. -/
def refusedDescriptor (e : Errno) : Fault :=
  .system (.numbered e .none)

/-- The open file with a number, which must be there. -/
def openFile (number : Int) : Except Fault Descriptor :=
  match m.descriptor? number with
  | some d => .ok d
  | none => .error (refusedDescriptor .badDescriptor)

/-- Reads at most `size` bytes. -/
def read (number size : Int) : Except Fault (List UInt8 × Machine) := do
  if size < 0 then throw (refusedDescriptor .invalidArgument)
  let d ← m.openFile number
  match (m.tree.node? d.node).map Node.body with
  | some (.file content) =>
      let bytes := (content.drop d.offset).take size.toNat
      let advance (e : Descriptor) : Descriptor :=
        if e.number = d.number then { e with offset := e.offset + bytes.length } else e
      return (bytes, { m with descriptors := m.descriptors.map advance })
  | some (.directory _ _) => throw (refusedDescriptor .isDirectory)
  | _ => return ([], m)

/-- Writes bytes at the end of a file. -/
def write (number : Int) (bytes : List UInt8) : Except Fault (Int × Machine) := do
  let d ← m.openFile number
  return (bytes.length,
    m.withTree (m.tree.modify d.node (Node.mapContent (· ++ bytes))))

/-- Gives a descriptor back. -/
def close (number : Int) : Except Fault Machine := do
  let d ← m.openFile number
  return { m with descriptors := m.descriptors.filter fun e => e.number ≠ d.number }

/-! ## Identity -/

/-- Changes the effective user: to anyone for the administrator, or back to the real user. -/
def setEffectiveUid (uid : Int) : Except Fault Machine :=
  if m.realUid = 0 || m.effectiveUid = 0 || uid = m.realUid then .ok { m with effectiveUid := uid }
  else .error (refusedDescriptor .notPermitted)

/-- Changes the effective group: to any for the administrator, or back to the real group. -/
def setEffectiveGid (gid : Int) : Except Fault Machine :=
  if m.effectiveUid = 0 || gid = m.realGid then .ok { m with effectiveGid := gid }
  else .error (refusedDescriptor .notPermitted)

/-! ## The machine as a world -/

/-- The reply to a call with an answer, and the machine after it. -/
def answered {α : Type} : Except Fault (α × Machine) → Except Fault α × Machine
  | .ok (a, m') => (.ok a, m')
  | .error f => (.error f, m)

/-- The reply to a call without an answer, and the machine after it. -/
def changed : Except Fault Machine → Except Fault Unit × Machine
  | .ok m' => (.ok (), m')
  | .error f => (.error f, m)

/-- The reply to a call, and the machine after it. -/
def reply (c : Call) (m : Machine) : c.Reply × Machine :=
  match c with
  | .stat path => (m.statusOf true path, m)
  | .lstat path => (m.statusOf false path, m)
  | .mkdir path mode => m.changed (m.mkdir path mode)
  | .chown path uid gid => m.changed (m.chown true path uid gid)
  | .lchown path uid gid => m.changed (m.chown false path uid gid)
  | .chmod path mode => m.changed (m.chmod path mode)
  | .umask mask => (.ok m.mask, { m with mask := grantedBits mask 0o777 })
  | .openRead path => m.answered (m.openRead path)
  | .openExclusive path mode => m.answered (m.openExclusive path mode)
  | .read number size => m.answered (m.read number size)
  | .write number bytes => m.answered (m.write number bytes)
  | .truncate path length => m.changed (m.truncate path length)
  | .close number => m.changed (m.close number)
  | .readlink path => (m.targetOf path, m)
  | .symlink target path => m.changed (m.symlink target path)
  | .list path => (m.namesOf path, m)
  | .readFile path => (m.contentOf path, m)
  | .lookupUser name => (m.users.lookup name, m)
  | .realUid => (m.realUid, m)
  | .effectiveUid => (m.effectiveUid, m)
  | .effectiveGid => (m.effectiveGid, m)
  | .setEffectiveUid uid => m.changed (m.setEffectiveUid uid)
  | .setEffectiveGid gid => m.changed (m.setEffectiveGid gid)
  | .elevate => (.ok (), m)
  | .relinquish => (.ok (), m)
  | .pause => (.ok (), m)
  | .log _ => ((), m)

/-- The machine as a world that programs run in. -/
def layer : Layer Machine where
  reply := reply

end Machine

end HomeProvision
