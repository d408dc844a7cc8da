import HomeProvision.System.Program

/-!
# Entries of a skeleton

An entry is classified by the type bits of its status. The permission bits of a status are its
lowest twelve; a copy keeps them without the two bits that lend the owner's or the group's rights to
whoever runs the file.
-/

namespace HomeProvision

/-- The bits of a status that hold the type. -/
def typeMask : Nat := 0o170000

/-- The bits of a status that hold the permissions. -/
def permissionMask : Nat := 0o7777

/-- The bits that lend the owner's and the group's rights. -/
def setIdMask : Nat := 0o6000

/-- The type of a node. -/
inductive EntryType where
  | directory
  | regularFile
  | symlink
  | other
  deriving Repr, DecidableEq

/-- The name of a type. -/
def EntryType.name : EntryType → String
  | .directory => "directory"
  | .regularFile => "regular_file"
  | .symlink => "symlink"
  | .other => "other"

/-- The mode of a status as a machine number. -/
def machineMode (mode : Int) : Except RangeFault Nat :=
  if mode < 0 then .error .negativeUnsigned
  else if 0x10000000000000000 ≤ mode then .error .beyondUnsigned
  else if 0x100000000 ≤ mode then .error .mode
  else .ok mode.toNat

/-- The type that the type bits denote. -/
def EntryType.ofBits (mode : Nat) : EntryType :=
  match mode &&& typeMask with
  | 0o040000 => .directory
  | 0o100000 => .regularFile
  | 0o120000 => .symlink
  | _ => .other

/-- The permission bits of a mode. -/
def permissionBits (mode : Nat) : Nat :=
  mode &&& permissionMask

/-- Permission bits without those that lend rights. -/
def withoutSetId (bits : Nat) : Nat :=
  bits &&& (permissionMask ^^^ setIdMask)

/-- The permission bits of a status without those that lend rights. -/
def copyMode (mode : Int) : Except RangeFault Nat :=
  (machineMode mode).map fun m => withoutSetId (permissionBits m)

/-- An entry of a skeleton. -/
structure Entry where
  name : String
  path : String
  type : EntryType
  /-- The permission bits. -/
  mode : Nat
  /-- The size, for regular files. -/
  size : Option Int
  /-- The target, for links that can be read. -/
  linkTarget : Option String := none
  identity : Identity
  deriving Repr, DecidableEq

/-- The entry that a status describes. -/
def Entry.ofStatus (name path : String) (status : Status) : Except RangeFault Entry :=
  (machineMode status.mode).map fun m =>
    let type := EntryType.ofBits m
    { name, path, type
      mode := permissionBits m
      size := if type = .regularFile then some status.size else none
      identity := status.identity }

namespace Program

/-- The result of a computation on machine numbers. -/
def ofRange {α : Type} (r : Except RangeFault α) : Program α :=
  ofExcept (r.mapError .range)

/-- Looks at an entry without following it. A link that cannot be read has no target yet. -/
def describeEntry (name path : String) : Program Entry := do
  let entry ← ofRange (Entry.ofStatus name path (← lstat path))
  if entry.type = .symlink then
    match ← attempt (readlink path) with
    | .ok target => return { entry with linkTarget := some target }
    | .error _ => return entry
  else return entry

end Program

end HomeProvision
