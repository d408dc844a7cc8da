import HomeProvision.System.Log

/-!
# Calls

The interface between the program and the world. Every call has a type of replies. Calls on files
and identities may be refused or fail in other ways; calls that only ask for an identity, note an
event or look up a user cannot.
-/

namespace HomeProvision

/-- What the system says about a node of the file tree. -/
structure Status where
  /-- The type and the permission bits. -/
  mode : Int
  size : Int
  device : Int
  inode : Int
  deriving Repr, DecidableEq

/-- The identity of a node. -/
structure Identity where
  device : Int
  inode : Int
  deriving Repr, DecidableEq

/-- The identity in a status. -/
def Status.identity (s : Status) : Identity :=
  ⟨s.device, s.inode⟩

/-- A call. -/
inductive Call where
  /-- The status of what a path leads to, links followed. -/
  | stat (path : String)
  /-- The status of what a path names, a link itself. -/
  | lstat (path : String)
  | mkdir (path : String) (mode : Int)
  | chown (path : String) (uid gid : Int)
  | lchown (path : String) (uid gid : Int)
  | chmod (path : String) (mode : Int)
  /-- Sets the creation mask and gives the one before. -/
  | umask (mask : Int)
  | openRead (path : String)
  /-- Creates a file that must not exist, for writing. -/
  | openExclusive (path : String) (mode : Int)
  | read (descriptor : Int) (size : Int)
  | write (descriptor : Int) (bytes : List UInt8)
  | truncate (path : String) (length : Int)
  | close (descriptor : Int)
  | readlink (path : String)
  | symlink (target path : String)
  /-- The names in a directory, in its order. -/
  | list (path : String)
  /-- The whole content of a file. -/
  | readFile (path : String)
  /-- The numbers of a user. -/
  | lookupUser (name : String)
  | realUid
  | effectiveUid
  | effectiveGid
  | setEffectiveUid (uid : Int)
  | setEffectiveGid (gid : Int)
  /-- The privilege controller takes on the rights that the work needs. -/
  | elevate
  /-- The privilege controller gives them back. -/
  | relinquish
  /-- The caller's hook gets control. -/
  | pause
  | log (event : LogEvent)
  deriving Repr, DecidableEq

/-- The answer to a call that succeeds. -/
abbrev Call.Answer : Call → Type
  | .stat _ | .lstat _ => Status
  | .umask _ => Int
  | .openRead _ | .openExclusive _ _ => Int
  | .read _ _ | .readFile _ => List UInt8
  | .write _ _ => Int
  | .readlink _ => String
  | .list _ => List String
  | .lookupUser _ => Option (Int × Int)
  | .realUid | .effectiveUid | .effectiveGid => Int
  | _ => Unit

/-- The reply to a call: its answer, or a fault where the call can fail. -/
abbrev Call.Reply : Call → Type
  | .lookupUser _ => Option (Int × Int)
  | .realUid | .effectiveUid | .effectiveGid => Int
  | .log _ => Unit
  | c => Except Fault c.Answer

end HomeProvision
