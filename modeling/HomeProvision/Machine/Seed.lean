import HomeProvision.Machine.Place

/-!
# Setting up a tree

A tree is set up from seeds, one after the other. A seed says what stands at a path. Directories
that are missing on the way are made, links are not followed, and no rule of the machine applies. A
seed for a path that is taken replaces what was there and keeps its place in the order.
-/

namespace HomeProvision.Machine

/-- What a seed grows into. -/
inductive SeedBody where
  /-- A new node. -/
  | node (body : Body)
  /-- A further name of the directory at a path. -/
  | alias (path : String)
  deriving Repr, DecidableEq

/-- What stands at a path. -/
structure Seed where
  path : String
  body : SeedBody
  mode : Nat
  uid : Int := 0
  gid : Int := 0
  /-- The device, if it is not that of the directory. -/
  device : Option Int := none
  /-- The number of the node, if it is not the next one. -/
  inode : Option Int := none
  deriving Repr, DecidableEq

namespace Tree

/-- The place that components lead to from a directory, without links being followed. -/
def locate (t : Tree) (i : Nat) : List String → Option Nat
  | [] => some i
  | name :: rest =>
      match t.child? i name with
      | some j => locate t j rest
      | none => none

/-- The device of the node at a place. -/
def deviceOf (t : Tree) (i : Nat) : Int :=
  ((t.node? i).map Node.device).getD 1

/-- Makes the directories on a way that are missing. The result is the last one. -/
def makeWay (t : Tree) (i : Nat) : List String → Tree × Nat
  | [] => (t, i)
  | name :: rest =>
      match t.child? i name with
      | some j => makeWay t j rest
      | none =>
          makeWay (t.create i name (plainDirectory (t.deviceOf i) t.nextInode)) t.nextPlace rest

/-- The node that a seed grows into below a directory. -/
def grown (t : Tree) (directory : Nat) (s : Seed) (body : Body) : Node where
  mode := s.mode
  uid := s.uid
  gid := s.gid
  device := s.device.getD (t.deviceOf directory)
  inode := s.inode.getD t.nextInode
  body := body

/-- Plants one seed. A seed for the root gives it new attributes and takes nothing away. -/
def plant (t : Tree) (s : Seed) : Tree :=
  let components := Path.components s.path
  let (t, directory) := t.makeWay root components.dropLast
  match components.getLast?, s.body with
  | some name, .node body =>
      (t.push (t.grown directory s body)).setName directory name t.nextPlace
  | some name, .alias path =>
      match t.locate root (Path.components path) with
      | some i => t.setName directory name i
      | none => t
  | none, _ => t.modify root fun n => { n with mode := s.mode, uid := s.uid, gid := s.gid }

/-- Plants seeds in their order. -/
def plantAll (t : Tree) (seeds : List Seed) : Tree :=
  seeds.foldl plant t

/-- Takes away the name at a path, if it is there. -/
def unlink (t : Tree) (path : String) : Tree :=
  let components := Path.components path
  match t.locate root components.dropLast, components.getLast? with
  | some directory, some name => t.dropName directory name
  | _, _ => t

end Tree

end HomeProvision.Machine
