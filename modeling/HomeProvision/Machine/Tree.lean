import HomeProvision.Provision.Entry

/-!
# File trees

A file tree is a list of nodes. A directory names other nodes by their places in the list, so that a
node may have several names or none, and directories may even lead back to themselves. The root is
the first node. Nodes are never taken away; a node without a name is out of reach.
-/

namespace HomeProvision.Machine

/-- What a node holds. -/
inductive Body where
  /-- A directory with the names in it, in order. Some list themselves and their parent, too. -/
  | directory (entries : List (String × Nat)) (dots : Bool)
  | file (content : List UInt8)
  | link (target : String)
  /-- A pipe, which nothing can be read from. -/
  | pipe
  deriving Repr, DecidableEq

/-- A node of a file tree. -/
structure Node where
  /-- The permission bits. -/
  mode : Nat
  uid : Int
  gid : Int
  device : Int
  inode : Int
  body : Body
  deriving Repr, DecidableEq

namespace Node

/-- The names in a directory. -/
def entries? (n : Node) : Option (List (String × Nat)) :=
  match n.body with
  | .directory entries _ => some entries
  | _ => none

/-- The target of a link. -/
def target? (n : Node) : Option String :=
  match n.body with
  | .link target => some target
  | _ => none

/-- Whether a node is a directory. -/
def isDirectory (n : Node) : Bool :=
  n.entries?.isSome

/-- The bits of a status that say what a node is. -/
def typeBits (n : Node) : Nat :=
  match n.body with
  | .directory _ _ => 0o040000
  | .file _ => 0o100000
  | .link _ => 0o120000
  | .pipe => 0o010000

/-- The size of a node, in bytes. -/
def size (n : Node) : Nat :=
  match n.body with
  | .file content => content.length
  | .link target => target.utf8ByteSize
  | _ => 0

/-- The status of a node. -/
def status (n : Node) : Status where
  mode := ((n.typeBits ||| n.mode : Nat) : Int)
  size := (n.size : Int)
  device := n.device
  inode := n.inode

/-- A node with the names in it changed, if it is a directory. -/
def mapEntries (f : List (String × Nat) → List (String × Nat)) (n : Node) : Node :=
  match n.body with
  | .directory entries dots => { n with body := .directory (f entries) dots }
  | _ => n

/-- A node with its content changed, if it is a file. -/
def mapContent (f : List UInt8 → List UInt8) (n : Node) : Node :=
  match n.body with
  | .file content => { n with body := .file (f content) }
  | _ => n

end Node

/-- A file tree. -/
structure Tree where
  nodes : List Node
  deriving Repr, DecidableEq

namespace Tree

/-- The place of the root. -/
def root : Nat := 0

/-- An empty directory of the administrator. -/
def plainDirectory (device inode : Int) : Node where
  mode := 0o755
  uid := 0
  gid := 0
  device := device
  inode := inode
  body := .directory [] false

/-- The tree with an empty root. -/
def empty : Tree where
  nodes := [plainDirectory 1 1]

/-- The node at a place. -/
def node? (t : Tree) (i : Nat) : Option Node :=
  t.nodes[i]?

/-- The names in the directory at a place. -/
def entries? (t : Tree) (i : Nat) : Option (List (String × Nat)) :=
  (t.node? i).bind Node.entries?

/-- Whether there is a directory at a place. -/
def isDirectory (t : Tree) (i : Nat) : Bool :=
  (t.entries? i).isSome

/-- The node with a name in a directory. -/
def child? (t : Tree) (i : Nat) (name : String) : Option Nat :=
  (t.entries? i).bind fun entries => entries.lookup name

/-- The number that the next new node gets. -/
def nextInode (t : Tree) : Int :=
  (t.nodes.length + 1 : Nat)

/-- The place of the next new node. -/
def nextPlace (t : Tree) : Nat :=
  t.nodes.length

/-- A tree with the node at a place changed. -/
def modify (t : Tree) (i : Nat) (f : Node → Node) : Tree where
  nodes := t.nodes.modify i f

/-- A tree with one more node, which has no name yet. -/
def push (t : Tree) (n : Node) : Tree where
  nodes := t.nodes ++ [n]

/-- Adds a name at the end of a directory. -/
def addName (t : Tree) (i : Nat) (name : String) (place : Nat) : Tree :=
  t.modify i (Node.mapEntries (· ++ [(name, place)]))

/-- Adds a new node under a name at the end of a directory. -/
def create (t : Tree) (i : Nat) (name : String) (n : Node) : Tree :=
  (t.push n).addName i name t.nextPlace

/-- Takes a name out of a directory. -/
def dropName (t : Tree) (i : Nat) (name : String) : Tree :=
  t.modify i (Node.mapEntries (·.filter fun entry => entry.1 ≠ name))

/-- Makes a name in a directory lead to a place, without a change of the order. A new name comes
last. -/
def setName (t : Tree) (i : Nat) (name : String) (place : Nat) : Tree :=
  match t.child? i name with
  | none => t.addName i name place
  | some _ =>
      t.modify i
        (Node.mapEntries (·.map fun entry => if entry.1 = name then (name, place) else entry))

end Tree

end HomeProvision.Machine
