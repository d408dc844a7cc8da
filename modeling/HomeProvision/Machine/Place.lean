import HomeProvision.Machine.Tree
import HomeProvision.Provision.Path
import HomeProvision.System.Errno

/-!
# Where paths lead

A path is followed component by component. A link on the way is replaced by its target; the last one
is followed only if it is asked for, or if the path ends in a slash. The way back from a directory
is the way that led to it, so that a walk remembers the directories that it came through.
-/

namespace HomeProvision.Machine

/-- Where a walk stands: a node and the directories that led to it, nearest first. -/
structure Place where
  node : Nat
  above : List Nat
  deriving Repr, DecidableEq

namespace Place

/-- The root. -/
def root : Place where
  node := Tree.root
  above := []

/-- The directory that a walk came through. The way up from the root leads to the root. -/
def parent (p : Place) : Place :=
  match p.above with
  | [] => p
  | i :: above => ⟨i, above⟩

/-- The place one step below. -/
def step (p : Place) (i : Nat) : Place :=
  ⟨i, p.node :: p.above⟩

end Place

/-- What is left of a path: its components, and whether it must lead to a directory. -/
structure Route where
  components : List String
  directory : Bool
  deriving Repr, DecidableEq

/-- The route of a path. -/
def Route.ofPath (path : String) : Route where
  components := Path.components path
  directory := Path.endsInSlash path

/-- The route after a link: its target, and then the rest. -/
def Route.through (target : String) (rest : Route) : Route where
  components := Path.components target ++ rest.components
  directory := rest.directory || (rest.components.isEmpty && Path.endsInSlash target)

/-- The most bytes in a component of a path. -/
def nameLimit : Nat := 255

/-- The number of bytes that a path must stay below. -/
def pathLimit : Nat := 4096

/-- The most links that are followed on one way. -/
def linkLimit : Nat := 40

namespace Tree

/-- Follows components until there is none left or a link is to be followed. What happens then is
left to `again`, which is given the place to go on from and the route. -/
def walkWith (t : Tree) (again : Place → Route → Except Errno Place) (follow : Bool) :
    Place → (components : List String) → (directory : Bool) → Except Errno Place
  | p, [], directory =>
      if directory && !t.isDirectory p.node then .error .notDirectory else .ok p
  | p, name :: rest, directory =>
      if !t.isDirectory p.node then .error .notDirectory
      else if name = "." then walkWith t again follow p rest directory
      else if name = ".." then walkWith t again follow p.parent rest directory
      else if nameLimit < name.utf8ByteSize then .error .nameTooLong
      else
        match t.child? p.node name with
        | none => .error .noEntry
        | some i =>
            match (t.node? i).bind Node.target? with
            | none => walkWith t again follow (p.step i) rest directory
            | some target =>
                if !rest.isEmpty || follow || directory then
                  again (if Path.isAbsolute target then Place.root else p)
                    (Route.through target ⟨rest, directory⟩)
                else .ok (p.step i)

/-- Follows a route from a place through at most `links` links. -/
def walk (t : Tree) (follow : Bool) : (links : Nat) → Place → Route → Except Errno Place
  | 0, p, r => t.walkWith (fun _ _ => .error .tooManyLinks) follow p r.components r.directory
  | links + 1, p, r => t.walkWith (walk t follow links) follow p r.components r.directory

/-- Whether a path can be followed at all. -/
def checkPath (path : String) : Except Errno Unit :=
  if path = "" then .error .noEntry
  else if pathLimit ≤ path.utf8ByteSize then .error .nameTooLong
  else .ok ()

/-- Where a path leads from a place. -/
def resolveFrom (t : Tree) (start : Place) (follow : Bool) (path : String) :
    Except Errno Place := do
  checkPath path
  t.walk follow linkLimit start (Route.ofPath path)

/-- Where the walk for a path starts: at the root, or in the current directory. -/
def start (t : Tree) (current path : String) : Except Errno Place :=
  if Path.isAbsolute path then .ok Place.root
  else t.resolveFrom Place.root true current

/-- Where a path leads. -/
def resolve (t : Tree) (current : String) (follow : Bool) (path : String) : Except Errno Place := do
  checkPath path
  t.walk follow linkLimit (← t.start current path) (Route.ofPath path)

/-- Where a path would have a new name. -/
structure Spot where
  directory : Nat
  name : String
  deriving Repr, DecidableEq

/-- The spot of a path. The way to its directory follows every link. The root is in no directory. -/
def spot (t : Tree) (current path : String) : Except Errno Spot := do
  checkPath path
  let components := Path.components path
  let p ← t.walk true linkLimit (← t.start current path) ⟨components.dropLast, true⟩
  match components.getLast? with
  | none => throw .alreadyExists
  | some name =>
      if nameLimit < name.utf8ByteSize then throw .nameTooLong
      return ⟨p.node, name⟩

/-- Whether a spot is free. The names that every directory has for itself and its parent are
taken. -/
def checkFree (t : Tree) (s : Spot) : Except Errno Unit :=
  if s.name = "." || s.name = ".." || (t.child? s.directory s.name).isSome then
    .error .alreadyExists
  else .ok ()

end Tree

end HomeProvision.Machine
