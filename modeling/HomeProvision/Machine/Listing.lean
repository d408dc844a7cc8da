import HomeProvision.Machine.Tree

/-!
# Listing a tree

A listing shows every name in a tree, depth first and in the order of the directories. A directory
that has been shown under another name is named by its first path and not entered again.
-/

namespace HomeProvision.Machine

/-- A line of a listing. -/
structure ListingItem where
  path : String
  /-- The node, or the first path of a directory that is listed already. -/
  content : Node ⊕ String
  deriving Repr, DecidableEq

/-- The directories that are listed already, with their first paths. -/
abbrev Listed := List (Nat × String)

/-- Lists the names in a directory. `enter` lists the directory at a place. -/
def listEntries (t : Tree) (enter : Nat → String → Listed → List ListingItem × Listed)
    (above : String) : List (String × Nat) → Listed → List ListingItem × Listed
  | [], listed => ([], listed)
  | (name, i) :: rest, listed =>
      let path := above ++ "/" ++ name
      match t.node? i, listed.lookup i with
      | none, _ => listEntries t enter above rest listed
      | some _, some first =>
          let (items, listed) := listEntries t enter above rest listed
          (⟨path, .inr first⟩ :: items, listed)
      | some n, none =>
          let (inner, listed) := if n.isDirectory then enter i path listed else ([], listed)
          let (items, listed) := listEntries t enter above rest listed
          (⟨path, .inl n⟩ :: inner ++ items, listed)

/-- Lists the directory at a place, down to a depth. -/
def listDirectory (t : Tree) : (depth : Nat) → Nat → String → Listed → List ListingItem × Listed
  | 0, _, _, listed => ([], listed)
  | depth + 1, i, path, listed =>
      let first := if path = "" then "/" else path
      listEntries t (listDirectory t depth) path ((t.entries? i).getD []) ((i, first) :: listed)

/-- The listing of a tree. Every directory is entered at most once, so that the number of nodes
bounds the depth. -/
def Tree.listing (t : Tree) : List ListingItem :=
  (listDirectory t (t.nodes.length + 1) Tree.root "" []).1

end HomeProvision.Machine
