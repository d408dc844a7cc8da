import HomeProvision.Data.SetOrder
import HomeProvision.Yaml.Node
import HomeProvision.Yaml.ScalarValue

/-!
# From the graph to values

Nodes are checked in order of their distance from the root, and the first one that has no value is
reported. Mappings take over the entries of the mappings that they merge before their own, and a
later entry replaces an earlier one with the same key. The value of a node is built on demand; a
collection that contains itself is shown by its brackets inside.
-/

namespace HomeProvision.Yaml

open HomeProvision HomeProvision.Data HomeProvision.Text

/-- Whether a kind is one of collections. -/
def Tag.isCollection : Tag → Bool
  | .sequence | .mapping | .set | .orderedMapping | .pairs => true
  | _ => false

/-- Whether a content is the text of a scalar. -/
def Content.isScalar : Content → Bool
  | .scalar _ => true
  | _ => false

/-- The items of a sequence, none in any other content. -/
def Content.items : Content → List Nat
  | .sequence items => items
  | _ => []

/-- The entries of a mapping, none in any other content. -/
def Content.entries : Content → List (Nat × Nat)
  | .mapping entries => entries
  | _ => []

/-! ## Checking -/

/-- The state of the builder. -/
structure Builder where
  nodes : Array Node
  /-- The values of scalars that have been reached. -/
  values : Array (Option Value)
  /-- Whether a node has been reached. -/
  seen : Array Bool
  /-- The collections whose items are still to be reached, the last one first. -/
  pending : List Nat := []

/-- A step of the builder. -/
abbrev Build := StateT Builder (Except DocumentError)

namespace Build

/-- A node that has no value. -/
def refuse {α : Type} : Build α :=
  throw .malformed

/-- A node by its place. -/
def nodeAt (place : Nat) : Build Node := do
  match (← get).nodes[place]? with
  | some n => return n
  | none => refuse

/-- The items of a sequence. -/
def itemsAt (place : Nat) : Build (List Nat) := do
  match (← nodeAt place).content with
  | .sequence items => return items
  | _ => refuse

/-- The entries of a mapping. -/
def entriesAt (place : Nat) : Build (List (Nat × Nat)) := do
  match (← nodeAt place).content with
  | .mapping entries => return entries
  | _ => refuse

/-- Sets the entries of a mapping. -/
def setEntries (place : Nat) (entries : List (Nat × Nat)) : Build Unit :=
  modify fun s =>
    { s with nodes := s.nodes.modify place fun n => { n with content := .mapping entries } }

/-- Sets the kind of a node. -/
def setTag (place : Nat) (tag : Tag) : Build Unit :=
  modify fun s => { s with nodes := s.nodes.modify place fun n => { n with tag } }

/-- The text of a scalar. A mapping stands for the scalar under its value mark. After more steps
than there are nodes, a mapping leads back to itself. -/
def scalarText : (fuel : Nat) → (place : Nat) → Build (List CodePoint)
  | 0, _ => throw .endlessScalar
  | fuel + 1, place => do
      match (← nodeAt place).content with
      | .scalar text => return text
      | .sequence _ => refuse
      | .mapping entries =>
          let nodes := (← get).nodes
          match entries.find? fun entry => (nodes[entry.1]?.map (·.tag)) = some .default with
          | some entry => scalarText fuel entry.2
          | none => refuse

/-- The value of a scalar at a place. A mapping cannot stand for a timestamp. -/
def scalarValue (place : Nat) : Build Value := do
  let n ← nodeAt place
  let text ← scalarText ((← get).nodes.size + 1) place
  if n.tag = .timestamp && !n.content.isScalar then throw .collectedTimestamp
  let value ← (ScalarValue.ofText n.tag text : Except DocumentError Value)
  return value.withSource (place + 1)

/-- Reaches a node: a scalar is given its value, and the items of a collection are put off. -/
def reach (place : Nat) : Build Unit := do
  if (← get).seen.getD place true then return
  modify fun s => { s with seen := s.seen.set! place true }
  if (← nodeAt place).tag.isCollection then
    modify fun s => { s with pending := place :: s.pending }
  else
    let value ← scalarValue place
    modify fun s => { s with values := s.values.set! place (some value) }

/-- The first merge mark among the entries `rest` of a mapping, the first of which has the given
index: its own index and the node to merge. The value marks among the keys before it are given the
kind of text. -/
def nextMerge (index : Nat) : (rest : List (Nat × Nat)) → Build (Option (Nat × Nat))
  | [] => return none
  | (key, value) :: rest => do
      match (← nodeAt key).tag with
      | .merge => return some (index, value)
      | .default =>
          setTag key .text
          nextMerge (index + 1) rest
      | _ => nextMerge (index + 1) rest

/-- Takes over the entries of the mappings that a mapping merges, from an index on, with `merged`
taken over so far. Each merge mark is taken out before its mappings are looked at, so that `fuel`
need only be greater than the number of merge marks. -/
def flattenFrom : (fuel : Nat) → (place index : Nat) → (merged : List (Nat × Nat)) → Build Unit
  | 0, _, _, _ => refuse
  | fuel + 1, place, index, merged => do
      match ← nextMerge index ((← entriesAt place).drop index) with
      | none => if !merged.isEmpty then setEntries place (merged ++ (← entriesAt place))
      | some (index, target) =>
          setEntries place ((← entriesAt place).eraseIdx index)
          let flat (place : Nat) : Build (List (Nat × Nat)) := do
            flattenFrom fuel place 0 []
            entriesAt place
          let more ←
            match (← nodeAt target).content with
            | .mapping _ => flat target
            | .sequence items => pure (← items.mapM flat).reverse.flatten
            | .scalar _ => refuse
          flattenFrom fuel place index (merged ++ more)

/-- The number of merge marks in the graph. -/
def mergeMarks : Build Nat := do
  let nodes := (← get).nodes
  let isMark (entry : Nat × Nat) : Bool := (nodes[entry.1]?.map (·.tag)) = some .merge
  return nodes.foldl (fun n node => n + node.content.entries.countP isMark) 0

/-- Reaches the key and the value of each entry of a mapping. A collection is no key. -/
def reachEntries (place : Nat) : Build Unit := do
  flattenFrom ((← mergeMarks) + 1) place 0 []
  for (key, value) in ← entriesAt place do
    reach key
    if (← nodeAt key).tag.isCollection then refuse
    reach value

/-- Reaches the parts of each item of a list of pairs. -/
def reachPairs (place : Nat) : Build Unit := do
  for item in ← itemsAt place do
    match ← entriesAt item with
    | [(key, value)] =>
        reach key
        reach value
    | _ => refuse

/-- Reaches what a collection holds. -/
def expand (place : Nat) : Build Unit := do
  match (← nodeAt place).tag with
  | .sequence =>
      for item in ← itemsAt place do
        reach item
  | .mapping | .set => reachEntries place
  | .orderedMapping | .pairs => reachPairs place
  | _ => refuse

/-- Reaches everything, one distance from the root after the other. -/
def reachAll : (fuel : Nat) → Build Unit
  | 0 => refuse
  | fuel + 1 => do
      let pending := (← get).pending
      if pending.isEmpty then return
      modify fun s => { s with pending := [] }
      for place in pending.reverse do
        expand place
      reachAll fuel

end Build

/-! ## Documents -/

/-- A document whose nodes have all been checked. -/
structure Document where
  nodes : Array Node
  /-- The values of its scalars. -/
  values : Array (Option Value)
  root : Nat

/-- What stands at a place at first sight. -/
inductive View where
  | scalar (v : Value)
  /-- A mapping, with its keys and the places of their values. -/
  | mapping (entries : List (Value × Nat))
  /-- Any other collection. -/
  | items (empty : Bool)

namespace Document

/-- The document of a graph. -/
def ofGraph (g : Graph) : Except DocumentError Document := do
  let size := g.nodes.size
  let start : Builder := {
    nodes := g.nodes
    values := Array.replicate size none
    seen := Array.replicate size false }
  let build : Build Unit := do
    Build.reach g.root
    Build.reachAll (size + 1)
  let (_, b) ← build.run start
  return { nodes := b.nodes, values := b.values, root := g.root }

/-- The document in a text, if there is one. -/
def ofText (text : List Char) : Except DocumentError (Option Document) := do
  (← Graph.ofText text).mapM ofGraph

variable (d : Document)

/-- The content of a node. -/
def content (place : Nat) : Content :=
  (d.nodes[place]?.map Node.content).getD (.scalar [])

/-- The kind of a node. -/
def tag (place : Nat) : Tag :=
  (d.nodes[place]?.map Node.tag).getD .null

/-- The value of a scalar. -/
def scalar (place : Nat) : Value :=
  (d.values.getD place none).getD .null

/-- The keys of a mapping, each where it stands first, with the places of their last values. -/
def entries (place : Nat) : List (Value × Nat) :=
  (d.content place).entries.foldl (fun es entry => Value.assign (d.scalar entry.1) entry.2 es) []

/-- What stands at a place at first sight. -/
def view (place : Nat) : View :=
  match d.tag place with
  | .mapping => .mapping (d.entries place)
  | .set => .items (d.entries place).isEmpty
  | .sequence | .orderedMapping | .pairs => .items (d.content place).items.isEmpty
  | _ => .scalar (d.scalar place)

/-- The value at a place inside the collections `around`, which are at most `fuel` fewer than the
nodes. -/
def valueWithin : (fuel : Nat) → (around : List Nat) → (place : Nat) → Value
  | 0, _, _ => .null
  | fuel + 1, around, place =>
      let inner (place' : Nat) : Value := valueWithin fuel (place :: around) place'
      let isInside := around.contains place
      match d.tag place with
      | .mapping =>
          if isInside then .again "\x7b...\x7d"
          else .mapping ((d.entries place).map fun entry => (entry.1, inner entry.2))
      | .set => .set (Value.inSetOrder ((d.entries place).map (·.1)))
      | .sequence =>
          if isInside then .again "[...]" else .list ((d.content place).items.map inner)
      | .orderedMapping | .pairs =>
          if isInside then .again "[...]"
          else
            .pairs ((d.content place).items.flatMap fun item =>
              (d.content item).entries.map fun entry => (inner entry.1, inner entry.2))
      | _ => d.scalar place

/-- The value at a place. -/
def value (place : Nat) : Value :=
  d.valueWithin (d.nodes.size + 1) [] place

end Document

end HomeProvision.Yaml
