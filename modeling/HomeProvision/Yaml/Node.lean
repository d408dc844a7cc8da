import HomeProvision.Yaml.Tag
import HomeProvision.Yaml.TokenStream

/-!
# From tokens to a graph of nodes

A document is a graph, because an alias names a node that stands elsewhere, perhaps one around it.
Nodes are therefore kept in an array and refer to each other by their places in it.
-/

namespace HomeProvision.Yaml

open HomeProvision HomeProvision.Text

/-- The content of a node. -/
inductive Content where
  | scalar (text : List CodePoint)
  | sequence (items : List Nat)
  | mapping (entries : List (Nat × Nat))
  deriving Repr, DecidableEq

/-- A node: its kind and its content. -/
structure Node where
  tag : Tag
  content : Content
  deriving Repr, DecidableEq

/-- A document: its nodes and the place of the outermost one. -/
structure Graph where
  nodes : Array Node
  root : Nat
  deriving Repr

/-- The state of the reader of tokens. -/
structure Reader where
  rest : List Token
  /-- What to report when the tokens run out. -/
  mistake : DocumentError
  handles : List (String × String) := [("!", "!"), ("!!", Tag.standardStem)]
  anchors : List (String × Nat) := []
  nodes : Array Node := #[]

/-- A step of the reader of tokens. -/
abbrev Read := StateT Reader (Except DocumentError)

namespace Read

/-- The tokens form no document. -/
def refuse {α : Type} : Read α :=
  throw .malformed

/-- The next token. -/
def peek : Read Token := do
  let s ← get
  match s.rest with
  | t :: _ => return t
  | [] => throw s.mistake

/-- Passes over the next token. -/
def skip : Read Unit :=
  modify fun s => { s with rest := s.rest.tail }

/-- Whether the next token is one of the given ones. -/
def atAny (ts : List Token) : Read Bool := do
  return ts.contains (← peek)

/-- Passes over a token if it comes next, and says whether it did. -/
def skipIf (t : Token) : Read Bool := do
  if (← peek) = t then skip; return true else return false

/-- Adds a node. -/
def addNode (n : Node) : Read Nat := do
  let s ← get
  set { s with nodes := s.nodes.push n }
  return s.nodes.size

/-- Sets the content of a node. -/
def setContent (place : Nat) (content : Content) : Read Unit :=
  modify fun s => { s with nodes := s.nodes.modify place fun n => { n with content } }

/-- Lets an anchor name a node. -/
def bindAnchor (anchor : Option String) (place : Nat) : Read Unit :=
  match anchor with
  | none => pure ()
  | some name => modify fun s => { s with anchors := (name, place) :: s.anchors }

/-- An empty scalar where a node was left out. -/
def emptyNode : Read Nat :=
  addNode ⟨.null, .scalar []⟩

/-- An anchor and a tag before a node, in either order. -/
def properties : Read (Option String × Option (Option String × String)) := do
  match ← peek with
  | .anchor name =>
      skip
      match ← peek with
      | .tag handle suffix => skip; return (some name, some (handle, suffix))
      | _ => return (some name, none)
  | .tag handle suffix =>
      skip
      match ← peek with
      | .anchor name => skip; return (some name, some (handle, suffix))
      | _ => return (none, some (handle, suffix))
  | _ => return (none, none)

/-- The full tag that a handle and a suffix make. -/
def fullTag : Option String × String → Read String
  | (none, suffix) => return suffix
  | (some handle, suffix) => do
      match (← get).handles.lookup handle with
      | some stem => return stem ++ suffix
      | none => refuse

/-- The kind of a scalar: by its tag, by its spelling where it is plain or marked as untagged, and
else text. -/
def scalarTag (tag : Option String) (text : List CodePoint) (plain : Bool) : Tag :=
  let spelled := Tag.ofPlain (CodePoint.seenText text)
  match tag with
  | none => if plain then spelled else .text
  | some "!" => spelled
  | some name => .ofName name

/-- The kind of a collection: by its tag, if it has one. -/
def collectionTag (tag : Option String) (untagged : Tag) : Tag :=
  match tag with
  | none | some "!" => untagged
  | some name => .ofName name

/-- A collection: its place is known to its own items. -/
def collection (anchor : Option String) (tag : Tag) (empty : Content) (items : Read Content) :
    Read Nat := do
  let place ← addNode ⟨tag, empty⟩
  bindAnchor anchor place
  setContent place (← items)
  return place

mutual

/-- A node. Block collections count only if `block`, and a sequence without indentation of its own
only if `indentless`. -/
def node : (fuel : Nat) → (block indentless : Bool) → Read Nat
  | 0, _, _ => refuse
  | fuel + 1, block, indentless => do
      if let .alias name ← peek then
        skip
        match (← get).anchors.lookup name with
        | some place => return place
        | none => refuse
      else
        let (anchor, tag) ← properties
        let tag ← tag.mapM fullTag
        let sequence := collection anchor (collectionTag tag .sequence) (.sequence [])
        let mapping := collection anchor (collectionTag tag .mapping) (.mapping [])
        let next ← peek
        if let some name := anchor then
          if ((← get).anchors.lookup name).isSome then refuse
        if indentless && next = .blockEntry then
          sequence (.sequence <$> indentlessItems fuel)
        else
          match next with
          | .scalar text plain =>
              skip
              let place ← addNode ⟨scalarTag tag text plain, .scalar text⟩
              bindAnchor anchor place
              return place
          | .flowSequenceStart => skip; sequence (.sequence <$> flowItems fuel true)
          | .flowMappingStart => skip; mapping (.mapping <$> flowEntries fuel true)
          | .blockSequenceStart =>
              if block then skip; sequence (.sequence <$> blockItems fuel) else refuse
          | .blockMappingStart =>
              if block then skip; mapping (.mapping <$> blockEntries fuel) else refuse
          | _ =>
              if anchor.isSome || tag.isSome then
                let place ← addNode ⟨scalarTag tag [] true, .scalar []⟩
                bindAnchor anchor place
                return place
              else refuse

/-- The items of a block sequence. -/
def blockItems : (fuel : Nat) → Read (List Nat)
  | 0 => refuse
  | fuel + 1 => do
      if ← skipIf .blockEntry then
        let item ← itemUnless fuel [.blockEntry, .blockEnd]
        return item :: (← blockItems fuel)
      else if ← skipIf .blockEnd then return []
      else refuse

/-- The items of a sequence at the indentation of the mapping around it. -/
def indentlessItems : (fuel : Nat) → Read (List Nat)
  | 0 => refuse
  | fuel + 1 => do
      if ← skipIf .blockEntry then
        let item ← itemUnless fuel [.blockEntry, .key, .value, .blockEnd]
        return item :: (← indentlessItems fuel)
      else return []

/-- A block node, unless one of the given tokens shows that it was left out. -/
def itemUnless : (fuel : Nat) → (ends : List Token) → Read Nat
  | 0, _ => refuse
  | fuel + 1, ends => do
      if ← atAny ends then emptyNode else node fuel true false

/-- The entries of a block mapping. -/
def blockEntries : (fuel : Nat) → Read (List (Nat × Nat))
  | 0 => refuse
  | fuel + 1 => do
      if ← skipIf .key then
        let key ← blockPart fuel
        let value ← blockValue fuel
        return (key, value) :: (← blockEntries fuel)
      else if ← skipIf .blockEnd then return []
      else refuse

/-- A key or a value of a block mapping, after its mark. -/
def blockPart : (fuel : Nat) → Read Nat
  | 0 => refuse
  | fuel + 1 => do
      if ← atAny [.key, .value, .blockEnd] then emptyNode else node fuel true true

/-- The value after a key of a block mapping. -/
def blockValue : (fuel : Nat) → Read Nat
  | 0 => refuse
  | fuel + 1 => do
      if ← skipIf .value then blockPart fuel else emptyNode

/-- The items of a flow sequence; a key among them makes a mapping of one entry. -/
def flowItems : (fuel : Nat) → (first : Bool) → Read (List Nat)
  | 0, _ => refuse
  | fuel + 1, first => do
      if ← skipIf .flowSequenceEnd then return []
      if !first then
        if !(← skipIf .flowEntry) then refuse
      if ← skipIf .key then
        let pair ← collection none .mapping (.mapping []) do
          let key ← flowPart fuel [.value, .flowEntry, .flowSequenceEnd]
          let value ← flowValue fuel [.flowEntry, .flowSequenceEnd]
          return .mapping [(key, value)]
        return pair :: (← flowItems fuel false)
      else if ← skipIf .flowSequenceEnd then return []
      else
        let item ← node fuel false false
        return item :: (← flowItems fuel false)

/-- The entries of a flow mapping; a node without a mark is a key with an empty value. -/
def flowEntries : (fuel : Nat) → (first : Bool) → Read (List (Nat × Nat))
  | 0, _ => refuse
  | fuel + 1, first => do
      if ← skipIf .flowMappingEnd then return []
      if !first then
        if !(← skipIf .flowEntry) then refuse
      if ← skipIf .key then
        let key ← flowPart fuel [.value, .flowEntry, .flowMappingEnd]
        let value ← flowValue fuel [.flowEntry, .flowMappingEnd]
        return (key, value) :: (← flowEntries fuel false)
      else if ← skipIf .flowMappingEnd then return []
      else
        let key ← node fuel false false
        let value ← emptyNode
        return (key, value) :: (← flowEntries fuel false)

/-- A flow node, unless one of the given tokens shows that it was left out. -/
def flowPart : (fuel : Nat) → (ends : List Token) → Read Nat
  | 0, _ => refuse
  | fuel + 1, ends => do
      if ← atAny ends then emptyNode else node fuel false false

/-- The value after a key in a flow collection. -/
def flowValue : (fuel : Nat) → (ends : List Token) → Read Nat
  | 0, _ => refuse
  | fuel + 1, ends => do
      if ← skipIf .value then flowPart fuel ends else emptyNode

end

/-- Passes over the marks of document ends. -/
def skipDocumentEnds : (fuel : Nat) → Read Unit
  | 0 => refuse
  | fuel + 1 => do
      if ← skipIf .documentEnd then skipDocumentEnds fuel

/-- The directives before a document: at most one version, whose first number is 1, and tag handles
that differ. They replace the given handles. -/
def directives : (fuel : Nat) → (versioned : Bool) → (handles : List (String × String)) → Read Unit
  | 0, _, _ => refuse
  | fuel + 1, versioned, handles => do
      match ← peek with
      | .directive (.version major) =>
          skip
          if versioned || major ≠ 1 then refuse
          directives fuel true handles
      | .directive (.tagHandle handle stem) =>
          skip
          if (handles.lookup handle).isSome then refuse
          directives fuel versioned ((handle, stem) :: handles)
      | .directive .other =>
          skip
          directives fuel versioned handles
      | _ => modify fun s => { s with handles := handles ++ s.handles }

/-- The only document of a stream, if there is one. Directives that open a second one are read, too,
before it is refused. -/
def document (fuel : Nat) : Read (Option Nat) := do
  let next ← peek
  let implicit :=
    match next with
    | .directive _ | .documentStart | .streamEnd => false
    | _ => true
  let root ←
    if implicit then some <$> node fuel true false
    else if next = .streamEnd then pure none
    else
      directives fuel false []
      if !(← skipIf .documentStart) then refuse
      match ← peek with
      | .directive _ | .documentStart | .documentEnd | .streamEnd => some <$> emptyNode
      | _ => some <$> node fuel true false
  skipDocumentEnds fuel
  if (← peek) = .streamEnd then return root
  else
    directives fuel false []
    refuse

end Read

/-- The graph of a text, or nothing where the text holds no document. -/
def Graph.ofText (text : List Char) : Except DocumentError (Option Graph) := do
  if !text.all isDocumentChar then throw .malformed
  let stream := TokenStream.ofText text
  let reader : Reader := { rest := stream.tokens, mistake := stream.mistake }
  let (root, reader) ← (Read.document (4 * stream.tokens.length + 8)).run reader
  return root.map fun root => { nodes := reader.nodes, root }

end HomeProvision.Yaml
