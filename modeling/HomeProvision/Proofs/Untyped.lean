import HomeProvision.Proofs.Building
import HomeProvision.Proofs.Loaded

/-!
# Integers and texts

The builder of documents keeps integers as they are spelled, so that the kind of a node tells
nothing about its value if it is an integer or a text. Taking every integer of a graph for a text
therefore changes nothing in what the builder does but the kinds that it passes over
(`ofGraph_untyped`), and nothing in the settings that are read (`Settings.ofDocument_untyped`). This
holds of graphs that are refused, too: they are refused for the same reason.
-/

namespace HomeProvision.Yaml

open HomeProvision HomeProvision.Data HomeProvision.Text

/-! ## Without the type of integers -/

/-- The kind with integers taken for texts. -/
def Tag.untyped : Tag → Tag
  | .int => .text
  | tag => tag

/-- A node that is a text where it was an integer. -/
def Node.untyped (n : Node) : Node :=
  { n with tag := n.tag.untyped }

/-- A graph whose integers are texts. -/
def Graph.untyped (g : Graph) : Graph :=
  { g with nodes := g.nodes.map Node.untyped }

/-- A builder at work on a graph whose integers are texts. -/
def Builder.untyped (b : Builder) : Builder :=
  { b with nodes := b.nodes.map Node.untyped }

/-- A document whose integers are texts. -/
def Document.untyped (d : Document) : Document :=
  { d with nodes := d.nodes.map Node.untyped }

@[simp] theorem Node.untyped_content (n : Node) : n.untyped.content = n.content := rfl

@[simp] theorem Builder.untyped_values (b : Builder) : b.untyped.values = b.values := rfl

@[simp] theorem Builder.untyped_seen (b : Builder) : b.untyped.seen = b.seen := rfl

@[simp] theorem Builder.untyped_pending (b : Builder) : b.untyped.pending = b.pending := rfl

@[simp] theorem Builder.untyped_size (b : Builder) : b.untyped.nodes.size = b.nodes.size :=
  Array.size_map

/-- Kinds that are told apart by nothing but being integers or texts. -/
theorem Tag.untyped_eq_iff {t t' : Tag} (other : t' ≠ .int) (other' : t' ≠ .text) :
    t.untyped = t' ↔ t = t' := by
  cases t <;> simp [Tag.untyped, other.symm, other'.symm]

@[simp] theorem Tag.untyped_isCollection (t : Tag) : t.untyped.isCollection = t.isCollection := by
  cases t <;> rfl

theorem untyped_tag_eq_iff {nodes : Array Node} {place : Nat} {t : Tag} (other : t ≠ .int)
    (other' : t ≠ .text) :
    ((nodes.map Node.untyped)[place]?.map (·.tag)) = some t ↔
      (nodes[place]?.map (·.tag)) = some t := by
  rw [Array.getElem?_map]
  cases nodes[place]? with
  | none => simp
  | some n => simpa [Node.untyped] using Tag.untyped_eq_iff other other'

theorem untyped_modify (nodes : Array Node) (place : Nat) {f : Node → Node}
    (apart : ∀ n, f n.untyped = (f n).untyped) :
    (nodes.map Node.untyped).modify place f = (nodes.modify place f).map Node.untyped := by
  apply Array.ext_getElem?
  intro i
  simp only [Array.getElem?_modify, Array.getElem?_map]
  split
  · cases nodes[i]? <;> simp [apart]
  · rfl

namespace Build

/-! ## Building -/

variable {α β : Type}

/-- Whether a step on nodes whose integers are texts does what another one does on the nodes as they
are. -/
def Mirrors (m m' : Build α) : Prop :=
  ∀ b, m'.run b.untyped = (m.run b).map fun r => (r.1, r.2.untyped)

/-- Whether a step does the same where integers are texts. -/
def Blind (m : Build α) : Prop :=
  Mirrors m m

namespace Mirrors

theorem bind {m m' : Build α} {k k' : α → Build β} (first : Mirrors m m')
    (onward : ∀ a, Mirrors (k a) (k' a)) : Mirrors (m >>= k) (m' >>= k') := by
  intro b
  rw [StateT.run_bind, StateT.run_bind, first b]
  cases m.run b with
  | error e => rfl
  | ok r => exact onward r.1 r.2

theorem get_bind {k k' : Builder → Build β}
    (onward : ∀ b : Builder, Mirrors (k b) (k' b.untyped)) : Mirrors (get >>= k) (get >>= k') :=
  fun b => onward b b

theorem nodeAt_bind {place : Nat} {k k' : Node → Build β}
    (onward : ∀ n : Node, Mirrors (k n) (k' n.untyped)) :
    Mirrors (nodeAt place >>= k) (nodeAt place >>= k') := by
  intro b
  have found : (nodeAt place).run b.untyped =
      ((nodeAt place).run b).map fun r => (r.1.untyped, r.2.untyped) := by
    rw [nodeAt_run, nodeAt_run, show b.untyped.nodes = b.nodes.map Node.untyped from rfl,
      Array.getElem?_map]
    cases b.nodes[place]? <;> rfl
  rw [StateT.run_bind, StateT.run_bind, found]
  cases (nodeAt place).run b with
  | error e => rfl
  | ok r => exact onward r.1 r.2

end Mirrors

namespace Blind

theorem done (a : α) : Blind (pure a) :=
  fun _ => rfl

theorem refused : Blind (refuse : Build α) :=
  fun _ => rfl

theorem modifies {f : Builder → Builder} (same : ∀ b, f b.untyped = (f b).untyped) :
    Blind (modify f) :=
  fun b => congrArg (fun b => Except.ok ((), b)) (same b)

theorem itemsAt (place : Nat) : Blind (itemsAt place) := by
  refine .nodeAt_bind fun n => ?_
  rw [Node.untyped_content]
  split
  · exact done _
  · exact refused

theorem entriesAt (place : Nat) : Blind (entriesAt place) := by
  refine .nodeAt_bind fun n => ?_
  rw [Node.untyped_content]
  split
  · exact done _
  · exact refused

/-- A change of a node that leaves it an integer or not. -/
theorem modifiesNode {f : Node → Node} (place : Nat) (apart : ∀ n, f n.untyped = (f n).untyped) :
    Blind (modify fun s => { s with nodes := s.nodes.modify place f }) :=
  modifies fun b => congrArg (fun nodes => { b with nodes }) (untyped_modify b.nodes place apart)

theorem setEntries (place : Nat) (entries : List (Nat × Nat)) : Blind (setEntries place entries) :=
  modifiesNode place fun _ => rfl

theorem setTag (place : Nat) : Blind (setTag place .text) :=
  modifiesNode place fun _ => rfl

theorem scalarText (fuel place : Nat) : Blind (scalarText fuel place) := by
  induction fuel generalizing place with
  | zero => exact fun _ => rfl
  | succ fuel ih =>
    refine .nodeAt_bind fun n => ?_
    rw [Node.untyped_content]
    split
    · exact done _
    · exact refused
    · refine .get_bind fun b => ?_
      simp only [Builder.untyped, untyped_tag_eq_iff (t := .default) nofun nofun]
      split
      · exact ih _
      · exact refused

theorem scalarValue (place : Nat) : Blind (scalarValue place) := by
  refine .nodeAt_bind fun n => .get_bind fun b => ?_
  rw [Builder.untyped_size]
  refine Mirrors.bind (scalarText _ _) fun text => ?_
  have value : ScalarValue.ofText n.untyped.tag text = ScalarValue.ofText n.tag text := by
    change ScalarValue.ofText n.tag.untyped text = _
    cases n.tag <;> rfl
  have timed : n.untyped.tag = .timestamp ↔ n.tag = .timestamp := Tag.untyped_eq_iff nofun nofun
  rw [value, Node.untyped_content]
  simp only [timed]
  split
  · exact fun _ => rfl
  · refine Mirrors.bind (fun b => ?_) fun v => done _
    cases ScalarValue.ofText n.tag text <;> rfl

theorem reach (place : Nat) : Blind (reach place) := by
  refine .get_bind fun b => ?_
  rw [Builder.untyped_seen]
  split
  · exact done _
  · refine Mirrors.bind (modifies fun _ => rfl) fun _ => .nodeAt_bind fun n => ?_
    change Mirrors _ (if n.tag.untyped.isCollection then _ else _)
    rw [Tag.untyped_isCollection]
    split
    · exact modifies fun _ => rfl
    · exact Mirrors.bind (scalarValue place) fun _ => modifies fun _ => rfl

theorem nextMerge (index : Nat) (rest : List (Nat × Nat)) : Blind (nextMerge index rest) := by
  induction rest generalizing index with
  | nil => exact done _
  | cons entry rest ih =>
    obtain ⟨key, value⟩ := entry
    refine .nodeAt_bind fun ⟨tag, content⟩ => ?_
    cases tag with
    | merge => exact done _
    | default => exact Mirrors.bind (setTag key) fun _ => ih _
    | _ => exact ih _

theorem mapM {f : α → Build β} (each : ∀ a, Blind (f a)) (as : List α) : Blind (as.mapM f) := by
  induction as with
  | nil => exact done _
  | cons a as ih =>
    rw [List.mapM_cons]
    exact Mirrors.bind (each a) fun _ => Mirrors.bind ih fun _ => done _

theorem flattenFrom (fuel place index : Nat) (merged : List (Nat × Nat)) :
    Blind (flattenFrom fuel place index merged) := by
  induction fuel generalizing place index merged with
  | zero => exact refused
  | succ fuel ih =>
    have flat : ∀ place, Blind (do Build.flattenFrom fuel place 0 []; Build.entriesAt place) :=
      fun place => Mirrors.bind (ih _ _ _) fun _ => entriesAt _
    unfold Build.flattenFrom
    refine Mirrors.bind (entriesAt place) fun entries => Mirrors.bind (nextMerge _ _) fun next => ?_
    cases next with
    | none =>
      dsimp only
      split
      · exact Mirrors.bind (entriesAt place) fun _ => setEntries _ _
      · exact done _
    | some next =>
      obtain ⟨index', target⟩ := next
      refine Mirrors.bind (entriesAt place) fun _ => Mirrors.bind (setEntries _ _) fun _ =>
        .nodeAt_bind fun n => ?_
      rw [Node.untyped_content]
      split
      · exact Mirrors.bind (flat target) fun _ => ih _ _ _
      · exact Mirrors.bind (mapM flat _) fun _ => ih _ _ _
      · exact Mirrors.bind refused fun _ => ih _ _ _

theorem mergeMarks : Blind mergeMarks := by
  refine .get_bind fun b => ?_
  simp only [Builder.untyped, untyped_tag_eq_iff (t := .merge) nofun nofun, Array.foldl_map,
    Node.untyped_content]
  exact done _

/-- A loop over a list. -/
theorem forIn {f : α → PUnit → Build (ForInStep PUnit)} (each : ∀ a u, Blind (f a u)) (as : List α)
    (u : PUnit) : Blind (ForIn.forIn as u f) := by
  induction as generalizing u with
  | nil => exact done _
  | cons a as ih =>
    rw [List.forIn_cons]
    refine Mirrors.bind (each a u) fun r => ?_
    cases r with
    | done u => exact done _
    | yield u => exact ih u

theorem loop {f : α → PUnit → Build (ForInStep PUnit)} (each : ∀ a u, Blind (f a u)) (as : List α) :
    Blind (do let _ ← ForIn.forIn as PUnit.unit f; pure PUnit.unit) :=
  Mirrors.bind (forIn each as _) fun _ => done _

theorem reachEntries (place : Nat) : Blind (reachEntries place) := by
  refine Mirrors.bind mergeMarks fun marks => Mirrors.bind (flattenFrom _ _ _ _) fun _ =>
    Mirrors.bind (entriesAt place) fun entries => loop (fun entry _ => ?_) entries
  refine Mirrors.bind (reach _) fun _ => .nodeAt_bind fun n => ?_
  change Mirrors _ (if n.tag.untyped.isCollection then _ else _)
  rw [Tag.untyped_isCollection]
  split
  · exact Mirrors.bind refused fun _ => Mirrors.bind (reach _) fun _ => done _
  · exact Mirrors.bind (reach _) fun _ => done _

theorem reachPairs (place : Nat) : Blind (reachPairs place) := by
  refine Mirrors.bind (itemsAt place) fun items => loop (fun item _ => ?_) items
  refine Mirrors.bind (entriesAt item) fun entries => ?_
  split
  · exact Mirrors.bind (reach _) fun _ => Mirrors.bind (reach _) fun _ => done _
  · exact Mirrors.bind refused fun _ => done _

theorem expand (place : Nat) : Blind (expand place) := by
  refine .nodeAt_bind fun ⟨tag, content⟩ => ?_
  cases tag with
  | sequence =>
    exact Mirrors.bind (itemsAt place) fun items =>
      loop (fun item _ => Mirrors.bind (reach item) fun _ => done _) items
  | mapping | set => exact reachEntries place
  | orderedMapping | pairs => exact reachPairs place
  | _ => exact refused

theorem reachAll (fuel : Nat) : Blind (reachAll fuel) := by
  induction fuel with
  | zero => exact refused
  | succ fuel ih =>
    refine .get_bind fun b => ?_
    rw [Builder.untyped_pending]
    dsimp only
    split
    · exact done _
    · refine Mirrors.bind (modifies fun _ => rfl) fun _ => Mirrors.bind ?_ fun _ => ih
      exact forIn (fun place _ => Mirrors.bind (expand place) fun _ => done _) _ _

end Blind

end Build

/-! ## Documents -/

/-- The document of a graph whose integers are texts. -/
theorem ofGraph_untyped (g : Graph) :
    Document.ofGraph g.untyped = (Document.ofGraph g).map Document.untyped := by
  have build : Build.Blind (do Build.reach g.root; Build.reachAll (g.nodes.size + 1)) :=
    Build.Mirrors.bind (Build.Blind.reach _) fun _ => Build.Blind.reachAll _
  have size : g.untyped.nodes.size = g.nodes.size := Array.size_map
  have built := build {
    nodes := g.nodes
    values := Array.replicate g.nodes.size none
    seen := Array.replicate g.nodes.size false }
  unfold Document.ofGraph
  dsimp only [Builder.untyped] at built ⊢
  rw [size, show g.untyped.root = g.root from rfl,
    show g.untyped.nodes = g.nodes.map Node.untyped from rfl, built]
  cases StateT.run (do Build.reach g.root; Build.reachAll (g.nodes.size + 1)) _ <;> rfl

namespace Document

variable (d : Document)

theorem untyped_content (place : Nat) : d.untyped.content place = d.content place := by
  unfold content untyped
  rw [Array.getElem?_map]
  cases d.nodes[place]? <;> rfl

theorem untyped_tag (place : Nat) : d.untyped.tag place = (d.tag place).untyped := by
  unfold tag untyped
  rw [Array.getElem?_map]
  cases d.nodes[place]? <;> rfl

theorem untyped_entries (place : Nat) : d.untyped.entries place = d.entries place := by
  unfold entries
  rw [untyped_content]
  rfl

theorem untyped_view (place : Nat) : d.untyped.view place = d.view place := by
  unfold view
  rw [untyped_tag, untyped_entries, untyped_content]
  cases d.tag place <;> rfl

theorem untyped_valueWithin (fuel : Nat) (around : List Nat) (place : Nat) :
    d.untyped.valueWithin fuel around place = d.valueWithin fuel around place := by
  induction fuel generalizing around place with
  | zero => rfl
  | succ fuel ih =>
    unfold valueWithin
    dsimp only
    simp only [untyped_tag, untyped_entries, untyped_content, ih]
    cases d.tag place <;> rfl

theorem untyped_value (place : Nat) : d.untyped.value place = d.value place := by
  unfold value
  rw [untyped_valueWithin]
  congr 2
  exact Array.size_map

end Document

end HomeProvision.Yaml

namespace HomeProvision.Settings

open HomeProvision.Yaml

theorem ofDocument_untyped (path : String) (d : Document) :
    ofDocument path d.untyped = ofDocument path d := by
  have value : d.untyped.value = d.value := funext d.untyped_value
  rw [ofDocument_eq, ofDocument_eq, Document.untyped_view]
  unfold ofPlace
  simp only [Document.untyped_view, value]
  rfl

end HomeProvision.Settings
