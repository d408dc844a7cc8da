import HomeProvision.Proofs.Evolution
import HomeProvision.Proofs.Height

/-!
# What calls add

No call takes a name away or makes it lead elsewhere, and a name that a call adds leads to a node
that was not there before. `Tree.Extends` says this of a tree and a later one, and `reply_extends`
of every call.

So a clone may be seen as work on two sides that do not meet: on the one side are the directories
that were reached from the source at the start, on the other those that were reached from the
destination, and all new ones. If names are added on the second side only, the first side stays as
it was (`Tree.Extends.child?_of_apart`).
-/

namespace HomeProvision.Machine

open Relation

theorem Node.entryType_mapEntries (f : List (String × Nat) → List (String × Nat)) (n : Node) :
    (n.mapEntries f).entryType = n.entryType := by
  unfold Node.mapEntries Node.entryType
  cases body : n.body <;> simp [body]

namespace Tree

variable {t t' t'' : Tree} {home : Option Nat} {i k d : Nat} {name : String}

/-- Whether a tree has the nodes and the names of an earlier one, and names for new nodes only. -/
structure Extends (t t' : Tree) : Prop where
  node : ∀ i n, t.node? i = some n →
    ∃ n', t'.node? i = some n' ∧ n'.entryType = n.entryType ∧ n'.target? = n.target?
  kept : ∀ i name k, t.child? i name = some k → t'.child? i name = some k
  fresh : ∀ i name k, t'.child? i name = some k → t.child? i name = some k ∨ t.node? k = none

namespace Extends

theorem refl (t : Tree) : t.Extends t where
  node := fun _ n here => ⟨n, here, rfl, rfl⟩
  kept := fun _ _ _ => id
  fresh := fun _ _ _ => .inl

theorem node_ne_none (h : t.Extends t') (there : t.node? i ≠ none) : t'.node? i ≠ none := by
  obtain ⟨n, here⟩ := Option.ne_none_iff_exists'.mp there
  obtain ⟨n', here', _⟩ := h.node i n here
  simp [here']

theorem trans (h : t.Extends t') (h' : t'.Extends t'') : t.Extends t'' where
  node := by
    intro i n here
    obtain ⟨n', here', type, target⟩ := h.node i n here
    obtain ⟨n'', here'', type', target'⟩ := h'.node i n' here'
    exact ⟨n'', here'', type'.trans type, target'.trans target⟩
  kept := fun i name k named => h'.kept i name k (h.kept i name k named)
  fresh := by
    intro i name k named
    rcases h'.fresh i name k named with named | new
    · exact h.fresh i name k named
    · exact .inr (not_not.mp fun there => h.node_ne_none there new)

theorem isDirectory_eq (h : t.Extends t') (there : t.node? i ≠ none) :
    t'.isDirectory i = t.isDirectory i := by
  obtain ⟨n, here⟩ := Option.ne_none_iff_exists'.mp there
  obtain ⟨n', here', type, _⟩ := h.node i n here
  have own : ∀ {t : Tree} {n : Node}, t.node? i = some n →
      (t.isDirectory i = true ↔ n.entryType = .directory) := by
    intro t n here
    rw [Node.entryType_eq_directory_iff, isDirectory_iff, here]
    simp
  exact Bool.eq_iff_iff.mpr (by rw [own here, own here', type])

/-- What a directory of the later tree names was named by it before, or is new. -/
theorem holds (h : t.Extends t') (named : ∀ i name k, t.child? i name = some k → t.node? k ≠ none)
    (holds : t'.Holds home i k) : t.Holds home i k ∨ t.node? k = none := by
  obtain ⟨⟨name, child⟩, dir, other⟩ := holds
  refine (h.fresh i name k child).imp_left fun child => ⟨⟨name, child⟩, ?_, other⟩
  rw [← h.isDirectory_eq (named i name k child)]
  exact dir

/-- What is reached in the later tree was reached before, or is new. -/
theorem reached (h : t.Extends t') (named : ∀ i name k, t.child? i name = some k → t.node? k ≠ none)
    (way : ReflTransGen (t'.Holds home) d k) :
    ReflTransGen (t.Holds home) d k ∨ t.node? k = none := by
  induction way with
  | refl => exact .inl .refl
  | tail _ last ih =>
    refine (h.holds named last).imp_left fun last => ?_
    rcases ih with way | new
    · exact way.tail last
    · -- a new node had no names
      obtain ⟨⟨name, child⟩, _⟩ := last
      exact absurd new (node?_ne_none_of_isDirectory (isDirectory_of_child? child))

theorem create {n : Node} (inside : i < t.nodes.length) (free : t.child? i name = none)
    (bare : n.entries?.getD [] = []) : t.Extends (t.create i name n) where
  node := by
    intro j own here
    obtain ⟨more, here', _⟩ := Grows.create (n := n) inside free j own here
    exact ⟨_, here', own.entryType_mapEntries _, own.mapEntries_target? _⟩
  kept := fun _ _ _ named => (Grows.create inside free).child? named
  fresh := by
    intro j x k named
    refine (child?_create inside bare named).imp_right ?_
    rintro ⟨_, _, rfl⟩
    exact node?_nextPlace

theorem modify {f : Node → Node} (entries : ∀ n, (f n).entries? = n.entries?)
    (targets : ∀ n, (f n).target? = n.target?) (types : ∀ n, (f n).entryType = n.entryType) :
    t.Extends (t.modify i f) where
  node := by
    intro j n here
    rw [node?_modify, here]
    refine ⟨_, rfl, ?_, ?_⟩
    · split
      · exact types n
      · rfl
    · split
      · exact targets n
      · rfl
  kept := fun j x k named => by rw [(SameShape.modify entries targets).child?]; exact named
  fresh := fun j x k named => by
    rw [(SameShape.modify entries targets).child?] at named
    exact .inl named

end Extends

end Tree

variable {m m' : Machine}

/-- What a call adds is new. -/
theorem reply_extends (c : Call) (m : Machine) : m.tree.Extends (m.reply c).2.tree := by
  refine reply_cases (motive := fun m' => m.tree.Extends m'.tree) c m (fun m' tree _ => ?_)
    (fun _ _ _ _ _ _ made _ bare tree _ => ?_) fun _ _ _ changed types => ?_
  · rw [tree]
    exact .refl _
  · rw [tree, made.tree]
    exact .create (Tree.lt_of_isDirectory made.isDirectory) made.free bare
  · rw [changed.tree]
    exact .modify changed.entries changed.targets types

/-- No call gives a directory a second name. -/
theorem reply_plain (c : Call) (m : Machine) (plain : m.tree.Plain) :
    (m.reply c).2.tree.Plain := by
  refine reply_cases (motive := fun m' => m'.tree.Plain) c m (fun m' tree _ => ?_)
    (fun _ _ _ _ _ _ made _ bare tree _ => ?_) fun _ _ _ changed _ => plain.changed changed
  · rw [tree]
    exact plain
  · rw [tree, made.tree]
    exact .create (Tree.lt_of_isDirectory made.isDirectory) bare plain

/-! ## A machine and a later one -/

/-- Whether a machine may become another by calls, the hook and failures. -/
structure Since (m m' : Machine) : Prop extends Evolves m m' where
  tree : m.tree.Extends m'.tree
  plain : m.tree.Plain → m'.tree.Plain

namespace Since

theorem of_sameTree (tree : m'.tree = m.tree) (current : m'.current = m.current) : Since m m' where
  toEvolves := .of_sameTree tree current
  tree := by rw [tree]; exact .refl _
  plain := fun plain => tree ▸ plain

theorem refl (m : Machine) : Since m m :=
  .of_sameTree rfl rfl

theorem trans {m'' : Machine} (h : Since m m') (h' : Since m' m'') : Since m m'' :=
  ⟨h.toEvolves.trans h'.toEvolves, h.tree.trans h'.tree, h'.plain ∘ h.plain⟩

theorem of_disturbed {spared : Call → Prop} {c : Call} {r : c.Reply}
    (step : Disturbed spared c m r m') : Since m m' := by
  cases step with
  | answered => exact ⟨reply_evolves c m, reply_extends c m, reply_plain c m⟩
  | failed => exact .refl m
  | foreign _ _ same => exact .of_sameTree same.tree same.current

/-- A path that leads to a directory leads there later, too. -/
theorem directoryAt (h : Since m m') {path : String} {p : Place}
    (leads : m.tree.directoryAt m.current path = .ok p) :
    m'.tree.directoryAt m'.current path = .ok p := by
  obtain ⟨resolved, dir⟩ := Tree.directoryAt_eq_ok_iff.mp leads
  have there := Tree.node?_ne_none_of_isDirectory dir
  rw [h.current]
  refine Tree.directoryAt_eq_ok_iff.mpr ⟨h.resolve true path p there resolved, ?_⟩
  rw [h.tree.isDirectory_eq there]
  exact dir

end Since

end HomeProvision.Machine
