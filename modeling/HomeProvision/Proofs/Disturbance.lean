import HomeProvision.Machine.Basic
import HomeProvision.Proofs.Contract
import HomeProvision.Proofs.Route

/-!
# Disturbed machines

A machine is disturbed when calls fail that it would have answered. A call that fails leaves it as
it is. The hook and the privilege controller may answer as they like and change the process, but no
file.

The rest of the module says what a call that goes well does to the tree: three calls create a node
under a free name (`CreatedAt`), five change a node without a change of names or of where links lead
(`SameShape`), and all others leave the tree alone.
-/

namespace HomeProvision

/-- The fault in a reply, if any. -/
def faultOf {α : Type} : Except Fault α → Option Fault
  | .ok _ => none
  | .error f => some f

/-- The fault that a call came back with, if any. -/
def Call.fault? (c : Call) : c.Reply → Option Fault :=
  match c with
  | .lookupUser _ | .realUid | .effectiveUid | .effectiveGid | .log _ => fun _ => none
  | .stat _ | .lstat _ | .mkdir _ _ | .chown _ _ _ | .lchown _ _ _ | .chmod _ _ | .umask _
  | .openRead _ | .openExclusive _ _ | .read _ _ | .write _ _ | .truncate _ _ | .close _
  | .readlink _ | .symlink _ _ | .list _ | .readFile _ | .setEffectiveUid _ | .setEffectiveGid _
  | .elevate | .relinquish | .pause => faultOf

/-- The reply of a call that comes back with a fault, if it can. -/
def Call.failing (c : Call) (f : Fault) : Option c.Reply :=
  match c with
  | .lookupUser _ | .realUid | .effectiveUid | .effectiveGid | .log _ => none
  | .stat _ | .lstat _ | .mkdir _ _ | .chown _ _ _ | .lchown _ _ _ | .chmod _ _ | .umask _
  | .openRead _ | .openExclusive _ _ | .read _ _ | .write _ _ | .truncate _ _ | .close _
  | .readlink _ | .symlink _ _ | .list _ | .readFile _ | .setEffectiveUid _ | .setEffectiveGid _
  | .elevate | .relinquish | .pause => some (.error f)

theorem Call.fault?_failing {c : Call} {f : Fault} {r : c.Reply} (h : c.failing f = some r) :
    c.fault? r = some f := by
  cases c <;> cases h <;> rfl

/-- Whether a call goes to code of the caller. -/
def Call.isForeign : Call → Bool
  | .elevate | .relinquish | .pause => true
  | _ => false

/-- Whether a call may change the tree. -/
def Call.changesTree : Call → Bool
  | .mkdir _ _ | .chown _ _ _ | .lchown _ _ _ | .chmod _ _ | .openExclusive _ _ | .write _ _
  | .truncate _ _ | .symlink _ _ => true
  | _ => false

/-- Whether a call may open or close files or move within them. -/
def Call.changesFiles : Call → Bool
  | .openRead _ | .openExclusive _ _ | .read _ _ | .close _ => true
  | _ => false

namespace Machine

/-- A machine whose files are those of another, seen from the same directory. -/
structure SameFiles (m m' : Machine) : Prop where
  tree : m'.tree = m.tree
  current : m'.current = m.current
  descriptors : m'.descriptors = m.descriptors

/-- What may happen on a disturbed machine. Calls that are spared do not fail for no reason. -/
inductive Disturbed (spared : Call → Prop) : (c : Call) → Machine → c.Reply → Machine → Prop
  | answered (c : Call) (m : Machine) : Disturbed spared c m (m.reply c).1 (m.reply c).2
  | failed {c : Call} {r : c.Reply} (m : Machine) (exposed : ¬ spared c)
      (fails : (c.fault? r).isSome = true) : Disturbed spared c m r m
  | foreign {c : Call} {m m' : Machine} (r : c.Reply) (foreign : c.isForeign = true)
      (same : SameFiles m m') : Disturbed spared c m r m'

theorem layer_keepsTo (spared : Call → Prop) : layer.KeepsTo (Disturbed spared) id :=
  fun c m => .answered c m

/-- Whether a call changes an owner. -/
def givesAway : Call → Bool
  | .chown _ _ _ | .lchown _ _ _ => true
  | _ => false

/-- A machine on which some calls fail, always with the same fault. -/
def refusing (refuses : Call → Bool) (f : Fault) : Layer Machine where
  reply c m :=
    match if refuses c then c.failing f else none with
    | some r => (r, m)
    | none => m.reply c

theorem refusing_keepsTo {spared : Call → Prop} {refuses : Call → Bool} {f : Fault}
    (exposed : ∀ c, refuses c = true → ¬ spared c) :
    (refusing refuses f).KeepsTo (Disturbed spared) id := by
  intro c m
  unfold refusing
  dsimp only
  split
  · next r failing =>
    split at failing
    · next refused =>
      exact .failed m (exposed c refused) (by rw [Call.fault?_failing failing]; rfl)
    · cases failing
  · exact .answered c m

/-- A machine on which calls fail as they are told to, in each state. -/
def failing (fault : Call → Machine → Option Fault) : Layer Machine where
  reply c m :=
    match (fault c m).bind c.failing with
    | some r => (r, m)
    | none => m.reply c

theorem failing_reply (fault : Call → Machine → Option Fault) (c : Call) (m : Machine) :
    (failing fault).reply c m = m.reply c ∨
      ∃ r, (failing fault).reply c m = (r, m) ∧ (c.fault? r).isSome = true := by
  unfold failing
  dsimp only
  split
  · next r fails =>
    obtain ⟨f, _, fails⟩ := Option.bind_eq_some_iff.mp fails
    exact .inr ⟨r, rfl, by rw [Call.fault?_failing fails]; rfl⟩
  · exact .inl rfl

namespace SameFiles

theorem refl (m : Machine) : SameFiles m m :=
  ⟨rfl, rfl, rfl⟩

theorem trans {m m' m'' : Machine} (h : SameFiles m m') (h' : SameFiles m' m'') : SameFiles m m'' :=
  ⟨h'.tree.trans h.tree, h'.current.trans h.current, h'.descriptors.trans h.descriptors⟩

end SameFiles

/-! ## Changes that keep the shape of a tree -/

namespace Tree

variable {t t' : Tree} {i : Nat}

/-- Whether two trees have the same names, and links to the same places. -/
structure SameShape (t t' : Tree) : Prop where
  entries : ∀ i, t'.entries? i = t.entries? i
  targets : ∀ i, (t'.node? i).bind Node.target? = (t.node? i).bind Node.target?

namespace SameShape

theorem isDirectory (h : SameShape t t') (i : Nat) : t'.isDirectory i = t.isDirectory i := by
  unfold Tree.isDirectory
  rw [h.entries]

theorem child? (h : SameShape t t') (i : Nat) (name : String) :
    t'.child? i name = t.child? i name := by
  unfold Tree.child?
  rw [h.entries]

theorem walkWith (h : SameShape t t') {again again' : Place → Route → Except Errno Place}
    (same : again' = again) (follow : Bool) (p : Place) (components : List String)
    (directory : Bool) :
    t'.walkWith again' follow p components directory =
      t.walkWith again follow p components directory := by
  subst same
  induction components generalizing p with
  | nil => simp only [Tree.walkWith, h.isDirectory]
  | cons name rest ih => simp only [Tree.walkWith, h.isDirectory, h.child?, h.targets, ih]

theorem walk (h : SameShape t t') (follow : Bool) (links : Nat) :
    t'.walk follow links = t.walk follow links := by
  induction links with
  | zero =>
    funext p r
    unfold Tree.walk
    exact h.walkWith rfl follow p r.components r.directory
  | succ links ih =>
    funext p r
    unfold Tree.walk
    exact h.walkWith ih follow p r.components r.directory

theorem resolve (h : SameShape t t') (current : String) (follow : Bool) (path : String) :
    t'.resolve current follow path = t.resolve current follow path := by
  unfold Tree.resolve Tree.start Tree.resolveFrom
  simp only [h.walk]

theorem directoryAt (h : SameShape t t') (current path : String) :
    t'.directoryAt current path = t.directoryAt current path := by
  unfold Tree.directoryAt Tree.start Tree.resolveFrom
  simp only [h.walk]

/-- A change of one node that keeps its names and its target. -/
theorem modify {f : Node → Node} (entries : ∀ n, (f n).entries? = n.entries?)
    (targets : ∀ n, (f n).target? = n.target?) : SameShape t (t.modify i f) := by
  constructor
  · intro k
    unfold Tree.entries?
    rw [node?_modify]
    cases t.node? k with
    | none => rfl
    | some n => by_cases here : i = k <;> simp [here, entries]
  · intro k
    rw [node?_modify]
    cases t.node? k with
    | none => rfl
    | some n => by_cases here : i = k <;> simp [here, targets]

end SameShape

/-- The place that a walk to a directory starts from is a directory. -/
theorem isDirectory_of_walk_start {follow : Bool} {links : Nat} {p q : Place}
    {components : List String} (leads : t.walk follow links p ⟨components, true⟩ = .ok q) :
    t.isDirectory p.node = true := by
  cases components with
  | cons name rest => exact isDirectory_of_walk (List.cons_ne_nil name rest) leads
  | nil =>
    rw [walk_eq, walkWith_nil] at leads
    cases dir : t.isDirectory p.node with
    | true => rfl
    | false => simp [dir] at leads

/-- The spot of a path stays where it is when a tree grows. -/
theorem Grows.spot (h : Grows t t') {current path : String} {s : Spot}
    (found : t.spot current path = .ok s) : t'.spot current path = .ok s := by
  obtain ⟨valid, short, start, q, components, begins, split, leads, here⟩ := spot_eq_ok found
  have there : t.node? q.node ≠ none :=
    node?_ne_none_of_isDirectory ((walk_directory t _ _ _ true q).mp leads).2
  have begins' := h.start (isDirectory_of_walk_start leads) begins
  have leads' := h.walk there leads
  have fits : ¬ nameLimit < s.name.utf8ByteSize := Nat.not_lt.mpr short
  unfold Tree.spot
  rw [valid, begins', split]
  simp only [bind, Except.bind, List.dropLast_concat, List.getLast?_concat, leads', fits, if_false,
    here]
  rfl

end Tree

end Machine

end HomeProvision
