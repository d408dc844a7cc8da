import HomeProvision.Machine.Seed
import HomeProvision.Proofs.Status
import Mathlib.Data.List.Induction

/-!
# Paths below a directory

`Path.below dest names` is the path that names lead to from `dest`. `Tree.Reaches` says of a tree
that this path leads to the directory that the names lead to step by step, if it leads to a
directory at all: no link is on the way. What is created below such a path is reached in the same
way.
-/

namespace HomeProvision

/-! ## Texts -/

namespace Path

/-- The path that names lead to from a directory. -/
def below (dest : String) (names : List String) : String :=
  names.foldl join dest

/-- Whether texts can stand between slashes. -/
def AreComponents (names : List String) : Prop :=
  ∀ name ∈ names, IsComponent name

variable {dest name : String} {names names' : List String}

theorem below_snoc : below dest (names ++ [name]) = join (below dest names) name :=
  List.foldl_concat ..

theorem below_ne_empty (full : dest ≠ "") (own : ∀ name ∈ names, IsName name) :
    below dest names ≠ "" := by
  rcases List.eq_nil_or_concat' names with rfl | ⟨front, name, rfl⟩
  · exact full
  · rw [below_snoc]
    exact join_ne_empty (own name (by simp)).toIsComponent

theorem components_join_any {directory s : String} (h : IsComponent s) :
    components (join directory s) = components directory ++ [s] := by
  by_cases full : directory = ""
  · subst full
    rw [join_component h]
    simpa [components, pieces] using components_component h
  · exact components_join full h

theorem components_below (own : AreComponents names) :
    components (below dest names) = components dest ++ names := by
  induction names using List.reverseRecOn with
  | nil => simp [below]
  | append_singleton names name ih =>
    rw [below_snoc, components_join_any (own name (by simp)),
      ih fun n mem => own n (List.mem_append_left _ mem), List.append_assoc]

/-- Names below a directory are told by the path that they lead to. -/
theorem below_injective (own : AreComponents names) (own' : AreComponents names')
    (same : below dest names = below dest names') : names = names' := by
  have same := congrArg components same
  rw [components_below own, components_below own'] at same
  exact List.append_cancel_left same

end Path

namespace Machine.Tree

variable {t t' : Tree} {current path dest name : String} {names : List String} {follow : Bool}
  {p q : Place} {i : Nat}

/-! ## Names followed step by step -/

theorem locate_snoc (i : Nat) (names : List String) (name : String) :
    t.locate i (names ++ [name]) = (t.locate i names).bind fun j => t.child? j name := by
  induction names generalizing i with
  | nil =>
    simp only [List.nil_append, locate, Option.bind_some]
    cases t.child? i name <;> rfl
  | cons first rest ih =>
    simp only [List.cons_append, locate]
    cases t.child? i first with
    | none => rfl
    | some j => exact ih j

theorem Grows.locate (h : Grows t t') {j : Nat} (found : t.locate i names = some j) :
    t'.locate i names = some j := by
  induction names generalizing i with
  | nil => exact found
  | cons first rest ih =>
    simp only [Tree.locate] at found ⊢
    cases named : t.child? i first with
    | none => rw [named] at found; cases found
    | some k =>
      rw [named] at found
      rw [h.child? named]
      exact ih found

theorem SameShape.locate (h : SameShape t t') (i : Nat) (names : List String) :
    t'.locate i names = t.locate i names := by
  induction names generalizing i with
  | nil => rfl
  | cons first rest ih => simp only [Tree.locate, h.child?, ih]

/-! ## The last step of a path -/

/-- A path that leads somewhere has no name that is too long. -/
theorem short_of_walk_snoc {links : Nat} {components : List String} {directory : Bool}
    (own : Path.IsName name)
    (leads : t.walk follow links p ⟨components ++ [name], directory⟩ = .ok q) :
    name.utf8ByteSize ≤ nameLimit := by
  obtain ⟨r, first⟩ := walk_snoc_ok leads
  obtain ⟨dir, left, _, same⟩ := walk_append_ok (List.cons_ne_nil name []) first
  rw [same, walk_eq, walkWith_cons _ dir, if_neg own.ne_dot, if_neg own.ne_dots] at leads
  rcases Nat.lt_or_ge nameLimit name.utf8ByteSize with long | short
  · rw [if_pos long] at leads
    cases leads
  · exact short

/-- Where a path below a directory leads: the directory has the name, and unless it names a link
that is followed, the path leads to what it names. -/
theorem resolve_join_ok (full : path ≠ "") (own : Path.IsName name)
    (leads : t.resolve current follow (Path.join path name) = .ok p) :
    ∃ q i, t.directoryAt current path = .ok q ∧ t.child? q.node name = some i ∧
      t.resolve current false (Path.join path name) = .ok (q.step i) ∧
      ((t.node? i).bind Node.target? = none ∨ follow = false → p = q.step i) := by
  have component := own.toIsComponent
  obtain ⟨q, first⟩ := directoryAt_of_resolve_join full component leads
  cases valid : checkPath (Path.join path name) with
  | error e =>
    unfold resolve at leads
    rw [valid] at leads
    cases leads
  | ok _ =>
    -- the path leads somewhere, so nothing on it is too long
    have short : name.utf8ByteSize ≤ nameLimit := by
      have leads := leads
      rw [resolve_join_eq full component valid] at leads
      obtain ⟨start, _, leads⟩ := bind_eq_ok.mp leads
      exact short_of_walk_snoc own leads
    cases found : t.child? q.node name with
    | none =>
      rw [resolve_join_none full own valid short first found] at leads
      cases leads
    | some i =>
      refine ⟨q, i, first, found, resolve_join full own valid short first found (.inr rfl),
        fun noLink => ?_⟩
      rw [resolve_join full own valid short first found noLink] at leads
      cases leads
      rfl

/-- A path that names no link leads to what the directory above it names, followed or not. -/
theorem resolve_of_namesNoLink (full : path ≠ "") (own : Path.IsName name)
    (noLink : t.NamesNoLink current (Path.join path name))
    (leads : t.resolve current follow (Path.join path name) = .ok p) :
    ∃ q i, t.directoryAt current path = .ok q ∧ t.child? q.node name = some i ∧ p = q.step i := by
  obtain ⟨q, i, first, found, itself, onward⟩ := resolve_join_ok full own leads
  exact ⟨q, i, first, found, onward (.inl (noLink _ itself))⟩

/-! ## Directories below a directory -/

/-- Whether the path that names lead to leads to a directory only if the names lead to it step by
step, from the directory `home` on. -/
def Reaches (t : Tree) (current : String) (home : Option Nat) (dest : String)
    (names : List String) : Prop :=
  ∀ q, t.directoryAt current (Path.below dest names) = .ok q →
    ∃ i, home = some i ∧ t.locate i names = some q.node

/-- One more name keeps to directories, if it is none of a link. -/
theorem Reaches.snoc {home : Option Nat} (full : dest ≠ "")
    (proper : ∀ name ∈ names, Path.IsName name)
    (own : Path.IsName name) (h : t.Reaches current home dest names)
    (noLink : t.NamesNoLink current (Path.below dest (names ++ [name]))) :
    t.Reaches current home dest (names ++ [name]) := by
  intro r leads
  have leads := (directoryAt_eq_ok_iff.mp leads).1
  rw [Path.below_snoc] at leads noLink
  obtain ⟨q, j, first, found, rfl⟩ :=
    resolve_of_namesNoLink (Path.below_ne_empty full proper) own noLink leads
  obtain ⟨i, here, located⟩ := h q first
  refine ⟨i, here, ?_⟩
  rw [locate_snoc, located]
  exact found

/-- What a path below a directory leads to is what the names lead to, if it names no link. -/
theorem Reaches.locate {home : Option Nat} (full : dest ≠ "")
    (proper : ∀ name ∈ names, Path.IsName name) (own : Path.IsName name)
    (h : t.Reaches current home dest names)
    (noLink : follow = false ∨ t.NamesNoLink current (Path.below dest (names ++ [name])))
    (leads : t.resolve current follow (Path.below dest (names ++ [name])) = .ok p) :
    ∃ i, home = some i ∧ t.locate i (names ++ [name]) = some p.node := by
  rw [Path.below_snoc] at leads noLink
  obtain ⟨q, j, first, found, itself, onward⟩ :=
    resolve_join_ok (Path.below_ne_empty full proper) own leads
  have same : p = q.step j :=
    onward (noLink.elim .inr fun noLink => .inl (noLink _ itself))
  obtain ⟨i, here, located⟩ := h q first
  refine ⟨i, here, ?_⟩
  rw [locate_snoc, located, same]
  exact found

theorem SameShape.reaches {home : Option Nat} (same : SameShape t t')
    (h : t.Reaches current home dest names) : t'.Reaches current home dest names := by
  intro q leads
  rw [same.directoryAt] at leads
  obtain ⟨i, here, located⟩ := h q leads
  exact ⟨i, here, (same.locate i names).trans located⟩

/-- A directory that a path leads to is still reached when the tree has grown. -/
theorem Grows.reaches {home : Option Nat} (grows : Grows t t')
    (there : t.directoryAt current (Path.below dest names) = .ok q)
    (h : t.Reaches current home dest names) : t'.Reaches current home dest names := by
  intro r leads
  rw [grows.directoryAt there] at leads
  cases leads
  obtain ⟨i, here, located⟩ := h q there
  exact ⟨i, here, grows.locate located⟩

/-- Where a path leads to a directory, so do the paths above it. -/
theorem directoryAt_of_isPrefix {above : List String} (full : dest ≠ "")
    (proper : ∀ name ∈ names, Path.IsName name) (shorter : above <+: names)
    (leads : t.directoryAt current (Path.below dest names) = .ok q) :
    ∃ r, t.directoryAt current (Path.below dest above) = .ok r := by
  obtain ⟨rest, rfl⟩ := shorter
  induction rest using List.reverseRecOn generalizing q with
  | nil => exact ⟨q, by simpa using leads⟩
  | append_singleton rest name ih =>
    rw [← List.append_assoc] at leads proper
    have upper : ∀ name ∈ above ++ rest, Path.IsName name :=
      fun n mem => proper n (List.mem_append_left _ mem)
    have leads := (directoryAt_eq_ok_iff.mp leads).1
    rw [Path.below_snoc] at leads
    obtain ⟨r, leads⟩ := directoryAt_of_resolve_join (Path.below_ne_empty full upper)
      (proper name (by simp)).toIsComponent leads
    exact ih upper leads

end Machine.Tree

/-! ## New nodes -/

namespace Machine.Created

variable {m m' : Machine} {dest path name : String} {names : List String} {bits : Nat}
  {s : Tree.Spot}

/-- What is created below a directory is created where the path above it leads. -/
theorem directoryAt {body : Body} (full : dest ≠ "")
    (proper : ∀ n ∈ names ++ [name], Path.IsName n)
    (made : Created m (Path.below dest (names ++ [name])) bits body s m') :
    ∃ q, m.tree.directoryAt m.current (Path.below dest names) = .ok q ∧ s = ⟨q.node, name⟩ := by
  have found := made.spot
  rw [Path.below_snoc] at found
  exact Tree.directoryAt_of_spot_join
    (Path.below_ne_empty full fun n mem => proper n (List.mem_append_left _ mem))
    (proper name (by simp)).toIsComponent found

/-- A directory that is created is no link. -/
theorem namesNoLink {entries : List (String × Nat)} {dots : Bool}
    (made : Created m path bits (.directory entries dots) s m') :
    m'.tree.NamesNoLink m'.current path := by
  intro p leads
  obtain ⟨above, there⟩ := made.resolve_new (.inl (by simp)) fun _ => ⟨_, _, rfl⟩
  rw [there] at leads
  cases leads
  rw [made.node?_new]
  rfl

end Machine.Created

end HomeProvision
