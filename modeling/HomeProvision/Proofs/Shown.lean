import HomeProvision.Proofs.Growth
import HomeProvision.Proofs.Merge

/-!
# Trees that show a forest

`Shows t home entries F inside` says that the entries of a directory of the tree `t` make up the
forest `F`; `inside` lists the directories below. The directory `home` is the one that is being
filled: a forest has a hole in its place.

* `Shows.transport`: a forest is still there after a change outside of its directories.
* `Shows.focus`: a directory of a forest shows a forest of its own, and can get another one.
-/

namespace HomeProvision

open Machine

/-- Whether a node has attributes. -/
def Attributes.Fits (a : Attributes) (n : Node) : Prop :=
  n.mode = a.mode ∧ (∀ u ∈ a.owner, n.uid = u) ∧ ∀ g ∈ a.group, n.gid = g

instance (a : Attributes) (n : Machine.Node) : Decidable (a.Fits n) :=
  inferInstanceAs
    (Decidable (n.mode = a.mode ∧ (∀ u ∈ a.owner, n.uid = u) ∧ ∀ g ∈ a.group, n.gid = g))

/-- Whether a node, which is at the place `i`, is what a leaf says. -/
def Leaf.Fits (home : Option Nat) (i : Nat) (n : Node) : Leaf → Prop
  | file content => n.body = .file content
  | link target => n.body = .link target
  | pipe => n.body = .pipe
  | hole => home = some i ∧ n.isDirectory = true

theorem Leaf.Fits.isDirectory_eq_false {home : Option Nat} {i : Nat} {n : Node} {body : Leaf}
    (fits : body.Fits home i n) (solid : body ≠ .hole) : n.isDirectory = false := by
  unfold Node.isDirectory Node.entries?
  cases body with
  | file content => rw [show n.body = _ from fits]; rfl
  | link target => rw [show n.body = _ from fits]; rfl
  | pipe => rw [show n.body = _ from fits]; rfl
  | hole => exact absurd rfl solid

namespace Machine

variable {t t' t'' : Tree} {home : Option Nat} {entries own more : List (String × Nat)}
  {F G inner : Forest} {inside touched : List Nat} {name : String} {i j : Nat} {n : Node}

/-- Whether entries of a tree make up a forest, and which directories are inside of it. -/
inductive Shows (t : Tree) (home : Option Nat) :
    List (String × Nat) → Forest → List Nat → Prop
  | nil : Shows t home [] .nil []
  | leaf {name : String} {i : Nat} {n : Node} {a : Attributes} {body : Leaf}
      {more : List (String × Nat)} {rest : Forest} {inside : List Nat}
      (here : t.node? i = some n) (attributes : a.Fits n) (fits : body.Fits home i n)
      (onward : Shows t home more rest inside) :
      Shows t home ((name, i) :: more) (.leaf name a body rest) inside
  | directory {name : String} {i : Nat} {n : Node} {a : Attributes}
      {entries more : List (String × Nat)} {inner rest : Forest} {lower inside : List Nat}
      (here : t.node? i = some n) (attributes : a.Fits n) (listed : n.entries? = some entries)
      (below : Shows t home entries inner lower) (onward : Shows t home more rest inside) :
      Shows t home ((name, i) :: more) (.directory name a inner rest) (i :: (lower ++ inside))

/-! ## Growth in some directories -/

/-- Whether a tree has grown, and only in some of its directories. -/
structure GrowsIn (touched : List Nat) (t t' : Tree) : Prop where
  grows : t.Grows t'
  same : ∀ i n, i ∉ touched → t.node? i = some n → t'.node? i = some n

namespace GrowsIn

theorem refl (touched : List Nat) (t : Tree) : GrowsIn touched t t :=
  ⟨.refl t, fun _ _ _ here => here⟩

theorem mono {wider : List Nat} (h : GrowsIn touched t t') (sub : touched ⊆ wider) :
    GrowsIn wider t t' :=
  ⟨h.grows, fun i n out here => h.same i n (fun mem => out (sub mem)) here⟩

/-- What was touched later and not before is new. -/
theorem trans {later : List Nat} (h : GrowsIn touched t t') (h' : GrowsIn later t' t'')
    (new : ∀ i ∈ later, i ∈ touched ∨ t.node? i = none) : GrowsIn touched t t'' := by
  refine ⟨h.grows.trans h'.grows, fun i n out here =>
    h'.same i n (fun mem => ?_) (h.same i n out here)⟩
  rcases new i mem with old | none
  · exact out old
  · rw [here] at none
    cases none

/-- A node keeps everything but its names. -/
theorem node? (h : GrowsIn touched t t') (here : t.node? i = some n) :
    ∃ n', t'.node? i = some n' ∧ n'.mode = n.mode ∧ n'.uid = n.uid ∧ n'.gid = n.gid ∧
      n'.status.identity = n.status.identity ∧ n'.isDirectory = n.isDirectory ∧
      (n.isDirectory = false → n' = n) := by
  obtain ⟨more, here', _⟩ := h.grows i n here
  refine ⟨_, here', n.mapEntries_mode _, n.mapEntries_uid _, n.mapEntries_gid _, ?_,
    n.mapEntries_isDirectory _, n.mapEntries_of_not_directory _⟩
  unfold Status.identity Node.status
  simp

theorem attributes (h : GrowsIn touched t t') {a : Attributes} (here : t.node? i = some n)
    (fits : a.Fits n) :
    ∃ n', t'.node? i = some n' ∧ a.Fits n' ∧ n'.isDirectory = n.isDirectory ∧
      (n.isDirectory = false → n' = n) := by
  obtain ⟨n', here', mode, uid, gid, _, rest⟩ := h.node? here
  refine ⟨n', here', ?_, rest⟩
  unfold Attributes.Fits
  rw [mode, uid, gid]
  exact fits

end GrowsIn

namespace Shows

/-! ## What a shown forest says of its entries -/

theorem names (h : Shows t home entries F inside) : entries.map Prod.fst = F.names := by
  induction h with
  | nil => rfl
  | leaf _ _ _ _ ih => exact congrArg (List.cons _) ih
  | directory _ _ _ _ _ _ ih => exact congrArg (List.cons _) ih

theorem isDirectory (h : Shows t home entries F inside) : ∀ i ∈ inside, t.isDirectory i = true := by
  induction h with
  | nil => exact fun _ mem => absurd mem List.not_mem_nil
  | leaf _ _ _ _ ih => exact ih
  | directory here _ listed _ _ below onward =>
    intro k mem
    rcases List.mem_cons.mp mem with rfl | mem
    · exact Tree.isDirectory_iff.mpr ⟨_, here, by simp [Node.isDirectory, listed]⟩
    · rcases List.mem_append.mp mem with mem | mem
      · exact below k mem
      · exact onward k mem

theorem lookup_eq_none_iff (h : Shows t home entries F inside) :
    entries.lookup name = none ↔ name ∉ F.names := by
  rw [← h.names, List.lookup_eq_none_iff]
  simp only [List.mem_map, not_exists, not_and, bne_iff_ne, ne_eq]
  constructor
  · exact fun free entry mem same => free entry mem same.symm
  · exact fun free entry mem same => free entry mem same.symm

theorem append (h : Shows t home own F inside) {lower : List Nat} (h' : Shows t home more G lower) :
    Shows t home (own ++ more) (F.append G) (inside ++ lower) := by
  induction h with
  | nil => exact h'
  | leaf here attributes fits _ ih => exact .leaf here attributes fits ih
  | directory here attributes listed below _ _ ih =>
    rw [List.cons_append, List.cons_append, List.append_assoc]
    exact .directory here attributes listed below ih

/-! ## Changes elsewhere -/

theorem fits_transport {a : Attributes} {body : Leaf} (grows : GrowsIn touched t t')
    (here : t.node? i = some n) (attributes : a.Fits n) (fits : body.Fits home i n) :
    ∃ n', t'.node? i = some n' ∧ a.Fits n' ∧ body.Fits home i n' := by
  obtain ⟨n', here', attributes', directory, same⟩ := grows.attributes here attributes
  refine ⟨n', here', attributes', ?_⟩
  -- only a hole is a directory
  cases body with
  | hole => exact ⟨fits.1, directory.trans fits.2⟩
  | _ =>
    rw [same (fits.isDirectory_eq_false (by simp))]
    exact fits

/-- A forest is still there when a tree has grown in other directories. -/
theorem transport (h : Shows t home entries F inside) (grows : GrowsIn touched t t')
    (apart : ∀ i ∈ inside, i ∉ touched) : Shows t' home entries F inside := by
  induction h with
  | nil => exact .nil
  | leaf here attributes fits _ ih =>
    obtain ⟨n', here', attributes', fits'⟩ := fits_transport grows here attributes fits
    exact .leaf here' attributes' fits' (ih apart)
  | @directory _ i _ _ _ _ _ _ lower _ here attributes listed _ _ ih ih' =>
    have here' := grows.same i _ (apart i List.mem_cons_self) here
    refine .directory here' attributes listed (ih fun k mem => ?_) (ih' fun k mem => ?_)
    · exact apart k (List.mem_cons_of_mem _ (List.mem_append_left _ mem))
    · exact apart k (List.mem_cons_of_mem _ (List.mem_append_right _ mem))

/-! ## A directory of a forest -/

theorem inner?_eq_none (h : Shows t none entries F inside) (none : F.inner? name = none)
    (found : entries.lookup name = some j) : ∃ n, t.node? j = some n ∧ n.isDirectory = false := by
  induction h with
  | nil => cases found
  | @leaf other i n a body more rest inside here _ fits onward ih =>
    unfold Forest.inner? at none
    rw [List.lookup_cons] at found
    by_cases same : name = other
    · subst same
      rw [beq_self_eq_true] at found
      cases found
      refine ⟨n, here, fits.isDirectory_eq_false ?_⟩
      rintro rfl
      cases fits.1
    · rw [if_neg same] at none
      rw [beq_false_of_ne same] at found
      exact ih none found
  | @directory other i n a entries more inner rest lower inside here _ listed _ _ _ ih =>
    unfold Forest.inner? at none
    rw [List.lookup_cons] at found
    by_cases same : name = other
    · rw [if_pos same] at none
      cases none
    · rw [if_neg same] at none
      rw [beq_false_of_ne same] at found
      exact ih none found

/-- A first directory, in a tree that has grown since its attributes were looked at. -/
theorem first {a : Attributes} {inner : Forest} {lower : List Nat} (grows : GrowsIn touched t t')
    (here : t.node? i = some n) (attributes : a.Fits n) (listed : t'.entries? i = some own)
    (below : Shows t' home own inner lower) (onward : Shows t' home more F inside) :
    Shows t' home ((name, i) :: more) (.directory name a inner F) (i :: lower ++ inside) := by
  obtain ⟨n', here', attributes', _⟩ := grows.attributes here attributes
  exact .directory here' attributes' ((Tree.entries?_of_node? here').symm.trans listed) below onward

/-- A directory of a forest: it shows a forest, and if it comes to show another one and nothing else
changes, the whole forest changes in the same way. -/
theorem focus (h : Shows t none entries F inside) (found : F.inner? name = some inner) :
    ∃ j own lower before after, entries.lookup name = some j ∧ t.entries? j = some own ∧
      Shows t none own inner lower ∧ inside = before ++ (j :: lower ++ after) ∧
      ∀ t' own' inner' lower', GrowsIn (j :: lower) t t' → inside.Nodup →
        t'.entries? j = some own' → Shows t' none own' inner' lower' →
        Shows t' none entries (F.setInner name inner') (before ++ (j :: lower' ++ after)) := by
  induction h with
  | nil => cases found
  | @leaf other i n a body more rest inside here attributes fits onward ih =>
    unfold Forest.inner? at found
    by_cases same : name = other
    · rw [if_pos same] at found
      cases found
    · rw [if_neg same] at found
      obtain ⟨j, own, lower, before, after, named, listed, shows, split, change⟩ := ih found
      refine ⟨j, own, lower, before, after, ?_, listed, shows, split, ?_⟩
      · rw [List.lookup_cons, beq_false_of_ne same]
        exact named
      · intro t' own' inner' lower' grows distinct listed' shows'
        obtain ⟨n', here', attributes', fits'⟩ := fits_transport grows here attributes fits
        rw [Forest.setInner, if_neg same]
        exact .leaf here' attributes' fits'
          (change t' own' inner' lower' grows distinct listed' shows')
  | @directory other i n a entries more inner₀ rest lower inside here attributes listed below onward
      ih ih' =>
    have listing := (Tree.entries?_of_node? here).trans listed
    unfold Forest.inner? at found
    by_cases same : name = other
    · -- it is the first directory, and what comes after it is elsewhere
      subst same
      rw [if_pos rfl] at found
      cases found
      refine ⟨i, entries, lower, [], inside, ?_, listing, below, rfl, ?_⟩
      · rw [List.lookup_cons, beq_self_eq_true]
      · intro t' own' inner' lower' grows distinct listed' shows'
        have parts := List.nodup_append.mp (show (i :: lower ++ inside).Nodup from distinct)
        have onward' := onward.transport grows fun k mem both => parts.2.2 k both k mem rfl
        rw [Forest.setInner, if_pos rfl]
        exact first grows here attributes listed' shows' onward'
    · -- it is a later one, and the first directory is elsewhere
      rw [if_neg same] at found
      obtain ⟨j, own, lower', before, after, named, listed', shows, split, change⟩ := ih' found
      refine ⟨j, own, lower', i :: lower ++ before, after, ?_, listed', shows, ?_, ?_⟩
      · rw [List.lookup_cons, beq_false_of_ne same]
        exact named
      · rw [split]
        simp
      · intro t' own' inner' new grows distinct listed'' shows'
        have parts := List.nodup_append.mp (show (i :: lower ++ inside).Nodup from distinct)
        have apart : ∀ k ∈ i :: lower, k ∉ j :: lower' := by
          intro k mem both
          refine parts.2.2 k mem k ?_ rfl
          rw [split]
          exact List.mem_append_right _ (List.mem_append_left _ both)
        have still := grows.same i n (apart i List.mem_cons_self) here
        have below' := below.transport grows fun k mem => apart k (List.mem_cons_of_mem _ mem)
        have onward' := change t' own' inner' new grows parts.2.1 listed'' shows'
        rw [Forest.setInner, if_neg same, List.append_assoc, List.cons_append]
        exact first grows here attributes ((Tree.entries?_of_node? still).trans listed) below'
          onward'

end Shows

end Machine

end HomeProvision
