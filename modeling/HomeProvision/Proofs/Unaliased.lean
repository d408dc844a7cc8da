import HomeProvision.Proofs.Merging
import Mathlib.Data.List.Nodup
import Mathlib.Logic.Relation

/-!
# Trees without aliases

In a file tree a directory has one name at most, and no two directories are told to be the same. So
the directories below a finite one are all different (`Shows.nodup`), and the directories below two
of them are different, unless one lies inside the other (`Shows.apart`).
-/

namespace HomeProvision.Machine

open Relation

/-- A tree in which names are distinct, and in which a directory has a single name and identity. -/
structure Tree.Unaliased (t : Tree) : Prop where
  once : ∀ i entries, t.entries? i = some entries → (entries.map Prod.fst).Nodup
  single : ∀ i j name name' k, t.child? i name = some k → t.child? j name' = some k →
    t.isDirectory k = true → i = j ∧ name = name'
  told : ∀ i j, t.isDirectory i = true → t.isDirectory j = true →
    t.identity? i = t.identity? j → i = j

/-- In a tree there are finitely many nodes to look at. -/
theorem Tree.single_of_nodes {t : Tree}
    (single : ∀ i < t.nodes.length, ∀ j < t.nodes.length, ∀ entry ∈ (t.entries? i).getD [],
      ∀ entry' ∈ (t.entries? j).getD [], entry.2 = entry'.2 → t.isDirectory entry.2 = true →
        i = j ∧ entry.1 = entry'.1) {i j k : Nat} {name name' : String}
    (named : t.child? i name = some k) (named' : t.child? j name' = some k)
    (dir : t.isDirectory k = true) : i = j ∧ name = name' := by
  obtain ⟨entries, listed, _⟩ := Option.bind_eq_some_iff.mp named
  obtain ⟨entries', listed', _⟩ := Option.bind_eq_some_iff.mp named'
  have both := single i (lt_of_isDirectory (isDirectory_of_child? named)) j
    (lt_of_isDirectory (isDirectory_of_child? named'))
  rw [listed, listed'] at both
  exact both (name, k) (mem_of_child? listed named) (name', k) (mem_of_child? listed' named') rfl
    dir

theorem Tree.Unaliased.of_nodes {t : Tree}
    (once : ∀ i < t.nodes.length, (((t.entries? i).getD []).map Prod.fst).Nodup)
    (single : ∀ i < t.nodes.length, ∀ j < t.nodes.length, ∀ entry ∈ (t.entries? i).getD [],
      ∀ entry' ∈ (t.entries? j).getD [], entry.2 = entry'.2 → t.isDirectory entry.2 = true →
        i = j ∧ entry.1 = entry'.1)
    (told : ∀ i < t.nodes.length, ∀ j < t.nodes.length, t.isDirectory i = true →
      t.isDirectory j = true → t.identity? i = t.identity? j → i = j) : t.Unaliased := by
  refine ⟨fun i entries listed => ?_, fun i j name name' k => single_of_nodes single,
    fun i j dir dir' =>
      told i (lt_of_isDirectory dir) j (lt_of_isDirectory dir') dir dir'⟩
  have distinct := once i (lt_of_isDirectory (isDirectory_of_entries? listed))
  rw [listed] at distinct
  exact distinct

theorem sample_unaliased : sample.tree.Unaliased :=
  .of_nodes (by decide) (by decide) (by decide)

/-- Whether a directory names another one, which is not `home`. -/
def Tree.Holds (t : Tree) (home : Option Nat) (i k : Nat) : Prop :=
  (∃ name, t.child? i name = some k) ∧ t.isDirectory k = true ∧ home ≠ some k

variable {t : Tree} {home : Option Nat} {i j k a : Nat} {entries : List (String × Nat)} {F : Forest}
  {inside : List Nat}

/-- Where a directory has a single name, the directory that names it is the only one that does. -/
theorem Tree.Holds.unique {home' : Option Nat} (h : t.Holds home i k)
    (single : ∀ i j name name' k, t.child? i name = some k → t.child? j name' = some k →
      t.isDirectory k = true → i = j ∧ name = name') (h' : t.Holds home' j k) : i = j := by
  obtain ⟨⟨name, named⟩, dir, _⟩ := h
  obtain ⟨⟨name', named'⟩, _⟩ := h'
  exact (single i j name name' k named named' dir).1

namespace Tree.Unaliased

variable (plain : t.Unaliased)
include plain

theorem child?_of_mem (listed : t.entries? i = some entries) :
    ∀ entry ∈ entries, t.child? i entry.1 = some entry.2 := by
  intro entry mem
  unfold Tree.child?
  rw [listed, Option.bind_some]
  exact lookup_of_nodup (plain.once i entries listed) entry mem

/-- Nothing lies in two directories of the same directory. -/
theorem not_both (acyclic : ¬ TransGen (t.Holds home) a a) (first : t.Holds home a i)
    (second : t.Holds home a j) (other : i ≠ j) (under : ReflTransGen (t.Holds home) i k) :
    ¬ ReflTransGen (t.Holds home) j k := by
  have outside : ∀ {x y}, t.Holds home a x → t.Holds home a y → x ≠ y →
      ¬ ReflTransGen (t.Holds home) x y := by
    intro x y holds holds' ne way
    rcases ReflTransGen.cases_tail way with same | ⟨p, way, last⟩
    · exact ne same.symm
    · rw [last.unique plain.single holds'] at way
      exact acyclic (TransGen.head' holds way)
  induction under with
  | refl => exact outside second first (Ne.symm other)
  | @tail p k before last ih =>
    intro way
    rcases ReflTransGen.cases_tail way with same | ⟨q, way, last'⟩
    · subst same
      rw [last.unique plain.single second] at before
      exact acyclic (TransGen.head' first before)
    · rw [last'.unique plain.single last] at way
      exact ih way

end Tree.Unaliased

theorem not_transGen_of_acc {α : Type} {r : α → α → Prop} {x : α} (h : Acc (fun y x => r x y) x) :
    ¬ TransGen r x x := by
  induction h with
  | intro x _ ih =>
    intro cycle
    obtain ⟨y, first, rest⟩ := TransGen.head'_iff.mp cycle
    exact ih y first (TransGen.tail' rest first)

namespace Shows

theorem distinct (h : Shows t home entries F inside) (plain : t.Unaliased)
    (names : (entries.map Prod.fst).Nodup) : F.Distinct := by
  induction h with
  | nil => trivial
  | leaf _ _ _ onward ih =>
    obtain ⟨out, names⟩ := List.nodup_cons.mp names
    rw [onward.names] at out
    exact ⟨out, ih names⟩
  | @directory _ i _ _ _ _ _ _ _ _ here _ listed _ onward ih ih' =>
    obtain ⟨out, names⟩ := List.nodup_cons.mp names
    rw [onward.names] at out
    exact ⟨out, ih (plain.once i _ ((Tree.entries?_of_node? here).trans listed)), ih' names⟩

/-- What lies below the entries of a forest ends somewhere. -/
theorem acc (h : Shows t home entries F inside) :
    ∀ entry ∈ entries, t.isDirectory entry.2 = true → home ≠ some entry.2 →
      Acc (fun k i => t.Holds home i k) entry.2 := by
  induction h with
  | nil => exact fun _ mem => absurd mem List.not_mem_nil
  | leaf here _ fits _ ih =>
    intro entry mem dir other
    rcases List.mem_cons.mp mem with rfl | mem
    · obtain ⟨n', here', dir⟩ := Tree.isDirectory_iff.mp dir
      rw [here] at here'
      cases here'
      rw [fits.isDirectory_eq_false (by rintro rfl; exact other fits.1)] at dir
      cases dir
    · exact ih entry mem dir other
  | directory here _ listed _ _ ih ih' =>
    intro entry mem dir other
    rcases List.mem_cons.mp mem with rfl | mem
    · refine Acc.intro _ fun k holds => ?_
      obtain ⟨⟨name, named⟩, dir', other'⟩ := holds
      have listing := (Tree.entries?_of_node? here).trans listed
      exact ih (name, k) (Tree.mem_of_child? listing named) dir' other'
    · exact ih' entry mem dir other

/-- A finite directory does not lie below itself. -/
theorem acyclic (h : Shows t home entries F inside) (listed : t.entries? a = some entries) :
    ¬ TransGen (t.Holds home) a a := by
  refine not_transGen_of_acc (Acc.intro a fun k holds => ?_)
  obtain ⟨⟨name, named⟩, dir, other⟩ := holds
  exact h.acc (name, k) (Tree.mem_of_child? listed named) dir other

variable (h : Shows t home entries F inside) (plain : t.Unaliased)
  (out : ∀ k ∈ inside, home ≠ some k)
include h plain out

/-- A directory below is one of the entries or lies below one. -/
theorem under : ∀ k ∈ inside, ∃ entry ∈ entries, t.isDirectory entry.2 = true ∧
    home ≠ some entry.2 ∧ ReflTransGen (t.Holds home) entry.2 k := by
  induction h with
  | nil => exact fun _ mem => absurd mem List.not_mem_nil
  | leaf _ _ _ _ ih =>
    intro k mem
    obtain ⟨entry, mem, rest⟩ := ih out k mem
    exact ⟨entry, List.mem_cons_of_mem _ mem, rest⟩
  | @directory name i _ _ _ _ _ _ _ _ here _ listed below _ ih ih' =>
    have listing := (Tree.entries?_of_node? here).trans listed
    have dir := Tree.isDirectory_of_entries? listing
    intro k mem
    rcases List.mem_cons.mp mem with rfl | mem
    · exact ⟨(name, k), List.mem_cons_self, dir, out k List.mem_cons_self, .refl⟩
    rcases List.mem_append.mp mem with mem | mem
    · obtain ⟨entry, mem, dir', other, way⟩ := ih
        (fun k mem => out k (List.mem_cons_of_mem _ (List.mem_append_left _ mem))) k mem
      refine ⟨(name, i), List.mem_cons_self, dir, out i List.mem_cons_self, ?_⟩
      exact .head ⟨⟨entry.1, plain.child?_of_mem listing entry mem⟩, dir', other⟩ way
    · obtain ⟨entry, mem, rest⟩ := ih'
        (fun k mem => out k (List.mem_cons_of_mem _ (List.mem_append_right _ mem))) k mem
      exact ⟨entry, List.mem_cons_of_mem _ mem, rest⟩

theorem beneath (listed : t.entries? a = some entries) :
    ∀ k ∈ inside, TransGen (t.Holds home) a k := by
  intro k mem
  obtain ⟨entry, mem, dir, other, way⟩ := h.under plain out k mem
  exact TransGen.head' ⟨⟨entry.1, plain.child?_of_mem listed entry mem⟩, dir, other⟩ way

/-- A directory below is named by the directory itself or by one below. -/
theorem parent (named : ∀ entry ∈ entries, t.child? a entry.1 = some entry.2) :
    ∀ k ∈ inside, ∃ i ∈ a :: inside, t.Holds home i k := by
  induction h generalizing a with
  | nil => exact fun _ mem => absurd mem List.not_mem_nil
  | leaf _ _ _ _ ih =>
    exact ih out fun entry mem => named entry (List.mem_cons_of_mem _ mem)
  | @directory name i _ _ _ _ _ _ lower inside here _ listed _ _ ih ih' =>
    have listing := (Tree.entries?_of_node? here).trans listed
    have dir := Tree.isDirectory_of_entries? listing
    intro k mem
    rcases List.mem_cons.mp mem with rfl | mem
    · exact ⟨a, List.mem_cons_self, ⟨name, named _ List.mem_cons_self⟩, dir,
        out k List.mem_cons_self⟩
    rcases List.mem_append.mp mem with mem | mem
    · obtain ⟨p, mem, holds⟩ := ih
        (fun k mem => out k (List.mem_cons_of_mem _ (List.mem_append_left _ mem)))
        (plain.child?_of_mem listing) k mem
      exact ⟨p, List.mem_cons_of_mem _ (List.mem_append_left inside mem), holds⟩
    · obtain ⟨p, mem, holds⟩ := ih'
        (fun k mem => out k (List.mem_cons_of_mem _ (List.mem_append_right _ mem)))
        (fun entry mem => named entry (List.mem_cons_of_mem _ mem)) k mem
      rcases List.mem_cons.mp mem with rfl | mem
      · exact ⟨p, List.mem_cons_self, holds⟩
      · exact ⟨p, List.mem_cons_of_mem _ (List.mem_append_right (i :: lower) mem), holds⟩

/-- The directories below some entries of a directory are all different. -/
theorem nodup_of_named (named : ∀ entry ∈ entries, t.child? a entry.1 = some entry.2)
    (names : (entries.map Prod.fst).Nodup) (acyclic : ¬ TransGen (t.Holds home) a a) :
    inside.Nodup := by
  induction h generalizing a with
  | nil => exact List.nodup_nil
  | leaf _ _ _ _ ih =>
    exact ih out (fun entry mem => named entry (List.mem_cons_of_mem _ mem))
      (List.nodup_cons.mp names).2 acyclic
  | @directory name i _ _ _ more _ _ lower inside here _ listed below onward ih ih' =>
    have listing := (Tree.entries?_of_node? here).trans listed
    have dir := Tree.isDirectory_of_entries? listing
    have holds : t.Holds home a i :=
      ⟨⟨name, named _ List.mem_cons_self⟩, dir, out i List.mem_cons_self⟩
    have outLower : ∀ k ∈ lower, home ≠ some k := fun k mem =>
      out k (List.mem_cons_of_mem _ (List.mem_append_left _ mem))
    have outRest : ∀ k ∈ inside, home ≠ some k := fun k mem =>
      out k (List.mem_cons_of_mem _ (List.mem_append_right _ mem))
    have acyclic' := below.acyclic listing
    have way := below.beneath plain outLower listing
    have first : (i :: lower).Nodup :=
      List.nodup_cons.mpr ⟨fun mem => acyclic' (way i mem),
        ih outLower (plain.child?_of_mem listing) (plain.once i _ listing) acyclic'⟩
    have last := ih' outRest (fun entry mem => named entry (List.mem_cons_of_mem _ mem))
      (List.nodup_cons.mp names).2 acyclic
    refine List.nodup_append.mpr ⟨first, last, fun x mem y mem' same => ?_⟩
    subst same
    -- what is in `i :: lower` lies below `i`, and what is in `inside` below another entry
    have here : ReflTransGen (t.Holds home) i x := by
      rcases List.mem_cons.mp mem with rfl | mem
      · exact .refl
      · exact (way x mem).to_reflTransGen
    obtain ⟨entry, later, dir', other, way'⟩ := onward.under plain outRest x mem'
    have child := named entry (List.mem_cons_of_mem _ later)
    refine plain.not_both acyclic holds ⟨⟨entry.1, child⟩, dir', other⟩ ?_ here way'
    rintro rfl
    obtain ⟨_, rfl⟩ := plain.single a a name entry.1 entry.2 (named _ List.mem_cons_self) child dir
    exact (List.nodup_cons.mp names).1 (List.mem_map_of_mem later)

/-- The directories from a finite directory downwards are all different. -/
theorem nodup (listed : t.entries? a = some entries) : (a :: inside).Nodup := by
  have acyclic := h.acyclic listed
  exact List.nodup_cons.mpr ⟨fun mem => acyclic (h.beneath plain out listed a mem),
    h.nodup_of_named plain out (plain.child?_of_mem listed) (plain.once a entries listed) acyclic⟩

end Shows

/-- The directories below two different ones are different, if the first does not lie in the second.
The second may lie in the first, which is then shown without it. -/
theorem Shows.apart {d : Nat} {own : List (String × Nat)} {D : Forest} {filled : List Nat}
    (h : Shows t (some d) entries F inside) (h' : Shows t none own D filled) (plain : t.Unaliased)
    (listed : t.entries? a = some entries) (listed' : t.entries? d = some own)
    (first : a ∉ d :: filled) (out : d ∉ inside) : ∀ k ∈ inside, k ∉ d :: filled := by
  have way : ∀ k, TransGen (t.Holds (some d)) a k → k ∉ d :: filled := by
    have step : ∀ {i k}, i ∉ d :: filled → t.Holds (some d) i k → k ∉ d :: filled := by
      intro i k away holds mem
      rcases List.mem_cons.mp mem with rfl | mem
      · exact holds.2.2 rfl
      · obtain ⟨p, mem, holds'⟩ := h'.parent plain (fun _ _ => by simp)
          (plain.child?_of_mem listed') k mem
        rw [holds'.unique plain.single holds] at mem
        exact away mem
    intro k way
    induction way with
    | single holds => exact step first holds
    | tail _ holds ih => exact step ih holds
  intro k mem
  have out' : ∀ k ∈ inside, some d ≠ some k := by
    rintro k mem same
    cases same
    exact out mem
  exact way k (h.beneath plain out' listed k mem)

/-! ## Folders on a machine -/

/-- Whether a folder is what a machine has at its path. The directory `home` is left out. -/
structure Folder.On (f : Folder) (home : Option Nat) (m : Machine) : Prop where
  leads : m.tree.directoryAt m.current f.path = .ok f.place
  listed : m.tree.entries? f.place.node = some f.entries
  shown : Shows m.tree home f.entries f.forest f.inside

variable {m m' : Machine} {f g g' : Folder}

theorem Folder.On.full (h : f.On home m) : f.path ≠ "" :=
  Tree.nonempty_of_directoryAt h.leads

theorem Folder.On.filling (target : g.On none m) (plain : m.tree.Unaliased) :
    Filling m.tree m.current g :=
  ⟨target.full, target.leads, target.listed, target.shown,
    target.shown.nodup plain (fun _ _ => by simp) target.listed⟩

/-- What has come of a folder is what the machine has there now. -/
theorem Folder.On.merges (target : g.On none m) (merged : Merges m.tree m'.tree g g')
    (cwd : m'.current = m.current) : g'.On none m' := by
  refine ⟨?_, ?_, merged.content⟩
  · rw [cwd, merged.path, merged.place]
    exact merged.grows.grows.directoryAt target.leads
  · rw [merged.place]
    exact merged.listed

/-- A walk is ready if the source does not lie in the destination, and is shown without it. -/
theorem Ready.start {w : Walk} {n : Node} (regular : m.tree.Regular) (plain : m.tree.Unaliased)
    (origin : f.On (some g.place.node) m) (target : g.On none m)
    (first : f.place.node ∉ g.place.node :: g.inside) (out : g.place.node ∉ f.inside)
    (here : m.tree.node? g.place.node = some n) (root : w.destRoot = some n.status.identity) :
    Ready w g.place.node m.tree m.current f g [] ∧
      m.tree.identity? f.place.node ∉ f.inside.map m.tree.identity? := by
  have out' : ∀ k ∈ f.inside, some g.place.node ≠ some k := by
    rintro k mem same
    cases same
    exact out mem
  obtain ⟨own, distinct⟩ := List.nodup_cons.mp (origin.shown.nodup plain out' origin.listed)
  have dir := origin.shown.isDirectory
  have home := Tree.isDirectory_of_directoryAt target.leads
  refine ⟨⟨regular, ⟨origin.full, origin.leads, plain.child?_of_mem origin.listed, origin.shown,
    origin.shown.distinct plain (plain.once _ _ origin.listed), ?_, ⟨n, here, root⟩, ?_, ?_⟩,
    target.filling plain, ?_⟩, ?_⟩
  · exact distinct.map_on fun i mem j mem' same => plain.told i j (dir i mem) (dir j mem') same
  · intro i mem same
    have known := (Tree.identity?_of_node? here).trans root.symm
    exact out (plain.told i _ (dir i mem) home (same.trans known.symm) ▸ mem)
  · exact fun _ _ _ bad => absurd bad List.not_mem_nil
  · exact origin.shown.apart target.shown plain origin.listed target.listed first out
  · intro mem
    obtain ⟨i, mem, same⟩ := List.mem_map.mp mem
    have leads := Tree.isDirectory_of_directoryAt origin.leads
    exact own (plain.told i _ (dir i mem) leads same ▸ mem)

end HomeProvision.Machine
