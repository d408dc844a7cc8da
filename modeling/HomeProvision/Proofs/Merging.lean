import HomeProvision.Proofs.Copies
import HomeProvision.Proofs.Status

/-!
# What a merge keeps

A walk reads one directory and fills another. `Ready` says what holds before each entry: the source
still shows the forest that is left, the destination shows what is there by now, and no directory
that is still to be read is one that is filled. `Merges` says what an entry has come to, and
`Ready.next` that the walk is ready for the next one.

The walk writes into the tree that it reads from. What carries it is that the directories on the two
sides are different nodes; a forest is then still there after a change on the other side
(`Shows.transport`).
-/

namespace HomeProvision.Machine

/-- A directory at a path: its entries, or the last ones of them, the forest that they make up, and
the directories below. -/
structure Folder where
  path : String
  place : Place
  entries : List (String × Nat)
  forest : Forest
  inside : List Nat

namespace Folder

variable (f : Folder) (entries : List (String × Nat)) (forest : Forest) (inside : List Nat)

/-- The same directory with other entries. -/
def holding : Folder :=
  { f with entries, forest, inside }

/-- A directory below, with its entries. -/
def below (name : String) (i : Nat) : Folder where
  path := Path.join f.path name
  place := f.place.step i
  entries := entries
  forest := forest
  inside := inside

end Folder

/-- How directories are told apart. -/
def Tree.identity? (t : Tree) (i : Nat) : Option Identity :=
  (t.node? i).map fun n => n.status.identity

/-- A directory that is being read, for a walk that fills the directory `home`. -/
structure Reading (w : Walk) (home : Nat) (t : Tree) (current : String) (f : Folder)
    (entered : List Identity) : Prop where
  full : f.path ≠ ""
  leads : t.directoryAt current f.path = .ok f.place
  named : ∀ entry ∈ f.entries, t.child? f.place.node entry.1 = some entry.2
  shown : Shows t (some home) f.entries f.forest f.inside
  once : f.forest.Distinct
  told : (f.inside.map t.identity?).Nodup
  root : ∃ n, t.node? home = some n ∧ w.destRoot = some n.status.identity
  other : ∀ i ∈ f.inside, t.identity? i ≠ w.destRoot
  fresh : ∀ i ∈ f.inside, ∀ x ∈ entered, t.identity? i ≠ some x

/-- A directory that is being filled. -/
structure Filling (t : Tree) (current : String) (g : Folder) : Prop where
  full : g.path ≠ ""
  leads : t.directoryAt current g.path = .ok g.place
  listed : t.entries? g.place.node = some g.entries
  content : Shows t none g.entries g.forest g.inside
  distinct : (g.place.node :: g.inside).Nodup

/-- A directory that is read and one that is filled, on different sides. -/
structure Ready (w : Walk) (home : Nat) (t : Tree) (current : String) (f g : Folder)
    (entered : List Identity) : Prop where
  regular : t.Regular
  origin : Reading w home t current f entered
  target : Filling t current g
  apart : ∀ i ∈ f.inside, i ∉ g.place.node :: g.inside

/-- What has come of a directory that is being filled. -/
structure Merges (t t' : Tree) (g g' : Folder) : Prop where
  path : g'.path = g.path
  place : g'.place = g.place
  regular : t'.Regular
  grows : GrowsIn (g.place.node :: g.inside) t t'
  listed : t'.entries? g.place.node = some g'.entries
  content : Shows t' none g'.entries g'.forest g'.inside
  distinct : (g.place.node :: g'.inside).Nodup
  new : ∀ i ∈ g'.inside, i ∈ g.inside ∨ t.node? i = none

variable {w : Walk} {home i j : Nat} {t t' t'' : Tree} {current name : String} {f g g' g'' : Folder}
  {entered : List Identity} {n : Node}

theorem Tree.identity?_of_node? (here : t.node? i = some n) :
    t.identity? i = some n.status.identity := by
  unfold Tree.identity?
  rw [here, Option.map_some]

/-! ## Trees that have grown -/

theorem GrowsIn.identity? {touched : List Nat} (h : GrowsIn touched t t')
    (here : t.node? i = some n) : t'.identity? i = t.identity? i := by
  obtain ⟨n', here', _, _, _, same, _⟩ := h.node? here
  rw [Tree.identity?_of_node? here, Tree.identity?_of_node? here', same]

theorem GrowsIn.identity?_of_isDirectory {touched : List Nat} (h : GrowsIn touched t t')
    (dir : t.isDirectory i = true) : t'.identity? i = t.identity? i := by
  obtain ⟨n, here, _⟩ := Tree.isDirectory_iff.mp dir
  exact h.identity? here

/-- Names in a regular tree are names. -/
theorem Tree.Regular.isName (h : t.Regular) (found : t.child? i name = some j) :
    Path.IsName name := by
  obtain ⟨entries, listed, _⟩ := Option.bind_eq_some_iff.mp found
  exact h.names i entries listed (name, j) (Tree.mem_of_child? listed found)

/-! ## Directories that are filled -/

theorem Filling.isDirectory (h : Filling t current g) :
    ∀ i ∈ g.place.node :: g.inside, t.isDirectory i = true := by
  intro i mem
  rcases List.mem_cons.mp mem with rfl | mem
  · exact Tree.isDirectory_of_directoryAt h.leads
  · exact h.content.isDirectory i mem

theorem Merges.refl (regular : t.Regular) (h : Filling t current g) : Merges t t g g where
  path := rfl
  place := rfl
  regular := regular
  grows := .refl _ t
  listed := h.listed
  content := h.content
  distinct := h.distinct
  new := fun _ => .inl

theorem Merges.trans (h : Merges t t' g g') (h' : Merges t' t'' g' g'') : Merges t t'' g g'' := by
  have new : ∀ i, t'.node? i = none → t.node? i = none := by
    intro i none
    cases here : t.node? i with
    | none => rfl
    | some n =>
      obtain ⟨_, here', _⟩ := h.grows.node? here
      rw [none] at here'
      cases here'
  refine ⟨h'.path.trans h.path, h'.place.trans h.place, h'.regular, ?_, ?_, h'.content, ?_, ?_⟩
  · refine h.grows.trans h'.grows fun i mem => ?_
    rw [h.place] at mem
    rcases List.mem_cons.mp mem with rfl | mem
    · exact .inl List.mem_cons_self
    · exact (h.new i mem).imp_left (List.mem_cons_of_mem _)
  · rw [← h.place]
    exact h'.listed
  · rw [← h.place]
    exact h'.distinct
  · intro i mem
    rcases h'.new i mem with old | none
    · exact h.new i old
    · exact .inr (new i none)

namespace Filling

variable (h : Filling t current g)
include h

theorem after (merged : Merges t t' g g') : Filling t' current g' where
  full := by
    rw [merged.path]
    exact h.full
  leads := by
    rw [merged.path, merged.place]
    exact merged.grows.grows.directoryAt h.leads
  listed := by
    rw [merged.place]
    exact merged.listed
  content := merged.content
  distinct := by
    rw [merged.place]
    exact merged.distinct

theorem child?_eq : t.child? g.place.node name = g.entries.lookup name := by
  unfold Tree.child?
  rw [h.listed, Option.bind_some]

theorem child?_eq_none_iff : t.child? g.place.node name = none ↔ name ∉ g.forest.names := by
  rw [h.child?_eq]
  exact h.content.lookup_eq_none_iff

/-- A name that is taken. -/
theorem child?_isSome (mem : name ∈ g.forest.names) :
    (t.child? g.place.node name).isSome = true := by
  rw [Option.isSome_iff_ne_none]
  exact fun none => h.child?_eq_none_iff.mp none mem

end Filling

/-- The folder with one more entry. -/
def Folder.add (g : Folder) (name : String) (i : Nat) (more : Forest) (lower : List Nat) :
    Folder :=
  g.holding (g.entries ++ [(name, i)]) (g.forest.append more) (g.inside ++ lower)

/-- A new node under a free name. -/
theorem Merges.create (regular : t.Regular) (h : Filling t current g) (own : Path.IsName name)
    (free : t.child? g.place.node name = none) (small : n.mode < 0o10000)
    (bare : n.entries?.getD [] = []) {more : Forest} {lower : List Nat}
    (shown : Shows (t.create g.place.node name n) none [(name, t.nextPlace)] more lower)
    (distinct : lower.Nodup) (new : ∀ i ∈ lower, i = t.nextPlace) :
    Merges t (t.create g.place.node name n) g (g.add name t.nextPlace more lower) := by
  have dir := Tree.isDirectory_of_directoryAt h.leads
  have inside := Tree.lt_of_isDirectory dir
  have grows : GrowsIn [g.place.node] t (t.create g.place.node name n) := by
    refine ⟨Tree.Grows.create inside free, fun i n' out here => ?_⟩
    rw [Tree.node?_create_old inside (fun same => out (by simp [same])) (Tree.lt_of_node? here)]
    exact here
  have parts := List.nodup_cons.mp h.distinct
  have old : ∀ i ∈ g.place.node :: g.inside, i ≠ t.nextPlace := fun i mem =>
    Nat.ne_of_lt (Tree.lt_of_isDirectory (h.isDirectory i mem))
  refine ⟨rfl, rfl, Regular.create regular inside own small bare, ?_, ?_, ?_, ?_, ?_⟩
  · exact grows.mono fun i mem => by
      rw [List.mem_singleton.mp mem]
      exact List.mem_cons_self
  · obtain ⟨n', here, listed⟩ := Option.bind_eq_some_iff.mp h.listed
    unfold Tree.entries?
    rw [Tree.node?_create inside, if_neg (old _ List.mem_cons_self), if_pos rfl, here,
      Option.map_some, Option.bind_some, Node.mapEntries_entries?, listed]
    rfl
  · refine (h.content.transport grows fun i mem same => ?_).append shown
    rw [List.mem_singleton.mp same] at mem
    exact parts.1 mem
  · change (g.place.node :: g.inside ++ lower).Nodup
    refine List.nodup_append.mpr ⟨h.distinct, distinct, fun i mem k mem' same => ?_⟩
    exact old i mem (same.trans (new k mem'))
  · intro i mem
    rcases List.mem_append.mp mem with mem | mem
    · exact .inl mem
    · rw [new i mem]
      exact .inr Tree.node?_nextPlace

/-! ## Copies -/

section

variable (regular : t.Regular) (h : Filling t current g) (own : Path.IsName name)
  (free : t.child? g.place.node name = none) {a : Attributes} (small : a.mode < 0o10000)
  {m' : Machine}
include regular h own free small

theorem Merges.of_leaf {body : Body} {b : Leaf} (bare : ∀ entries dots, body ≠ .directory entries dots)
    (fits : ∀ n : Node, n.body = body → b.Fits none t.nextPlace n)
    (copy : HasCopy t current g.place name body a m') :
    Merges t m'.tree g (g.add name t.nextPlace (.leaf name a b .nil) []) := by
  obtain ⟨n, placed, kept, attributes⟩ := copy
  have inside := Tree.lt_of_isDirectory (Tree.isDirectory_of_directoryAt h.leads)
  have empty : n.entries? = none := by
    unfold Node.entries?
    rw [kept]
    cases body with
    | directory entries dots => exact absurd rfl (bare entries dots)
    | file _ => rfl
    | link _ => rfl
    | pipe => rfl
  rw [placed.tree]
  refine .create regular h own free (attributes.1 ▸ small) (by rw [empty]; rfl) ?_ List.nodup_nil
    fun _ mem => absurd mem List.not_mem_nil
  exact .leaf (Tree.node?_create_new inside) attributes (fits n kept) .nil

theorem Merges.of_directory (copy : HasCopy t current g.place name (.directory [] false) a m') :
    Merges t m'.tree g
      (g.add name t.nextPlace (.directory name a .nil .nil) [t.nextPlace]) := by
  obtain ⟨n, placed, kept, attributes⟩ := copy
  have inside := Tree.lt_of_isDirectory (Tree.isDirectory_of_directoryAt h.leads)
  have empty : n.entries? = some [] := by
    unfold Node.entries?
    rw [kept]
  rw [placed.tree]
  refine .create regular h own free (attributes.1 ▸ small) (by rw [empty]; rfl) ?_
    (List.pairwise_singleton _ _) fun _ mem => List.mem_singleton.mp mem
  exact .directory (Tree.node?_create_new inside) attributes empty .nil .nil

end

/-! ## The next entry -/

theorem lookup_of_nodup {entries : List (String × Nat)} (distinct : (entries.map Prod.fst).Nodup) :
    ∀ entry ∈ entries, entries.lookup entry.1 = some entry.2 := by
  induction entries with
  | nil => exact fun _ mem => absurd mem List.not_mem_nil
  | cons first more ih =>
    obtain ⟨out, distinct⟩ := List.nodup_cons.mp distinct
    intro entry mem
    rcases List.mem_cons.mp mem with rfl | mem
    · exact List.lookup_cons_self
    · have other : entry.1 ≠ first.1 := by
        intro same
        rw [← same] at out
        exact out (List.mem_map_of_mem mem)
      rw [List.lookup_cons, beq_false_of_ne other]
      exact ih distinct entry mem

namespace Ready

variable (h : Ready w home t current f g entered)
include h

/-- The rest of a directory, after something has come of the other one. -/
theorem next (merged : Merges t t' g g') {more : List (String × Nat)} {rest : Forest}
    {inside : List Nat} {entered' : List Identity} (sub : more ⊆ f.entries)
    (shown : Shows t (some home) more rest inside) (once : rest.Distinct)
    (part : inside.Sublist f.inside)
    (fresh : ∀ i ∈ inside, ∀ x ∈ entered', t.identity? i ≠ some x) :
    Ready w home t' current (f.holding more rest inside) g' entered' := by
  -- growth changes no identity, so whatever was told apart still is
  have same : ∀ i ∈ inside, t'.identity? i = t.identity? i := fun i mem =>
    merged.grows.identity?_of_isDirectory (shown.isDirectory i mem)
  have apart : ∀ i ∈ inside, i ∉ g.place.node :: g.inside := fun i mem =>
    h.apart i (part.subset mem)
  obtain ⟨n, there, known⟩ := h.origin.root
  obtain ⟨n', there', _, _, _, told, _⟩ := merged.grows.node? there
  refine ⟨merged.regular, ⟨h.origin.full, ?_, ?_, ?_, once, ?_, ?_, ?_, ?_⟩,
    h.target.after merged, ?_⟩
  · exact merged.grows.grows.directoryAt h.origin.leads
  · exact fun entry mem => merged.grows.grows.child? (h.origin.named entry (sub mem))
  · exact shown.transport merged.grows apart
  · change (inside.map t'.identity?).Nodup
    rw [List.map_congr_left same]
    exact h.origin.told.sublist (part.map _)
  · exact ⟨n', there', by rw [told]; exact known⟩
  · intro i mem
    rw [same i mem]
    exact h.origin.other i (part.subset mem)
  · intro i mem x known
    rw [same i mem]
    exact fresh i mem x known
  · intro i mem both
    rw [merged.place] at both
    rcases List.mem_cons.mp both with rfl | both
    · exact apart _ mem List.mem_cons_self
    · rcases merged.new i both with old | none
      · exact apart i mem (List.mem_cons_of_mem _ old)
      · exact Tree.node?_ne_none_of_isDirectory (shown.isDirectory i mem) none

end Ready

/-! ## Directories below -/

/-- A part of a list without repetitions can be replaced, if what is new occurs nowhere else. -/
theorem nodup_replace {α : Type} {before old new after : List α}
    (distinct : (before ++ (old ++ after)).Nodup) (own : new.Nodup)
    (fresh : ∀ x ∈ new, x ∈ old ∨ x ∉ before ∧ x ∉ after) :
    (before ++ (new ++ after)).Nodup := by
  obtain ⟨first, rest, apart⟩ := List.nodup_append.mp distinct
  obtain ⟨_, last, apart'⟩ := List.nodup_append.mp rest
  refine List.nodup_append.mpr ⟨first, List.nodup_append.mpr ⟨own, last, ?_⟩, ?_⟩
  · intro x mem y mem' same
    rcases fresh x mem with old | ⟨_, out⟩
    · exact apart' x old y mem' same
    · exact out (same ▸ mem')
  · intro x mem y mem' same
    rcases List.mem_append.mp mem' with mem' | mem'
    · rcases fresh y mem' with old | ⟨out, _⟩
      · exact apart x mem y (List.mem_append_left _ old) same
      · exact out (same ▸ mem)
    · exact apart x mem y (List.mem_append_right _ mem') same

variable {entries : List (String × Nat)} {inner : Forest} {lower : List Nat}

/-- What has come of a directory of the forest, between other directories of it. -/
theorem Filling.around (h : Filling t current g) {before after : List Nat} {F : Forest}
    (split : g.inside = before ++ (j :: lower ++ after))
    (merged : Merges t t' (g.below entries inner lower name j) g'')
    (content : Shows t' none g.entries F (before ++ (j :: g''.inside ++ after))) :
    Merges t t' g (g.holding g.entries F (before ++ (j :: g''.inside ++ after))) := by
  have sub : j :: lower ⊆ g.inside := by
    intro i mem
    rw [split]
    exact List.mem_append_right _ (List.mem_append_left _ mem)
  have distinct := h.distinct
  rw [split] at distinct
  refine ⟨rfl, rfl, merged.regular, ?_, ?_, content, ?_, ?_⟩
  · exact merged.grows.mono fun i mem => List.mem_cons_of_mem _ (sub mem)
  · obtain ⟨n, here, listed⟩ := Option.bind_eq_some_iff.mp h.listed
    have same := merged.grows.same _ n (fun mem => (List.nodup_cons.mp h.distinct).1 (sub mem)) here
    exact (Tree.entries?_of_node? same).trans listed
  · -- a directory that is new is not one of those around it, since these were there before
    change (g.place.node :: before ++ (j :: g''.inside ++ after)).Nodup
    refine nodup_replace distinct merged.distinct fun i mem => ?_
    rcases List.mem_cons.mp mem with rfl | mem
    · exact .inl List.mem_cons_self
    rcases merged.new i mem with old | none
    · exact .inl (List.mem_cons_of_mem _ old)
    · have out : i ∉ g.place.node :: g.inside := fun mem =>
        Tree.node?_ne_none_of_isDirectory (h.isDirectory i mem) none
      rw [split] at out
      refine .inr ⟨fun mem => out ?_, fun mem => out ?_⟩
      · exact List.mem_append_left (j :: lower ++ after) mem
      · exact List.mem_cons_of_mem _ (List.mem_append_right _ (List.mem_append_right _ mem))
  · intro i mem
    change i ∈ before ++ (j :: g''.inside ++ after) at mem
    rw [split]
    simp only [List.mem_append, List.mem_cons] at mem ⊢
    rcases mem with mem | (rfl | mem) | mem
    · exact .inl (.inl mem)
    · exact .inl (.inr (.inl (.inl rfl)))
    · exact (merged.new i mem).imp_left fun old => .inr (.inl (.inr old))
    · exact .inl (.inr (.inr mem))

/-- A directory of the forest that is filled. Whatever comes of it comes of the forest, too. -/
theorem Filling.enter (h : Filling t current g) (own : Path.IsName name)
    (short : ShortBelow g.path name) (found : g.forest.inner? name = some inner) :
    ∃ j entries lower, t.child? g.place.node name = some j ∧
      Filling t current (g.below entries inner lower name j) ∧ j :: lower ⊆ g.inside ∧
      ∀ t' g'', Merges t t' (g.below entries inner lower name j) g'' →
        ∃ g', Merges t t' g g' ∧ g'.forest = g.forest.setInner name g''.forest := by
  obtain ⟨j, entries, lower, before, after, named, listed, shows, split, change⟩ :=
    h.content.focus found
  have child : t.child? g.place.node name = some j := h.child?_eq.trans named
  have dir := Tree.isDirectory_of_entries? listed
  have distinct := (List.nodup_cons.mp h.distinct).2
  have once := distinct
  rw [split] at once
  have own' : (j :: lower).Nodup :=
    (List.nodup_append.mp (List.nodup_append.mp once).2.1).1
  refine ⟨j, entries, lower, child, ⟨?_, ?_, listed, shows, own'⟩, ?_, fun t' g'' merged => ?_⟩
  · exact Path.join_ne_empty own.toIsComponent
  · exact Tree.directoryAt_join h.full own short.1 short.2 h.leads child dir
  · intro i mem
    rw [split]
    exact List.mem_append_right _ (List.mem_append_left _ mem)
  · have content := change t' g''.entries g''.forest g''.inside merged.grows distinct merged.listed
      merged.content
    exact ⟨_, h.around split merged content, rfl⟩

/-- A directory of the forest that is read. -/
theorem Reading.enter (h : Reading w home t current f entered) (own : Path.IsName name)
    (short : ShortBelow f.path name) (found : t.child? f.place.node name = some i)
    (listed : t.entries? i = some entries) (shown : Shows t (some home) entries inner lower)
    (once : inner.Distinct) (part : lower.Sublist f.inside) :
    Reading w home t current (f.below entries inner lower name i) entered := by
  have dir := Tree.isDirectory_of_entries? listed
  refine ⟨Path.join_ne_empty own.toIsComponent, ?_, ?_, shown, once, ?_, h.root, ?_, ?_⟩
  · exact Tree.directoryAt_join h.full own short.1 short.2 h.leads found dir
  · intro entry mem
    change t.child? i entry.1 = some entry.2
    unfold Tree.child?
    rw [listed, Option.bind_some]
    exact lookup_of_nodup (shown.names ▸ once.names) entry mem
  · exact h.told.sublist (part.map _)
  · exact fun k mem => h.other k (part.subset mem)
  · exact fun k mem => h.fresh k (part.subset mem)

end HomeProvision.Machine
