import HomeProvision.Machine.Place
import HomeProvision.Proofs.PathText

/-!
# Trees that grow

`Grows t t'` says that names were added to `t` and nothing else happened to it: every node is in
`t'` as it was, except that a directory may list further names after its own. The nodes that came in
between are free.

* `Grows.create`: a new node under a free name makes a tree grow.
* `Grows.modify`: so does a change of a node that the tree did not have before.

`Adds fits t t'` says less of the tree and more of the nodes that came in between: all of them fit.
-/

namespace HomeProvision.Machine

/-! ## Nodes -/

namespace Node

variable (n : Node) (f g : List (String × Nat) → List (String × Nat))

@[simp]
theorem mapEntries_mode : (n.mapEntries f).mode = n.mode := by
  unfold mapEntries
  split <;> rfl

@[simp]
theorem mapEntries_uid : (n.mapEntries f).uid = n.uid := by
  unfold mapEntries
  split <;> rfl

@[simp]
theorem mapEntries_gid : (n.mapEntries f).gid = n.gid := by
  unfold mapEntries
  split <;> rfl

@[simp]
theorem mapEntries_device : (n.mapEntries f).device = n.device := by
  unfold mapEntries
  split <;> rfl

@[simp]
theorem mapEntries_inode : (n.mapEntries f).inode = n.inode := by
  unfold mapEntries
  split <;> rfl

theorem mapEntries_identity : (n.mapEntries f).status.identity = n.status.identity := by
  unfold status Status.identity
  rw [mapEntries_device, mapEntries_inode]

@[simp]
theorem mapEntries_entries? : (n.mapEntries f).entries? = n.entries?.map f := by
  unfold mapEntries entries?
  cases body : n.body <;> simp [body]

@[simp]
theorem mapEntries_target? : (n.mapEntries f).target? = n.target? := by
  unfold mapEntries target?
  cases body : n.body <;> simp [body]

@[simp]
theorem mapEntries_isDirectory : (n.mapEntries f).isDirectory = n.isDirectory := by
  simp [isDirectory]

theorem mapEntries_mapEntries : (n.mapEntries f).mapEntries g = n.mapEntries (g ∘ f) := by
  unfold mapEntries
  cases body : n.body <;> simp [body]

theorem mapEntries_append_nil : n.mapEntries (· ++ []) = n := by
  unfold mapEntries
  cases n with
  | mk mode uid gid device inode body => cases body <;> simp

theorem mapEntries_of_not_directory (h : n.isDirectory = false) : n.mapEntries f = n := by
  unfold isDirectory entries? at h
  unfold mapEntries
  cases body : n.body <;> simp_all

end Node

namespace Tree

variable {t t' t'' : Tree} {i j k : Nat} {name : String} {n : Node}

theorem isDirectory_iff :
    t.isDirectory i = true ↔ ∃ n, t.node? i = some n ∧ n.isDirectory = true := by
  unfold isDirectory entries?
  cases t.node? i with
  | none => simp
  | some n => simp [Node.isDirectory]

theorem node?_ne_none_of_isDirectory (dir : t.isDirectory i = true) : t.node? i ≠ none := by
  obtain ⟨n, found, _⟩ := isDirectory_iff.mp dir
  rw [found]
  simp

theorem entries?_of_node? (here : t.node? i = some n) : t.entries? i = n.entries? := by
  unfold entries?
  rw [here, Option.bind_some]

theorem isDirectory_of_entries? {entries : List (String × Nat)}
    (listed : t.entries? i = some entries) : t.isDirectory i = true := by
  unfold isDirectory
  rw [listed, Option.isSome_some]

theorem isDirectory_of_child? (named : t.child? i name = some k) : t.isDirectory i = true := by
  obtain ⟨entries, listed, _⟩ := Option.bind_eq_some_iff.mp named
  exact isDirectory_of_entries? listed

/-- A name in a directory is one of its entries. -/
theorem mem_of_child? {entries : List (String × Nat)} (listed : t.entries? i = some entries)
    (named : t.child? i name = some j) : (name, j) ∈ entries := by
  unfold child? at named
  rw [listed, Option.bind_some] at named
  obtain ⟨before, after, split, _⟩ := List.lookup_eq_some_iff.mp named
  rw [split]
  exact List.mem_append_right _ List.mem_cons_self

theorem lt_of_node? (h : t.node? i = some n) : i < t.nodes.length :=
  (List.getElem?_eq_some_iff.mp h).1

theorem lt_of_isDirectory (h : t.isDirectory i = true) : i < t.nodes.length := by
  obtain ⟨n, found, _⟩ := isDirectory_iff.mp h
  exact lt_of_node? found

theorem node?_nextPlace : t.node? t.nextPlace = none :=
  List.getElem?_eq_none (Nat.le_refl _)

/-! ## Changes of a tree, node by node -/

theorem node?_modify (t : Tree) (i : Nat) (f : Node → Node) (k : Nat) :
    (t.modify i f).node? k = (t.node? k).map fun n => if i = k then f n else n := by
  unfold modify node?
  rw [List.getElem?_modify]
  rfl

theorem node?_modify_ne (f : Node → Node) (h : k ≠ i) : (t.modify i f).node? k = t.node? k := by
  rw [node?_modify]
  cases t.node? k <;> simp [Ne.symm h]

theorem node?_push (t : Tree) (n : Node) (k : Nat) :
    (t.push n).node? k = if k = t.nextPlace then some n else t.node? k := by
  unfold push node? nextPlace
  rw [List.getElem?_append]
  by_cases below : k < t.nodes.length
  · rw [if_pos below, if_neg (Nat.ne_of_lt below)]
  · rw [if_neg below, List.getElem?_eq_none (Nat.not_lt.mp below)]
    by_cases next : k = t.nodes.length
    · simp [next]
    · rw [if_neg next, List.getElem?_eq_none]
      simp
      omega

/-- The nodes of a tree with a new node in an existing directory. -/
theorem node?_create (inside : i < t.nodes.length) (k : Nat) :
    (t.create i name n).node? k =
      if k = t.nextPlace then some n
      else if k = i then (t.node? i).map (Node.mapEntries (· ++ [(name, t.nextPlace)]))
      else t.node? k := by
  have old : i ≠ t.nextPlace := Nat.ne_of_lt inside
  unfold create addName
  rw [node?_modify, node?_push]
  by_cases next : k = t.nextPlace
  · subst next
    simp [old]
  · by_cases here : k = i
    · subst here
      simp [next]
    · rw [if_neg next, if_neg next, if_neg here]
      cases t.node? k <;> simp [Ne.symm here]

theorem node?_create_new (inside : i < t.nodes.length) :
    (t.create i name n).node? t.nextPlace = some n := by
  rw [node?_create inside, if_pos rfl]

theorem node?_create_old (inside : i < t.nodes.length) (h : k ≠ i) (old : k < t.nodes.length) :
    (t.create i name n).node? k = t.node? k := by
  have other : k ≠ t.nextPlace := Nat.ne_of_lt old
  rw [node?_create inside, if_neg other, if_neg h]

theorem child?_create_new (dir : t.isDirectory i = true) (free : t.child? i name = none) :
    (t.create i name n).child? i name = some t.nextPlace := by
  obtain ⟨own, found, dir'⟩ := isDirectory_iff.mp dir
  have inside := lt_of_isDirectory dir
  have old : i ≠ t.nextPlace := Nat.ne_of_lt inside
  unfold child? entries? at free ⊢
  rw [found] at free
  rw [node?_create inside, if_neg old, if_pos rfl, found]
  cases listed : own.entries? with
  | none => simp [Node.isDirectory, listed] at dir'
  | some entries =>
    simp only [Option.bind_some, listed] at free
    simp [listed, List.lookup_append, free]

/-- What is found in a list with one more pair at its end. -/
theorem lookup_concat {pairs : List (String × Nat)} {x : String}
    (found : (pairs ++ [(name, i)]).lookup x = some k) :
    pairs.lookup x = some k ∨ (x = name ∧ k = i) := by
  rw [List.lookup_append] at found
  cases old : pairs.lookup x with
  | some k' =>
    rw [old, Option.some_or] at found
    exact .inl found
  | none =>
    rw [old, Option.none_or] at found
    obtain ⟨before, after, split, _⟩ := List.lookup_eq_some_iff.mp found
    have mem : (x, k) ∈ [(name, i)] := by rw [split]; simp
    obtain ⟨rfl, rfl⟩ := Prod.mk.inj (List.mem_singleton.mp mem)
    exact .inr ⟨rfl, rfl⟩

/-- A name in a tree with a new node is an old one or that of the node, if that has no names. -/
theorem child?_create {x : String} (inside : i < t.nodes.length) (bare : n.entries?.getD [] = [])
    (present : (t.create i name n).child? j x = some k) :
    t.child? j x = some k ∨ (j = i ∧ x = name ∧ k = t.nextPlace) := by
  unfold child? entries? at present ⊢
  rw [node?_create inside] at present
  split at present
  · rw [Option.bind_some] at present
    cases own : n.entries? with
    | none => rw [own] at present; cases present
    | some entries =>
      rw [own] at bare present
      simp only [Option.getD_some] at bare
      subst bare
      cases present
  · split at present
    · next here =>
      subst here
      cases found : t.node? j with
      | none => rw [found] at present; cases present
      | some own =>
        rw [found, Option.map_some, Option.bind_some, Node.mapEntries_entries?] at present
        rw [Option.bind_some]
        cases listed : own.entries? with
        | none => rw [listed] at present; cases present
        | some entries =>
          rw [listed, Option.map_some, Option.bind_some] at present
          exact (lookup_concat present).imp id fun same => ⟨rfl, same⟩
    · exact .inl present

theorem isDirectory_create (inside : i < t.nodes.length) (old : k ≠ t.nextPlace) :
    (t.create i name n).isDirectory k = t.isDirectory k := by
  unfold isDirectory entries?
  rw [node?_create inside, if_neg old]
  split
  · next here =>
    subst here
    cases t.node? k with
    | none => rfl
    | some own => simp [Node.mapEntries_entries?]
  · rfl

/-- Trees are the same if their nodes are. -/
theorem ext_node? (same : ∀ k, t'.node? k = t.node? k) : t' = t := by
  cases t
  cases t'
  exact congrArg Tree.mk (List.ext_getElem? same)

/-- A new node that is changed is another new node. -/
theorem modify_create (inside : i < t.nodes.length) (f : Node → Node) :
    (t.create i name n).modify t.nextPlace f = t.create i name (f n) := by
  refine ext_node? fun k => ?_
  rw [node?_modify, node?_create inside, node?_create inside]
  by_cases next : k = t.nextPlace
  · simp [next]
  · simp only [if_neg next, if_neg (Ne.symm next), Option.map_id']

theorem nonempty_of_checkPath {path : String} (valid : checkPath path = .ok ()) : path ≠ "" := by
  intro empty
  simp [checkPath, empty] at valid

/-! ## What is new -/

/-- Whether everything that is new in a tree fits. -/
def Adds (fits : Node → Prop) (t t' : Tree) : Prop :=
  ∀ i n, t'.node? i = some n → t.node? i = none → fits n

namespace Adds

variable {fits : Node → Prop} {start : Tree}

theorem refl (fits : Node → Prop) (t : Tree) : t.Adds fits t :=
  fun _ _ here none => by rw [none] at here; cases here

theorem create (h : start.Adds fits t) (inside : i < t.nodes.length) (good : fits n)
    (lists : ∀ n f, fits n → fits (Node.mapEntries f n)) :
    start.Adds fits (t.create i name n) := by
  intro k n' here new
  rw [node?_create inside] at here
  split at here
  · cases here
    exact good
  · split at here
    · next same =>
      obtain ⟨old, found, rfl⟩ := Option.map_eq_some_iff.mp here
      exact lists old _ (h k old (same ▸ found) new)
    · exact h k n' here new

theorem modify {f : Node → Node} (h : start.Adds fits t) (i : Nat)
    (keeps : ∀ n, fits n → fits (f n)) : start.Adds fits (t.modify i f) := by
  intro k n' here new
  rw [node?_modify] at here
  obtain ⟨old, found, rfl⟩ := Option.map_eq_some_iff.mp here
  have fit := h k old found new
  split
  · exact keeps old fit
  · exact fit

end Adds

/-! ## Growth -/

/-- A tree after names were added: every node is still there as it was, except that a directory may
have further names. They come after its own and are none of them. -/
def Grows (t t' : Tree) : Prop :=
  ∀ i n, t.node? i = some n →
    ∃ more, t'.node? i = some (n.mapEntries (· ++ more)) ∧
      ∀ entry ∈ more, t.child? i entry.1 = none

namespace Grows

theorem refl (t : Tree) : Grows t t := by
  intro i n found
  exact ⟨[], by rw [found, n.mapEntries_append_nil], fun _ h => absurd h List.not_mem_nil⟩

theorem isDirectory (h : Grows t t') (dir : t.isDirectory i = true) : t'.isDirectory i = true := by
  obtain ⟨n, found, dir⟩ := isDirectory_iff.mp dir
  obtain ⟨more, found', _⟩ := h i n found
  exact isDirectory_iff.mpr ⟨_, found', by simpa using dir⟩

theorem entries? (h : Grows t t') {entries : List (String × Nat)}
    (found : t.entries? i = some entries) : ∃ more, t'.entries? i = some (entries ++ more) := by
  obtain ⟨n, here, own⟩ := Option.bind_eq_some_iff.mp found
  obtain ⟨more, here', _⟩ := h i n here
  exact ⟨more, by simp [Tree.entries?, here', own]⟩

theorem child? (h : Grows t t') (found : t.child? i name = some j) :
    t'.child? i name = some j := by
  obtain ⟨entries, own, named⟩ := Option.bind_eq_some_iff.mp found
  obtain ⟨more, own'⟩ := h.entries? own
  unfold Tree.child?
  rw [own', Option.bind_some, List.lookup_append, named, Option.some_or]

theorem target? (h : Grows t t') (found : t.node? i = some n) :
    (t'.node? i).bind Node.target? = n.target? := by
  obtain ⟨more, found', _⟩ := h i n found
  simp [found']

theorem length_le (h : Grows t t') : t.nodes.length ≤ t'.nodes.length := by
  rcases Nat.lt_or_ge t'.nodes.length t.nodes.length with less | le
  · obtain ⟨more, found, _⟩ := h t'.nodes.length _ (List.getElem?_eq_getElem less)
    exact absurd (lt_of_node? found) (Nat.lt_irrefl _)
  · exact le

theorem trans (h : Grows t t') (h' : Grows t' t'') : Grows t t'' := by
  intro i n found
  obtain ⟨more, found', free⟩ := h i n found
  obtain ⟨more', found'', free'⟩ := h' i _ found'
  refine ⟨more ++ more', ?_, fun entry mem => ?_⟩
  · rw [found'', Node.mapEntries_mapEntries]
    congr 2
    funext entries
    exact List.append_assoc ..
  · rcases List.mem_append.mp mem with mem | mem
    · exact free entry mem
    · cases own : t.child? i entry.1 with
      | none => rfl
      | some j => exact absurd (h.child? own) (by rw [free' entry mem]; simp)

/-- A new node under a name that is free. -/
theorem create (inside : i < t.nodes.length) (free : t.child? i name = none) :
    Grows t (t.create i name n) := by
  intro k own found
  have old : k ≠ t.nextPlace := Nat.ne_of_lt (lt_of_node? found)
  by_cases here : k = i
  · subst here
    refine ⟨[(name, t.nextPlace)], ?_, fun entry mem => ?_⟩
    · rw [node?_create inside, if_neg old, if_pos rfl, found, Option.map_some]
    · rw [List.mem_singleton.mp mem]
      exact free
  · refine ⟨[], ?_, fun _ mem => absurd mem List.not_mem_nil⟩
    rw [node?_create inside, if_neg old, if_neg here, found, own.mapEntries_append_nil]

/-- A change of a node that was not there at first. -/
theorem modify (h : Grows t t') (f : Node → Node) (new : t.node? i = none) :
    Grows t (t'.modify i f) := by
  intro k own found
  have other : k ≠ i := by
    intro same
    rw [same, new] at found
    cases found
  obtain ⟨more, found', free⟩ := h k own found
  exact ⟨more, by rw [node?_modify_ne f other, found'], free⟩

end Grows

end Tree

end HomeProvision.Machine
