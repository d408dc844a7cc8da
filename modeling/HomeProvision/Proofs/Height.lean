import HomeProvision.Proofs.Below
import HomeProvision.Proofs.Unaliased
import Mathlib.Data.Fintype.Card

/-!
# How deep a tree is

In a plain file tree a directory is reached from the root in one way only, so that there are fewer
steps on a way than there are nodes (`Tree.Plain.way_lt`).

A clone makes directories in the tree that it walks through. What it makes below the destination may
lie below the source, too, but not far below it: a way that avoids the destination is no longer than
the way that led there from the destination (`Tree.Plain.way_le`). So no way that avoids the
destination gets longer than those that were there before, as long as a directory is made only where
its original is reached by such a way (`Tree.Plain.way_create`).
-/

namespace HomeProvision.Machine

/-- A tree in which names lead to nodes, a directory has one name and the root has none. -/
structure Tree.Plain (t : Tree) : Prop where
  named : ∀ i name k, t.child? i name = some k → t.node? k ≠ none
  single : ∀ i j name name' k, t.child? i name = some k → t.child? j name' = some k →
    t.isDirectory k = true → i = j ∧ name = name'
  top : ∀ i name, t.child? i name ≠ some Tree.root

/-- Whether a directory is reached from another one in a number of steps, through directories other
than `home`. -/
inductive Tree.Way (t : Tree) (home : Option Nat) (origin : Nat) : Nat → Nat → Prop
  | start : Way t home origin 0 origin
  | step {n i k : Nat} (way : Way t home origin n i) (holds : t.Holds home i k) :
      Way t home origin (n + 1) k

namespace Tree

variable {t t' : Tree} {home : Option Nat} {origin i j k n r d : Nat} {name : String} {new : Node}

/-! ## Ways -/

theorem Holds.isDirectory (h : t.Holds home i k) : t.isDirectory i = true := by
  obtain ⟨⟨name, named⟩, _⟩ := h
  exact isDirectory_of_child? named

theorem Holds.anywhere (h : t.Holds home i k) : t.Holds none i k :=
  ⟨h.1, h.2.1, fun none => by cases none⟩

theorem Holds.grows (h : t.Holds home i k) (grows : t.Grows t') : t'.Holds home i k := by
  obtain ⟨⟨name, named⟩, dir, other⟩ := h
  exact ⟨⟨name, grows.child? named⟩, grows.isDirectory dir, other⟩

namespace Way

theorem grows (h : t.Way home origin n k) (grows : t.Grows t') : t'.Way home origin n k := by
  induction h with
  | start => exact .start
  | step _ holds ih => exact ih.step (holds.grows grows)

theorem sameShape (same : t.SameShape t') :
    t'.Way home origin n k ↔ t.Way home origin n k := by
  have holds : ∀ {i k}, t'.Holds home i k ↔ t.Holds home i k := by
    intro i k
    unfold Holds
    simp only [same.child?, same.isDirectory]
  constructor
  · intro h
    induction h with
    | start => exact .start
    | step _ last ih => exact ih.step (holds.mp last)
  · intro h
    induction h with
    | start => exact .start
    | step _ last ih => exact ih.step (holds.mpr last)

/-- A way that goes on with another one. -/
theorem trans {a : Nat} (first : t.Way none origin n a) (rest : t.Way home a r k) :
    t.Way none origin (n + r) k := by
  induction rest with
  | start => exact first
  | step _ holds ih => exact ih.step holds.anywhere

theorem isDirectory (h : t.Way home origin n k) (dir : t.isDirectory origin = true) :
    t.isDirectory k = true := by
  cases h with
  | start => exact dir
  | step _ holds => exact holds.2.1

/-- The directories on a way. -/
theorem upto (h : t.Way home origin n k) (dir : t.isDirectory k = true) :
    ∀ m ≤ n, ∃ j, t.Way home origin m j ∧ t.isDirectory j = true := by
  induction h with
  | start =>
    intro m le
    obtain rfl := Nat.le_zero.mp le
    exact ⟨origin, .start, dir⟩
  | @step n i k way holds ih =>
    intro m le
    rcases Nat.le_succ_iff.mp le with le | rfl
    · exact ih holds.isDirectory m le
    · exact ⟨k, way.step holds, dir⟩

/-- Names that are followed step by step are a way. -/
theorem of_locate {names : List String} (located : t.locate d names = some k)
    (dir : t.isDirectory k = true) : t.Way none d names.length k := by
  induction names using List.reverseRecOn generalizing k with
  | nil =>
    cases located
    exact .start
  | append_singleton names name ih =>
    rw [locate_snoc] at located
    obtain ⟨i, above, named⟩ := Option.bind_eq_some_iff.mp located
    rw [List.length_append]
    refine (ih above (isDirectory_of_child? named)).step ⟨⟨name, named⟩, dir, fun none => ?_⟩
    cases none

end Way

/-! ## Plain trees -/

namespace Plain

variable (plain : t.Plain)
include plain

/-- A directory is reached from the root in one number of steps. -/
theorem way_unique {m : Nat} (h : t.Way none root n k) (h' : t.Way none root m k) : n = m := by
  induction h generalizing m with
  | start =>
    cases h' with
    | start => rfl
    | step _ holds =>
      obtain ⟨name, named⟩ := holds.1
      exact absurd named (plain.top _ name)
  | step _ holds ih =>
    cases h' with
    | start =>
      obtain ⟨name, named⟩ := holds.1
      exact absurd named (plain.top _ name)
    | step way' holds' =>
      rw [← holds.unique plain.single holds'] at way'
      exact congrArg (· + 1) (ih way')

/-- On a way from the root there are fewer steps than there are nodes. -/
theorem way_lt (h : t.Way none root n k) (dir : t.isDirectory k = true) :
    n < t.nodes.length := by
  have reached : ∀ m : Fin (n + 1), ∃ j : Fin t.nodes.length, t.Way none root m j := by
    intro m
    obtain ⟨j, way, dir⟩ := h.upto dir m (Nat.le_of_lt_succ m.isLt)
    exact ⟨⟨j, lt_of_isDirectory dir⟩, way⟩
  choose f way using reached
  have distinct : Function.Injective f := fun a b same =>
    Fin.ext (plain.way_unique (way a) (same ▸ way b))
  have fewer := Fintype.card_le_of_injective f distinct
  rw [Fintype.card_fin, Fintype.card_fin] at fewer
  exact fewer

/-- A way that avoids a directory is no longer than a way from that directory. -/
theorem way_le (avoiding : t.Way (some d) origin n k) (below : t.Way none d r k) : n ≤ r := by
  induction below generalizing n with
  | start =>
    cases avoiding with
    | start => exact Nat.le_refl _
    | step _ holds => exact absurd rfl holds.2.2
  | step _ holds ih =>
    cases avoiding with
    | start => exact Nat.zero_le _
    | step way holds' =>
      rw [holds'.unique plain.single holds] at way
      exact Nat.succ_le_succ (ih way)

end Plain

theorem Plain.of_nodes
    (named : ∀ i < t.nodes.length, ∀ entry ∈ (t.entries? i).getD [],
      entry.2 < t.nodes.length ∧ entry.2 ≠ root)
    (single : ∀ i < t.nodes.length, ∀ j < t.nodes.length, ∀ entry ∈ (t.entries? i).getD [],
      ∀ entry' ∈ (t.entries? j).getD [], entry.2 = entry'.2 → t.isDirectory entry.2 = true →
        i = j ∧ entry.1 = entry'.1) : t.Plain := by
  have leads : ∀ i name k, t.child? i name = some k → k < t.nodes.length ∧ k ≠ root := by
    intro i name k present
    obtain ⟨entries, listed, _⟩ := Option.bind_eq_some_iff.mp present
    have all := named i (lt_of_isDirectory (isDirectory_of_child? present))
    rw [listed] at all
    exact all (name, k) (mem_of_child? listed present)
  refine ⟨fun i name k present => ?_, fun i j name name' k => single_of_nodes single,
    fun i name present => (leads i name root present).2 rfl⟩
  unfold node?
  rw [List.getElem?_eq_getElem (leads i name k present).1]
  simp

theorem Plain.changed {m m' : Machine} {f : Node → Node} (plain : m.tree.Plain)
    (changed : Changed m i f m') : m'.tree.Plain where
  named := by
    intro j name k present
    rw [changed.sameShape.child?] at present
    rw [changed.tree, node?_modify]
    simpa using plain.named j name k present
  single := by
    intro a b x y k present present' dir
    rw [changed.sameShape.child?] at present present'
    rw [changed.sameShape.isDirectory] at dir
    exact plain.single a b x y k present present' dir
  top := by
    intro j name present
    rw [changed.sameShape.child?] at present
    exact plain.top j name present

/-! ## New nodes -/

section

variable (inside : i < t.nodes.length) (bare : new.entries?.getD [] = [])
include inside bare

namespace Plain

variable (plain : t.Plain)
include plain

omit inside bare in
theorem ne_nextPlace (named : t.child? j name = some k) : k ≠ t.nextPlace := by
  intro same
  exact plain.named j name k named (by rw [same]; exact node?_nextPlace)

theorem create : (t.create i name new).Plain where
  named := by
    intro j x k present
    rw [node?_create inside]
    rcases child?_create inside bare present with old | ⟨_, _, rfl⟩
    · rw [if_neg (plain.ne_nextPlace old)]
      have there := plain.named j x k old
      split
      · next here =>
        subst here
        simpa using there
      · exact there
    · rw [if_pos rfl]
      simp
  single := by
    intro a b x y k present present' dir
    rcases child?_create inside bare present with old | ⟨rfl, rfl, rfl⟩
    · have earlier := plain.ne_nextPlace old
      rcases child?_create inside bare present' with old' | ⟨_, _, rfl⟩
      · rw [isDirectory_create inside earlier] at dir
        exact plain.single a b x y k old old' dir
      · exact absurd rfl earlier
    · rcases child?_create inside bare present' with old' | ⟨rfl, rfl, _⟩
      · exact absurd rfl (plain.ne_nextPlace old')
      · exact ⟨rfl, rfl⟩
  top := by
    intro j x present
    rcases child?_create inside bare present with old | ⟨_, _, same⟩
    · exact plain.top j x old
    · have none : t.nodes.length = 0 := same.symm
      omega

/-- A way in a tree with a new node was there before, or its last step leads to the node. -/
theorem way_of_create (h : (t.create i name new).Way home origin n k) :
    t.Way home origin n k ∨
      (new.isDirectory = true ∧ ∃ m, n = m + 1 ∧ k = t.nextPlace ∧ t.Way home origin m i) := by
  induction h with
  | start => exact .inl .start
  | @step n j k _ holds ih =>
    obtain ⟨⟨x, present⟩, dir, other⟩ := holds
    rcases child?_create inside bare present with old | ⟨rfl, rfl, rfl⟩
    · rcases ih with way | ⟨_, _, _, rfl, _⟩
      · rw [isDirectory_create inside (plain.ne_nextPlace old)] at dir
        exact .inl (way.step ⟨⟨x, old⟩, dir, other⟩)
      · -- the new node has no names
        have there := node?_ne_none_of_isDirectory (isDirectory_of_child? old)
        exact absurd node?_nextPlace there
    · rcases ih with way | ⟨_, _, _, same, _⟩
      · obtain ⟨own, found, dir⟩ := isDirectory_iff.mp dir
        rw [node?_create_new inside] at found
        cases found
        exact .inr ⟨dir, n, rfl, rfl, way⟩
      · exact absurd inside (by rw [same]; exact Nat.lt_irrefl _)

/-- A node that is no directory is on no way. -/
theorem way_leaf {bound : Nat} (leaf : new.isDirectory = false)
    (low : ∀ n k, t.Way home origin n k → n ≤ bound) :
    ∀ n k, (t.create i name new).Way home origin n k → n ≤ bound := by
  intro n k way
  rcases plain.way_of_create inside bare way with old | ⟨dir, _⟩
  · exact low n k old
  · rw [leaf] at dir
    cases dir

/-- A directory that is made where names lead from `d` makes no way that avoids `d` longer than one
step more than there are names. -/
theorem way_create {bound : Nat} {names : List String} (located : t.locate d names = some i)
    (dir : t.isDirectory i = true) (short : names.length + 1 ≤ bound)
    (low : ∀ n k, t.Way (some d) origin n k → n ≤ bound) :
    ∀ n k, (t.create i name new).Way (some d) origin n k → n ≤ bound := by
  intro n k way
  rcases plain.way_of_create inside bare way with old | ⟨_, m, rfl, _, above⟩
  · exact low n k old
  · have le := plain.way_le above (Way.of_locate located dir)
    omega

end Plain

end

/-! ## The way back to the root -/

/-- Whether each directory on the way back from a node names the one that it led to, and the last
one is the root. -/
def Rooted (t : Tree) : Nat → List Nat → Prop
  | i, [] => i = root
  | i, j :: above => (∃ name, t.child? j name = some i) ∧ t.Rooted j above

theorem Rooted.parent {p : Place} (h : t.Rooted p.node p.above) :
    t.Rooted p.parent.node p.parent.above := by
  unfold Place.parent
  split
  · exact h
  · next j above split =>
    rw [split] at h
    exact h.2

theorem rooted_walkWith {again : Place → Route → Except Errno Place} {follow directory : Bool}
    {components : List String} {p q : Place}
    (onward : ∀ p r q, t.Rooted p.node p.above → again p r = .ok q → t.Rooted q.node q.above)
    (h : t.Rooted p.node p.above)
    (leads : t.walkWith again follow p components directory = .ok q) :
    t.Rooted q.node q.above := by
  induction components generalizing p with
  | nil =>
    rw [walkWith_nil] at leads
    split at leads
    · cases leads
    · cases leads
      exact h
  | cons name rest ih =>
    cases dir : t.isDirectory p.node with
    | false =>
      rw [walkWith_outside _ dir] at leads
      cases leads
    | true =>
      rw [walkWith_cons _ dir] at leads
      split at leads
      · exact ih h leads
      split at leads
      · exact ih h.parent leads
      split at leads
      · cases leads
      cases named : t.child? p.node name with
      | none => rw [named] at leads; cases leads
      | some i =>
        have below : t.Rooted (p.step i).node (p.step i).above := ⟨⟨name, named⟩, h⟩
        rw [named] at leads
        dsimp only at leads
        split at leads
        · exact ih below leads
        · split at leads
          · refine onward _ _ q ?_ leads
            split
            · rfl
            · exact h
          · cases leads
            exact below

theorem rooted_walk {follow : Bool} {links : Nat} {p q : Place} {route : Route}
    (h : t.Rooted p.node p.above) (leads : t.walk follow links p route = .ok q) :
    t.Rooted q.node q.above := by
  induction links generalizing p q route with
  | zero =>
    rw [walk_eq] at leads
    exact rooted_walkWith (fun _ _ _ _ bad => by cases bad) h leads
  | succ links ih =>
    rw [walk_eq] at leads
    exact rooted_walkWith (fun _ _ _ h leads => ih h leads) h leads

/-- What a path leads to is found from the root, step by step. -/
theorem rooted_of_resolve {current path : String} {follow : Bool} {q : Place}
    (leads : t.resolve current follow path = .ok q) : t.Rooted q.node q.above := by
  obtain ⟨_, _, leads⟩ := bind_eq_ok.mp leads
  obtain ⟨p, begins, leads⟩ := bind_eq_ok.mp leads
  refine rooted_walk ?_ leads
  unfold Tree.start at begins
  split at begins
  · cases begins
    rfl
  · obtain ⟨_, _, leads⟩ := bind_eq_ok.mp begins
    exact rooted_walk (p := Place.root) rfl leads

theorem Rooted.way {above : List Nat} (h : t.Rooted i above) (dir : t.isDirectory i = true) :
    t.Way none root above.length i := by
  induction above generalizing i with
  | nil =>
    obtain rfl : i = root := h
    exact .start
  | cons j above ih =>
    obtain ⟨⟨name, named⟩, rest⟩ := h
    refine (ih rest (isDirectory_of_child? named)).step ⟨⟨name, named⟩, dir, fun none => ?_⟩
    cases none

/-- Below a directory that a path leads to, no way has as many steps as there are nodes. -/
theorem Plain.way_lt_of_directoryAt (plain : t.Plain) {current path : String} {q : Place}
    (leads : t.directoryAt current path = .ok q) (way : t.Way home q.node n k) :
    n < t.nodes.length := by
  obtain ⟨leads, dir⟩ := directoryAt_eq_ok_iff.mp leads
  have down := ((rooted_of_resolve leads).way dir).trans way
  exact Nat.lt_of_le_of_lt (Nat.le_add_left n _) (plain.way_lt down (way.isDirectory dir))

end Tree

end HomeProvision.Machine
