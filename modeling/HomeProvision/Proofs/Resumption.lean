import HomeProvision.Proofs.Merge
import HomeProvision.Proofs.Modes

/-!
# Merges that are taken up again

A merge that was given up halfway has left a part of what it adds. `Resumes` says of such a part that
the same merge, made again, comes to what it would have come to without the break. This is so for
three reasons: what a merge has done is not done again (`Settled.fill`), what is added later does not
undo it (`Settled.extends`), and what is missing still goes to the same place.

A file is the exception. A name that is taken is never filled again, so a file that was given up
between two of its pieces stays as it is, and the second merge makes up for everything else (`Cut`).
-/

namespace HomeProvision

namespace Forest

variable {F G D P Q inner new own rest : Forest} {name other : String} {a : Attributes} {body : Leaf}

/-! ## Names and directories -/

theorem append_nil (F : Forest) : F.append .nil = F := by
  induction F with
  | nil => rfl
  | leaf name a body rest ih => exact congrArg (leaf name a body) ih
  | directory name a inner rest _ ih => exact congrArg (directory name a inner) ih

theorem names_append (F G : Forest) : (F.append G).names = F.names ++ G.names := by
  induction F with
  | nil => rfl
  | leaf name _ _ _ ih => exact congrArg (List.cons name) ih
  | directory name _ _ _ _ ih => exact congrArg (List.cons name) ih

theorem inner?_leaf_eq_some :
    (leaf other a body rest).inner? name = some inner ↔
      name ≠ other ∧ rest.inner? name = some inner := by
  by_cases same : name = other <;> simp [inner?, same]

theorem inner?_directory_eq_some :
    (directory other a own rest).inner? name = some inner ↔
      name = other ∧ own = inner ∨ name ≠ other ∧ rest.inner? name = some inner := by
  by_cases same : name = other <;> simp [inner?, same]

theorem inner?_leaf_eq_none :
    (leaf other a body rest).inner? name = none ↔ name = other ∨ rest.inner? name = none := by
  by_cases same : name = other <;> simp [inner?, same]

theorem inner?_directory_eq_none :
    (directory other a own rest).inner? name = none ↔ name ≠ other ∧ rest.inner? name = none := by
  by_cases same : name = other <;> simp [inner?, same]

theorem names_setInner (F : Forest) (name : String) (new : Forest) :
    (F.setInner name new).names = F.names := by
  induction F with
  | nil => rfl
  | leaf other _ _ _ ih =>
    unfold setInner
    split
    · rfl
    · exact congrArg (List.cons other) ih
  | directory other _ _ _ _ ih =>
    unfold setInner
    split
    · rfl
    · exact congrArg (List.cons other) ih

theorem inner?_setInner (found : F.inner? name = some inner) :
    (F.setInner name new).inner? name = some new := by
  induction F with
  | nil => cases found
  | leaf _ _ _ _ ih =>
    obtain ⟨apart, found⟩ := inner?_leaf_eq_some.mp found
    rw [setInner, if_neg apart]
    exact inner?_leaf_eq_some.mpr ⟨apart, ih found⟩
  | directory _ _ _ _ _ ih =>
    rcases inner?_directory_eq_some.mp found with ⟨same, _⟩ | ⟨apart, found⟩
    · rw [setInner, if_pos same]
      exact inner?_directory_eq_some.mpr (.inl ⟨same, rfl⟩)
    · rw [setInner, if_neg apart]
      exact inner?_directory_eq_some.mpr (.inr ⟨apart, ih found⟩)

theorem setInner_setInner (F : Forest) (name : String) (old new : Forest) :
    (F.setInner name old).setInner name new = F.setInner name new := by
  induction F with
  | nil => rfl
  | leaf other _ _ _ ih =>
    by_cases same : name = other
    · simp only [setInner, if_pos same]
    · simp only [setInner, if_neg same, ih]
  | directory other _ _ _ _ ih =>
    by_cases same : name = other
    · simp only [setInner, if_pos same]
    · simp only [setInner, if_neg same, ih]

/-- What a directory holds anyway changes nothing. -/
theorem setInner_same (found : F.inner? name = some inner) : F.setInner name inner = F := by
  induction F with
  | nil => cases found
  | leaf _ _ _ _ ih =>
    obtain ⟨apart, found⟩ := inner?_leaf_eq_some.mp found
    rw [setInner, if_neg apart, ih found]
  | directory _ _ _ _ _ ih =>
    rcases inner?_directory_eq_some.mp found with ⟨same, rfl⟩ | ⟨apart, found⟩
    · rw [setInner, if_pos same]
    · rw [setInner, if_neg apart, ih found]

/-- A forest with a new entry, unless its name is taken. -/
def put (name : String) (there new : Forest) : Forest :=
  if name ∈ there.names then there else there.append new

/-! ## Growth -/

/-- Whether a forest has come of another one by entries that were added to directories. -/
inductive Extends : Forest → Forest → Prop
  | nil (more : Forest) : Extends .nil more
  | leaf {name : String} {a : Attributes} {body : Leaf} {rest rest' : Forest}
      (onward : Extends rest rest') : Extends (.leaf name a body rest) (.leaf name a body rest')
  | directory {name : String} {a : Attributes} {inner inner' rest rest' : Forest}
      (lower : Extends inner inner') (onward : Extends rest rest') :
      Extends (.directory name a inner rest) (.directory name a inner' rest')

namespace Extends

theorem refl (F : Forest) : Extends F F := by
  induction F with
  | nil => exact .nil _
  | leaf _ _ _ _ ih => exact .leaf ih
  | directory _ _ _ _ ih ih' => exact .directory ih ih'

theorem trans (h : Extends D P) (h' : Extends P Q) : Extends D Q := by
  induction h generalizing Q with
  | nil => exact .nil _
  | leaf _ ih =>
    cases h' with
    | leaf onward => exact .leaf (ih onward)
  | directory _ _ ih ih' =>
    cases h' with
    | directory lower onward => exact .directory (ih lower) (ih' onward)

theorem append (F G : Forest) : Extends F (F.append G) := by
  induction F with
  | nil => exact .nil _
  | leaf _ _ _ _ ih => exact .leaf ih
  | directory _ _ inner _ _ ih => exact .directory (refl inner) ih

theorem put (name : String) (there new : Forest) : Extends there (there.put name new) := by
  unfold Forest.put
  split
  · exact refl there
  · exact append there new

theorem setInner (found : F.inner? name = some inner) (h : Extends inner new) :
    Extends F (F.setInner name new) := by
  induction F with
  | nil => cases found
  | leaf _ _ _ _ ih =>
    obtain ⟨apart, found⟩ := inner?_leaf_eq_some.mp found
    rw [Forest.setInner, if_neg apart]
    exact .leaf (ih found)
  | directory _ _ own rest _ ih =>
    rcases inner?_directory_eq_some.mp found with ⟨same, rfl⟩ | ⟨apart, found⟩
    · rw [Forest.setInner, if_pos same]
      exact .directory h (refl rest)
    · rw [Forest.setInner, if_neg apart]
      exact .directory (refl own) (ih found)

theorem names (h : Extends D P) : D.names ⊆ P.names := by
  induction h with
  | nil => exact List.nil_subset _
  | leaf _ ih => exact List.cons_subset_cons _ ih
  | directory _ _ _ ih => exact List.cons_subset_cons _ ih

/-- A directory is still there, and has grown itself. -/
theorem inner? (h : Extends D P) (found : D.inner? name = some inner) :
    ∃ inner', P.inner? name = some inner' ∧ Extends inner inner' := by
  induction h with
  | nil => cases found
  | leaf _ ih =>
    obtain ⟨apart, found⟩ := inner?_leaf_eq_some.mp found
    obtain ⟨inner', found', grown⟩ := ih found
    exact ⟨inner', inner?_leaf_eq_some.mpr ⟨apart, found'⟩, grown⟩
  | @directory _ _ _ inner' _ _ lower _ _ ih =>
    rcases inner?_directory_eq_some.mp found with ⟨same, rfl⟩ | ⟨apart, found⟩
    · exact ⟨inner', inner?_directory_eq_some.mpr (.inl ⟨same, rfl⟩), lower⟩
    · obtain ⟨inner', found', grown⟩ := ih found
      exact ⟨inner', inner?_directory_eq_some.mpr (.inr ⟨apart, found'⟩), grown⟩

/-- What has a name and is no directory never becomes one. -/
theorem inner?_eq_none (h : Extends D P) (taken : name ∈ D.names) (bare : D.inner? name = none) :
    P.inner? name = none := by
  induction h with
  | nil => cases taken
  | leaf _ ih =>
    refine inner?_leaf_eq_none.mpr ?_
    rcases inner?_leaf_eq_none.mp bare with same | bare
    · exact .inl same
    · exact (List.mem_cons.mp taken).imp_right fun taken => ih taken bare
  | directory _ _ _ ih =>
    obtain ⟨apart, bare⟩ := inner?_directory_eq_none.mp bare
    have taken := (List.mem_cons.mp taken).resolve_left apart
    exact inner?_directory_eq_none.mpr ⟨apart, ih taken bare⟩

end Extends

/-! ## Forests with a file that was given up -/

/-- Whether two forests are the same but for one file. In the second one only a part of it is there,
with a mode for its owner only. Who that is stays open. -/
inductive Cut : Forest → Forest → Prop
  | file {name : String} {a : Attributes} {content piece : List UInt8} {mode : Nat} {rest : Forest}
      (part : piece <+: content) (own : BitsWithin mode 0o600) :
      Cut (.leaf name a (.file content) rest) (.leaf name ⟨mode, none, none⟩ (.file piece) rest)
  | leaf {name : String} {a : Attributes} {body : Leaf} {rest rest' : Forest}
      (later : Cut rest rest') : Cut (.leaf name a body rest) (.leaf name a body rest')
  | inner {name : String} {a : Attributes} {inner inner' rest : Forest} (lower : Cut inner inner') :
      Cut (.directory name a inner rest) (.directory name a inner' rest)
  | rest {name : String} {a : Attributes} {inner rest rest' : Forest} (later : Cut rest rest') :
      Cut (.directory name a inner rest) (.directory name a inner rest')

namespace Cut

theorem names (h : Cut F G) : G.names = F.names := by
  induction h with
  | file => rfl
  | leaf _ ih => exact congrArg (List.cons _) ih
  | inner => rfl
  | rest _ ih => exact congrArg (List.cons _) ih

theorem append (h : Cut F G) (more : Forest) : Cut (F.append more) (G.append more) := by
  induction h with
  | file part own => exact .file part own
  | leaf _ ih => exact .leaf ih
  | inner lower => exact .inner lower
  | rest _ ih => exact .rest ih

theorem put (h : Cut F G) (name : String) (new : Forest) : Cut (F.put name new) (G.put name new) := by
  unfold Forest.put
  rw [h.names]
  split
  · exact h
  · exact h.append new

/-- A forest in front of the two changes nothing. -/
theorem after (h : Cut F G) (D : Forest) : Cut (D.append F) (D.append G) := by
  induction D with
  | nil => exact h
  | leaf _ _ _ _ ih => exact .leaf ih
  | directory _ _ _ _ _ ih => exact .rest ih

/-- Neither does a forest around them. -/
theorem around (h : Cut P Q) (found : F.inner? name = some inner) :
    Cut (F.setInner name P) (F.setInner name Q) := by
  induction F with
  | nil => cases found
  | leaf _ _ _ _ ih =>
    obtain ⟨apart, found⟩ := inner?_leaf_eq_some.mp found
    rw [setInner, if_neg apart, setInner, if_neg apart]
    exact .leaf (ih found)
  | directory _ _ _ _ _ ih =>
    rcases inner?_directory_eq_some.mp found with ⟨same, _⟩ | ⟨apart, found⟩
    · rw [setInner, if_pos same, setInner, if_pos same]
      exact .inner h
    · rw [setInner, if_neg apart, setInner, if_neg apart]
      exact .rest (ih found)

theorem inner?_eq_none (h : Cut F G) (bare : F.inner? name = none) : G.inner? name = none := by
  induction h with
  | file => exact bare
  | leaf _ ih => exact inner?_leaf_eq_none.mpr ((inner?_leaf_eq_none.mp bare).imp_right ih)
  | inner => exact inner?_directory_eq_none.mpr (inner?_directory_eq_none.mp bare)
  | rest _ ih => exact inner?_directory_eq_none.mpr ((inner?_directory_eq_none.mp bare).imp_right ih)

/-- A directory that is in both of the forests may change: in the same way if it is the same in both,
and else so that the file in it stays the only difference. -/
theorem setInner (h : Cut F G) (found : F.inner? name = some inner) :
    ∃ inner', G.inner? name = some inner' ∧ ∀ P Q, (inner = inner' → P = Q) →
      (Cut inner inner' → Cut P Q) → Cut (F.setInner name P) (G.setInner name Q) := by
  induction h with
  | file part own =>
    obtain ⟨apart, found⟩ := inner?_leaf_eq_some.mp found
    refine ⟨inner, inner?_leaf_eq_some.mpr ⟨apart, found⟩, fun P Q equal _ => ?_⟩
    rw [Forest.setInner, if_neg apart, Forest.setInner, if_neg apart, equal rfl]
    exact .file part own
  | leaf _ ih =>
    obtain ⟨apart, found⟩ := inner?_leaf_eq_some.mp found
    obtain ⟨inner', found', change⟩ := ih found
    refine ⟨inner', inner?_leaf_eq_some.mpr ⟨apart, found'⟩, fun P Q equal cut => ?_⟩
    rw [Forest.setInner, if_neg apart, Forest.setInner, if_neg apart]
    exact .leaf (change P Q equal cut)
  | @inner _ _ _ own' _ lower =>
    rcases inner?_directory_eq_some.mp found with ⟨same, rfl⟩ | ⟨apart, found⟩
    · refine ⟨own', inner?_directory_eq_some.mpr (.inl ⟨same, rfl⟩), fun P Q _ cut => ?_⟩
      rw [Forest.setInner, if_pos same, Forest.setInner, if_pos same]
      exact .inner (cut lower)
    · refine ⟨inner, inner?_directory_eq_some.mpr (.inr ⟨apart, found⟩), fun P Q equal _ => ?_⟩
      rw [Forest.setInner, if_neg apart, Forest.setInner, if_neg apart, equal rfl]
      exact .inner lower
  | rest later ih =>
    rcases inner?_directory_eq_some.mp found with ⟨same, rfl⟩ | ⟨apart, found⟩
    · refine ⟨_, inner?_directory_eq_some.mpr (.inl ⟨same, rfl⟩), fun P Q equal _ => ?_⟩
      rw [Forest.setInner, if_pos same, Forest.setInner, if_pos same, equal rfl]
      exact .rest later
    · obtain ⟨inner', found', change⟩ := ih found
      refine ⟨inner', inner?_directory_eq_some.mpr (.inr ⟨apart, found'⟩), fun P Q equal cut => ?_⟩
      rw [Forest.setInner, if_neg apart, Forest.setInner, if_neg apart]
      exact .rest (change P Q equal cut)

end Cut

end Forest

/-! ## Merges without a report -/

namespace Copying

open Forest

variable (c : Copying) {F G D P Q inner own rest : Forest} {name : String} {a : Attributes}
  {body : Leaf}

/-- What is made of an entry that holds no others. -/
def copyOf (name : String) (a : Attributes) : Leaf → Forest
  | .file content =>
      .leaf name (.given c.uid c.gid (withoutSetId a.mode)) (.file content) .nil
  | .link target =>
      .leaf name (.given c.uid c.gid 0o777) (.link (Path.remap target c.sourceTop c.destTop)) .nil
  | .pipe | .hole => .nil

/-- Merges into what a directory holds that is there or is made. -/
def within (name : String) (a : Attributes) (fill : Forest → Forest) (there : Forest) : Forest :=
  match (c.withDirectory name a there).inner? name with
  | some own => (c.withDirectory name a there).setInner name (fill own)
  | none => there

/-- The forest that comes of a merge. -/
def fill : Forest → Forest → Forest
  | .nil, there => there
  | .leaf name a body rest, there => fill rest (there.put name (c.copyOf name a body))
  | .directory name a inner rest, there => fill rest (c.within name a (fill inner) there)

theorem withDirectory_eq_put :
    c.withDirectory name a D = D.put name
      (.directory name (.given c.uid c.gid (withoutSetId a.mode)) .nil .nil) :=
  rfl

theorem mergeLeaf_fst (source dest : String) (report : CloneReport) :
    (c.mergeLeaf source dest name a body (D, report)).1 = D.put name (c.copyOf name a body) := by
  unfold mergeLeaf put
  cases body with
  | file content => dsimp only [copyOf]; split <;> rfl
  | link target => dsimp only [copyOf]; split <;> rfl
  | pipe => rw [copyOf, append_nil, ite_self]
  | hole => rw [copyOf, append_nil, ite_self]

/-- The forest of a merge does not depend on the report. -/
theorem merge_fst (source dest : String) (F : Forest) (state : State) :
    (c.merge source dest F state).1 = c.fill F state.1 := by
  induction F generalizing source dest state with
  | nil => rfl
  | leaf name a body rest ih =>
    rw [merge, ih, mergeLeaf_fst]
    rfl
  | directory name a inner rest ih ih' =>
    obtain ⟨there, report⟩ := state
    rw [merge, ih', fill, within]
    dsimp only
    cases (c.withDirectory name a there).inner? name with
    | none => rfl
    | some own => simp only [ih]

theorem fill_append : c.fill (F.append G) D = c.fill G (c.fill F D) := by
  induction F generalizing D with
  | nil => rfl
  | leaf _ _ _ _ ih => exact ih
  | directory _ _ _ _ _ ih => exact ih

theorem extends_within {fill : Forest → Forest} (grows : ∀ own, Extends own (fill own)) :
    Extends D (c.within name a fill D) := by
  unfold Copying.within
  split
  · next own found => exact (Extends.put name D _).trans (.setInner found (grows own))
  · exact .refl D

theorem extends_fill (F D : Forest) : Extends D (c.fill F D) := by
  induction F generalizing D with
  | nil => exact .refl D
  | leaf name a body rest ih => exact (Extends.put name D _).trans (ih _)
  | directory name a inner rest ih ih' => exact (c.extends_within ih).trans (ih' _)

/-! ## What a merge has done -/

/-- Whether a forest has everything that a merge would add to it. -/
def Settled : Forest → Forest → Prop
  | .nil, _ => True
  | .leaf name a body rest, there =>
      (c.copyOf name a body).names ⊆ there.names ∧ Settled rest there
  | .directory name _ inner rest, there =>
      name ∈ there.names ∧ (∀ own, there.inner? name = some own → Settled inner own) ∧
        Settled rest there

variable {c}

theorem put_copyOf (there : (c.copyOf name a body).names ⊆ D.names) :
    D.put name (c.copyOf name a body) = D := by
  unfold put
  cases body with
  | file _ => exact if_pos (there List.mem_cons_self)
  | link _ => exact if_pos (there List.mem_cons_self)
  | pipe => rw [copyOf, append_nil, ite_self]
  | hole => rw [copyOf, append_nil, ite_self]

theorem names_put_copyOf :
    (c.copyOf name a body).names ⊆ (D.put name (c.copyOf name a body)).names := by
  unfold put
  split
  · next taken =>
    cases body with
    | file _ => exact List.cons_subset.mpr ⟨taken, List.nil_subset _⟩
    | link _ => exact List.cons_subset.mpr ⟨taken, List.nil_subset _⟩
    | pipe => exact List.nil_subset _
    | hole => exact List.nil_subset _
  · rw [names_append]
    exact List.subset_append_right _ _

/-- What is added later leaves nothing to add. -/
theorem Settled.extends (h : c.Settled F D) (grown : Extends D P) : c.Settled F P := by
  induction F generalizing D P with
  | nil => trivial
  | leaf _ _ _ _ ih => exact ⟨fun _ mem => grown.names (h.1 mem), ih h.2 grown⟩
  | directory name _ _ _ ih ih' =>
    obtain ⟨taken, lower, onward⟩ := h
    refine ⟨grown.names taken, fun own found => ?_, ih' onward grown⟩
    cases before : D.inner? name with
    | none =>
      rw [grown.inner?_eq_none taken before] at found
      cases found
    | some old =>
      obtain ⟨new, found', grown'⟩ := grown.inner? before
      rw [found'] at found
      cases found
      exact ih (lower old before) grown'

/-- A merge that has been made adds nothing. -/
theorem Settled.fill (h : c.Settled F D) : c.fill F D = D := by
  induction F generalizing D with
  | nil => rfl
  | leaf _ _ _ _ ih => rw [Copying.fill, put_copyOf h.1, ih h.2]
  | directory name a inner _ ih ih' =>
    obtain ⟨taken, lower, onward⟩ := h
    have made : c.withDirectory name a D = D := if_pos taken
    have inside : c.within name a (c.fill inner) D = D := by
      unfold within
      rw [made]
      split
      · next own found => rw [ih (lower own found), setInner_same found]
      · rfl
    rw [Copying.fill, inside, ih' onward]

theorem mem_withDirectory (D : Forest) : name ∈ (c.withDirectory name a D).names := by
  rw [withDirectory_eq_put, put]
  split
  · assumption
  · rw [names_append]
    exact List.mem_append_right _ List.mem_cons_self

/-- A directory that cannot be entered was not made. -/
theorem withDirectory_of_none (bare : (c.withDirectory name a D).inner? name = none) :
    c.withDirectory name a D = D := by
  by_cases taken : name ∈ D.names
  · exact if_pos taken
  · rw [withDirectory, if_neg taken, inner?_append_new taken] at bare
    cases bare

theorem settled_fill (F D : Forest) : c.Settled F (c.fill F D) := by
  induction F generalizing D with
  | nil => trivial
  | leaf name a body rest ih =>
    exact ⟨fun _ mem => (c.extends_fill rest _).names (names_put_copyOf mem), ih _⟩
  | directory name a inner rest ih ih' =>
    -- the rest adds to the forest, so it is enough to look at the directory alone
    suffices here : c.Settled (.directory name a inner .nil) (c.within name a (c.fill inner) D) by
      obtain ⟨taken, lower, _⟩ := here.extends (c.extends_fill rest _)
      exact ⟨taken, lower, ih' _⟩
    unfold within
    split
    · next own found =>
      refine ⟨?_, fun new found' => ?_, trivial⟩
      · rw [names_setInner]
        exact mem_withDirectory D
      · rw [inner?_setInner found] at found'
        cases found'
        exact ih own
    · next bare =>
      have same := withDirectory_of_none bare
      rw [same] at bare
      refine ⟨same ▸ mem_withDirectory D, fun own found => ?_, trivial⟩
      rw [bare] at found
      cases found

/-! ## Merges that are made again -/

/-- A merge makes up for nothing in a file that was given up, and leaves it the only difference. -/
theorem Cut.fill (h : Cut P Q) (F : Forest) : Cut (c.fill F P) (c.fill F Q) := by
  induction F generalizing P Q with
  | nil => exact h
  | leaf name a body rest ih => exact ih (h.put name _)
  | directory name a inner rest ih ih' =>
    refine ih' ?_
    have made : Cut (c.withDirectory name a P) (c.withDirectory name a Q) := h.put name _
    unfold within
    cases found : (c.withDirectory name a P).inner? name with
    | none =>
      rw [made.inner?_eq_none found]
      exact h
    | some own =>
      obtain ⟨own', found', change⟩ := made.setInner found
      rw [found']
      exact change _ _ (congrArg _) ih

/-- Whether a merge of `F` into `D` that has come as far as `P` can be taken up again. If it was
given up between two pieces of a file, this file is left out. -/
structure Resumes (c : Copying) (F : Forest) (between : Bool) (D P : Forest) : Prop where
  grown : Extends D P
  same : between = false → c.fill F P = c.fill F D
  part : between = true → Cut (c.fill F D) (c.fill F P)

namespace Resumes

variable {between : Bool}

/-- A merge that has not been started yet. -/
theorem start : Resumes c F false D D :=
  ⟨.refl D, fun _ => rfl, fun bad => by cases bad⟩

/-- A merge that has come to the first of two forests. -/
theorem append (h : Resumes c F between D P) : Resumes c (F.append G) between D P := by
  refine ⟨h.grown, fun own => ?_, fun own => ?_⟩
  · rw [fill_append, fill_append, h.same own]
  · rw [fill_append, fill_append]
    exact Cut.fill (h.part own) G

/-- A merge that has come to the second of two forests. The first one is not merged again. -/
theorem after (h : Resumes c G between (c.fill F D) P) : Resumes c (F.append G) between D P := by
  have done : c.fill F P = P := ((settled_fill F D).extends h.grown).fill
  refine ⟨(c.extends_fill F D).trans h.grown, fun own => ?_, fun own => ?_⟩
  · rw [fill_append, fill_append, done, h.same own]
  · rw [fill_append, fill_append, done]
    exact h.part own

/-- A merge that has come into a directory. -/
theorem inside (found : (c.withDirectory name a D).inner? name = some own)
    (h : Resumes c inner between own P) :
    Resumes c (.directory name a inner .nil) between D ((c.withDirectory name a D).setInner name P) := by
  have whole : c.fill (.directory name a inner .nil) D =
      (c.withDirectory name a D).setInner name (c.fill inner own) := by
    simp only [fill, within, found]
  have again : c.fill (.directory name a inner .nil) ((c.withDirectory name a D).setInner name P) =
      (c.withDirectory name a D).setInner name (c.fill inner P) := by
    have made : c.withDirectory name a ((c.withDirectory name a D).setInner name P) =
        (c.withDirectory name a D).setInner name P :=
      if_pos (by rw [names_setInner]; exact mem_withDirectory D)
    simp only [fill, within, made, inner?_setInner found, setInner_setInner]
  refine ⟨(Extends.put name D _).trans (.setInner found h.grown), fun same => ?_, fun cut => ?_⟩
  · rw [whole, again, h.same same]
  · rw [whole, again]
    exact .around (h.part cut) found

/-- A merge that was given up between two pieces of a file. -/
theorem file {content piece : List UInt8} {mode : Nat} (free : name ∉ D.names)
    (part : piece <+: content) (hidden : BitsWithin mode 0o600) :
    Resumes c (.leaf name a (.file content) .nil) true D
      (D.append (.leaf name ⟨mode, none, none⟩ (.file piece) .nil)) := by
  have taken : name ∈ (D.append (.leaf name ⟨mode, none, none⟩ (.file piece) .nil)).names := by
    rw [names_append]
    exact List.mem_append_right _ List.mem_cons_self
  refine ⟨.append D _, fun bad => (by cases bad), fun _ => ?_⟩
  simp only [fill, put, if_neg free, if_pos taken]
  exact Cut.after (.file part hidden) D

end Resumes

end Copying

end HomeProvision
