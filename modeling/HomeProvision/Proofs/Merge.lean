import HomeProvision.Provision.Skeleton
import HomeProvision.Machine.Basic

/-!
# Merging forests

A forest is what a directory holds, without the places where a machine keeps it. `Copying.merge`
says what comes of copying one forest into another, and how that is reported, without any call of
the system: what is free is filled, a directory goes into a directory, and everything else stays.
-/

namespace HomeProvision

/-! ## Forests -/

/-- The mode of an entry and its owner, as far as they are known. -/
structure Attributes where
  mode : Nat
  owner : Option Int
  group : Option Int
  deriving Repr, DecidableEq

/-- An entry that holds no further entries. -/
inductive Leaf where
  | file (content : List UInt8)
  | link (target : String)
  | pipe
  /-- The directory that is being filled. What it holds is left out. -/
  | hole
  deriving Repr, DecidableEq

/-- The entries of a directory, in their order. -/
inductive Forest where
  | nil
  | leaf (name : String) (attributes : Attributes) (body : Leaf) (rest : Forest)
  | directory (name : String) (attributes : Attributes) (inner rest : Forest)
  deriving Repr, DecidableEq

namespace Forest

/-- The names of the entries. -/
def names : Forest → List String
  | nil => []
  | leaf name _ _ rest | directory name _ _ rest => name :: rest.names

/-- Whether no directory has two entries of one name. -/
def Distinct : Forest → Prop
  | nil => True
  | leaf name _ _ rest => name ∉ rest.names ∧ rest.Distinct
  | directory name _ inner rest => name ∉ rest.names ∧ inner.Distinct ∧ rest.Distinct

/-- The entries of two forests. -/
def append : Forest → Forest → Forest
  | nil, more => more
  | leaf name a body rest, more => leaf name a body (rest.append more)
  | directory name a inner rest, more => directory name a inner (rest.append more)

/-- What the directory with a name holds. -/
def inner? (name : String) : Forest → Option Forest
  | nil => none
  | leaf other _ _ rest => if name = other then none else rest.inner? name
  | directory other _ inner rest => if name = other then some inner else rest.inner? name

/-- Changes what the directory with a name holds. -/
def setInner (name : String) : Forest → (new : Forest) → Forest
  | nil, _ => nil
  | leaf other a body rest, new =>
      if name = other then leaf other a body rest else leaf other a body (rest.setInner name new)
  | directory other a inner rest, new =>
      if name = other then directory other a new rest
      else directory other a inner (rest.setInner name new)

/-- How deep directories lie in each other. -/
def depth : Forest → Nat
  | nil => 0
  | leaf _ _ _ rest => rest.depth
  | directory _ _ inner rest => max (inner.depth + 1) rest.depth

/-- The length of the longest file. -/
def longest : Forest → Nat
  | nil => 0
  | leaf _ _ (.file content) rest => max content.length rest.longest
  | leaf _ _ _ rest => rest.longest
  | directory _ _ inner rest => max inner.longest rest.longest

theorem Distinct.names {F : Forest} (once : F.Distinct) : F.names.Nodup := by
  induction F with
  | nil => exact List.nodup_nil
  | leaf _ _ _ _ ih => exact List.nodup_cons.mpr ⟨once.1, ih once.2⟩
  | directory _ _ _ _ _ ih => exact List.nodup_cons.mpr ⟨once.1, ih once.2.2⟩

theorem longest_le_leaf (name : String) (a : Attributes) (body : Leaf) (rest : Forest) :
    rest.longest ≤ (leaf name a body rest).longest := by
  cases body with
  | file content => exact Nat.le_max_right _ _
  | link _ => exact Nat.le_refl _
  | pipe => exact Nat.le_refl _
  | hole => exact Nat.le_refl _

theorem inner?_append_new {name : String} {F : Forest} (out : name ∉ F.names) (a : Attributes)
    (inner : Forest) : (F.append (.directory name a inner .nil)).inner? name = some inner := by
  induction F with
  | nil => exact if_pos rfl
  | leaf other _ _ rest ih =>
    rw [append, inner?, if_neg (List.ne_of_not_mem_cons out)]
    exact ih (List.not_mem_of_not_mem_cons out)
  | directory other _ _ rest _ ih =>
    rw [append, inner?, if_neg (List.ne_of_not_mem_cons out)]
    exact ih (List.not_mem_of_not_mem_cons out)

end Forest

/-! ## Merging -/

/-- An owner's number, unless it is one that leaves the owner as it is. -/
def namedId (id : Int) : Option Int :=
  if id = -1 || id = 0xffffffff then none else some id

/-- The attributes of a copy that is given to an owner. -/
def Attributes.given (uid gid : Int) (mode : Nat) : Attributes where
  mode := mode
  owner := namedId uid
  group := namedId gid

/-- Who copies are given to, and where links are moved from and to. -/
structure Copying where
  uid : Int
  gid : Int
  sourceTop : String
  destTop : String

namespace Copying

/-- A forest with what was copied, and the report on it. -/
abbrev State := Forest × CloneReport

/-- The reason why a name that is taken cannot be created. -/
def taken (names : FileNames) : String :=
  (SystemError.numbered .alreadyExists names).message

/-- Copies one entry that holds no others. -/
def mergeLeaf (c : Copying) (source dest name : String) (a : Attributes) (body : Leaf) :
    State → State
  | (there, report) =>
      match body with
      | .file content =>
          if name ∈ there.names then
            (there, report.addFailure (.failure .openFile dest (taken (.one dest))))
          else
            (there.append (.leaf name (.given c.uid c.gid (withoutSetId a.mode)) (.file content) .nil),
              report.addCopied dest)
      | .link target =>
          let target := Path.remap target c.sourceTop c.destTop
          if name ∈ there.names then
            (there, report.addFailure (.failure .symlink dest (taken (.two target dest))))
          else (there.append (.leaf name (.given c.uid c.gid 0o777) (.link target) .nil), report.addCopied dest)
      | .pipe | .hole => (there, report.addSkipped source)

/-- A forest with an empty directory under a name, if the name was free. -/
def withDirectory (c : Copying) (name : String) (a : Attributes) (there : Forest) : Forest :=
  if name ∈ there.names then there
  else there.append (.directory name (.given c.uid c.gid (withoutSetId a.mode)) .nil .nil)

/-- Copies a forest that comes from `source` into one that belongs to `dest`. -/
def merge (c : Copying) (source dest : String) : Forest → State → State
  | .nil, state => state
  | .leaf name a body rest, state =>
      c.merge source dest rest
        (c.mergeLeaf (Path.join source name) (Path.join dest name) name a body state)
  | .directory name a inner rest, (there, report) =>
      let origin := Path.join source name
      let path := Path.join dest name
      let made := c.withDirectory name a there
      c.merge source dest rest <|
        match made.inner? name with
        | some own =>
            let (merged, below) := c.merge origin path inner (own, { outcome := .ok (some origin) })
            (made.setInner name merged, (report.addCopied path).absorb below)
        | none =>
            (there, report.addFailure
              (.failure .create path "destination exists and is not a directory"))

variable {c : Copying} {source dest name : String} {a : Attributes} {inner own there : Forest}
  {report : CloneReport}

/-- A directory that can be entered, since it is there or was made. -/
theorem merge_directory (found : (c.withDirectory name a there).inner? name = some own) :
    c.merge source dest (.directory name a inner .nil) (there, report) =
      let below := c.merge (Path.join source name) (Path.join dest name) inner
        (own, { outcome := .ok (some (Path.join source name)) })
      ((c.withDirectory name a there).setInner name below.1,
        (report.addCopied (Path.join dest name)).absorb below.2) := by
  simp only [merge, found]

/-- A directory whose name is taken by something else. -/
theorem merge_directory_none (none : (c.withDirectory name a there).inner? name = none) :
    c.merge source dest (.directory name a inner .nil) (there, report) =
      (there, report.addFailure (.failure .create (Path.join dest name)
        "destination exists and is not a directory")) := by
  simp only [merge, none]

end Copying

/-- How a walk copies. -/
def Walk.copying (w : Walk) : Copying where
  uid := w.cloner.uid
  gid := w.cloner.gid
  sourceTop := w.sourceTop
  destTop := w.destTop

end HomeProvision
