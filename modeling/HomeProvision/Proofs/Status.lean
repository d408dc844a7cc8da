import HomeProvision.Proofs.Change

/-!
# What a status says

A tree is regular when it holds what a file tree can hold: permission bits as modes, and names that
are names. In a regular tree the mode of a status tells the type of a node and its permission bits
apart, and what is created or changed by calls is regular again (`Regular.created`,
`Regular.changed`).
-/

namespace HomeProvision.Machine

/-! ## The bits of a mode -/

theorem and_permissionMask {mode : Nat} (small : mode < 0o10000) : mode &&& permissionMask = mode :=
  Nat.and_two_pow_sub_one_of_lt_two_pow (n := 12) small

/-- What kind of entry a node is. -/
def Node.entryType (n : Node) : EntryType :=
  match n.body with
  | .directory _ _ => .directory
  | .file _ => .regularFile
  | .link _ => .symlink
  | .pipe => .other

namespace Node

variable {n : Node}

theorem typeBits_lt (n : Node) : n.typeBits < 0o200000 := by
  unfold typeBits
  cases n.body <;> dsimp only <;> decide

theorem typeBits_and_typeMask (n : Node) : n.typeBits &&& typeMask = n.typeBits := by
  unfold typeBits
  cases n.body <;> dsimp only <;> decide

theorem typeBits_and_permissionMask (n : Node) : n.typeBits &&& permissionMask = 0 := by
  unfold typeBits
  cases n.body <;> dsimp only <;> decide


theorem mode_and_typeMask (small : n.mode < 0o10000) : n.mode &&& typeMask = 0 := by
  have split : typeMask = 0o17 <<< 12 := by decide
  refine Nat.eq_of_testBit_eq fun i => ?_
  rw [Nat.testBit_and, split, Nat.testBit_shiftLeft, Nat.zero_testBit]
  rcases Nat.lt_or_ge i 12 with below | above
  · simp [Nat.not_le.mpr below]
  · have : n.mode < 2 ^ i := Nat.lt_of_lt_of_le small (Nat.pow_le_pow_right Nat.two_pos above)
    rw [Nat.testBit_lt_two_pow this, Bool.false_and]

theorem machineMode_status (small : n.mode < 0o10000) :
    machineMode n.status.mode = .ok (n.typeBits ||| n.mode) := by
  have bound : n.typeBits ||| n.mode < 2 ^ 16 :=
    Nat.or_lt_two_pow n.typeBits_lt (Nat.lt_trans small (by decide))
  unfold machineMode status
  dsimp only
  rw [if_neg (by omega), if_neg (by omega), if_neg (by omega), Int.toNat_natCast]

theorem ofBits_status (small : n.mode < 0o10000) :
    EntryType.ofBits (n.typeBits ||| n.mode) = n.entryType := by
  unfold EntryType.ofBits
  rw [Nat.and_or_distrib_right, typeBits_and_typeMask, mode_and_typeMask small, Nat.or_zero]
  unfold typeBits entryType
  cases n.body <;> rfl

theorem entryType_of_status {bits : Nat} (small : n.mode < 0o10000)
    (valid : machineMode n.status.mode = .ok bits) : EntryType.ofBits bits = n.entryType := by
  rw [machineMode_status small] at valid
  cases valid
  exact ofBits_status small

theorem entryType_eq_directory_iff : n.entryType = .directory ↔ n.isDirectory = true := by
  unfold entryType isDirectory entries?
  cases n.body <;> simp

theorem permissionBits_status (small : n.mode < 0o10000) :
    permissionBits (n.typeBits ||| n.mode) = n.mode := by
  unfold permissionBits
  rw [Nat.and_or_distrib_right, typeBits_and_permissionMask, and_permissionMask small,
    Nat.zero_or]

end Node

/-! ## Regular trees -/

/-- A tree that a file system can hold. -/
structure Tree.Regular (t : Tree) : Prop where
  mode : ∀ i n, t.node? i = some n → n.mode < 0o10000
  names : ∀ i entries, t.entries? i = some entries → ∀ entry ∈ entries, Path.IsName entry.1

open HomeProvision.Machine.Tree

theorem Regular.iff {t : Tree} :
    t.Regular ↔ ∀ n ∈ t.nodes, n.mode < 0o10000 ∧
      ∀ entry ∈ n.entries?.getD [], Path.IsName entry.1 := by
  constructor
  · intro h n mem
    obtain ⟨i, inside, rfl⟩ := List.getElem_of_mem mem
    have here : t.node? i = some t.nodes[i] := List.getElem?_eq_getElem inside
    refine ⟨h.mode i _ here, fun entry mem => ?_⟩
    cases own : t.nodes[i].entries? with
    | none => rw [own] at mem; cases mem
    | some entries =>
      rw [own] at mem
      exact h.names i entries (by simp [Tree.entries?, here, own]) entry mem
  · intro h
    constructor
    · exact fun i n found => (h n (List.mem_of_getElem? found)).1
    · intro i entries found entry mem
      obtain ⟨n, here, own⟩ := Option.bind_eq_some_iff.mp found
      exact (h n (List.mem_of_getElem? here)).2 entry (by rw [own]; exact mem)

instance (t : Tree) : Decidable t.Regular :=
  decidable_of_iff _ Regular.iff.symm

variable {m m' : Machine} {path : String}

theorem unmasked_lt {bits mask : Nat} (small : bits < 0o10000) : unmasked bits mask < 0o10000 :=
  Nat.lt_of_le_of_lt Nat.and_le_left small

theorem directoryBits_lt (m : Machine) (mode : Int) : m.directoryBits mode < 0o10000 :=
  unmasked_lt (grantedBits_lt mode _)

theorem fileBits_lt (m : Machine) (mode : Int) : m.fileBits mode < 0o10000 :=
  unmasked_lt (grantedBits_lt mode _)

/-- A tree with a new node is regular, if the node has no names yet. -/
theorem Regular.create {t : Tree} {i : Nat} {name : String} {new : Node} (h : t.Regular)
    (inside : i < t.nodes.length) (own : Path.IsName name) (small : new.mode < 0o10000)
    (bare : new.entries?.getD [] = []) : (t.create i name new).Regular := by
  constructor
  · intro k n found
    rw [node?_create inside] at found
    split at found
    · cases found
      exact small
    · split at found
      · obtain ⟨old, here, rfl⟩ := Option.map_eq_some_iff.mp found
        rw [Node.mapEntries_mode]
        exact h.mode _ _ here
      · exact h.mode k n found
  · intro k entries found entry mem
    -- the new name is listed in one directory only, and the new node lists none
    unfold Tree.entries? at found
    rw [node?_create inside] at found
    split at found
    · rw [Option.bind_some] at found
      rw [found] at bare
      simp only [Option.getD_some] at bare
      rw [bare] at mem
      cases mem
    · split at found
      · obtain ⟨n, here, listed⟩ := Option.bind_eq_some_iff.mp found
        obtain ⟨old, present, rfl⟩ := Option.map_eq_some_iff.mp here
        rw [Node.mapEntries_entries?] at listed
        obtain ⟨before, own', rfl⟩ := Option.map_eq_some_iff.mp listed
        rcases List.mem_append.mp mem with mem | mem
        · exact h.names i before (by simp [Tree.entries?, present, own']) entry mem
        · rw [List.mem_singleton.mp mem]
          exact own
      · exact h.names k entries found entry mem

theorem Regular.created {bits : Nat} {body : Body} {s : Spot} (h : m.tree.Regular)
    (small : bits < 0o10000) (bare : (m.newNode s.directory bits body).entries?.getD [] = [])
    (made : Created m path bits body s m') : m'.tree.Regular := by
  rw [made.tree]
  exact Regular.create h (lt_of_isDirectory made.isDirectory) made.name small bare

theorem Regular.changed {i : Nat} {f : Node → Node} (h : m.tree.Regular)
    (changed : Changed m i f m') : m'.tree.Regular := by
  constructor
  · intro k n found
    rw [changed.tree, node?_modify] at found
    obtain ⟨old, here, rfl⟩ := Option.map_eq_some_iff.mp found
    split
    · exact changed.mode old (h.mode k old here)
    · exact h.mode k old here
  · intro k entries found
    rw [changed.sameShape.entries] at found
    exact h.names k entries found

/-- A machine with a skeleton of a directory, a file and a link, and with a place for homes. -/
def sample : Machine where
  tree :=
    { nodes := [
        { plainDirectory 1 1 with body := .directory [("skel", 1), ("home", 5)] false },
        { plainDirectory 1 2 with body := .directory [("d", 2), ("f", 3), ("l", 4)] false },
        { plainDirectory 1 3 with mode := 0o2750 },
        { plainDirectory 1 4 with mode := 0o644, body := .file [104, 105] },
        { plainDirectory 1 5 with mode := 0o777, body := .link "/skel/f" },
        plainDirectory 1 6] }

theorem sample_regular : sample.tree.Regular := by decide

/-! ## Looking at a path -/

/-- An error of the system on looking at a path means that it leads to no node. -/
theorem node?_of_find_error {follow : Bool} {e : SystemError} {p : Place}
    (failed : m.find follow path = .error (.system e))
    (leads : m.tree.resolve m.current follow path = .ok p) : m.tree.node? p.node = none := by
  cases valid : checkText path with
  | error f =>
    -- a text that is no path is refused before the system sees it
    have nul : f = .embeddedNul := by
      unfold checkText at valid
      split at valid
      · cases valid
        rfl
      · cases valid
    have refusal : m.find follow path = .error f := by
      unfold find resolve
      rw [valid]
      rfl
    rw [refusal, nul] at failed
    cases failed
  | ok _ =>
    cases here : m.tree.node? p.node with
    | none => rfl
    | some n =>
      have found : m.find follow path = .ok (p.node, n) := by
        unfold find resolve
        rw [valid, leads]
        simp only [bind, Except.bind, Except.mapError, here]
        rfl
      rw [found] at failed
      cases failed

theorem statusOf_eq (m : Machine) (follow : Bool) (path : String) :
    m.statusOf follow path = (m.find follow path).map fun found => found.2.status := by
  unfold statusOf
  cases m.find follow path <;> rfl

/-- Whether a path itself names no link. -/
def Tree.NamesNoLink (t : Tree) (current path : String) : Prop :=
  ∀ p, t.resolve current false path = .ok p → (t.node? p.node).bind Node.target? = none

theorem namesNoLink_of_error {e : SystemError}
    (failed : m.statusOf false path = .error (.system e)) :
    m.tree.NamesNoLink m.current path := by
  intro p leads
  rw [statusOf_eq] at failed
  cases found : m.find false path with
  | ok _ => rw [found] at failed; cases failed
  | error f =>
    rw [found] at failed
    cases failed
    rw [node?_of_find_error found leads, Option.bind_none]

/-- A status that is one of a directory is no status of a link. -/
theorem namesNoLink_of_status (regular : m.tree.Regular) {status : Status} {bits : Nat}
    (looked : m.statusOf false path = .ok status) (valid : machineMode status.mode = .ok bits)
    (directory : EntryType.ofBits bits = .directory) : m.tree.NamesNoLink m.current path := by
  intro p leads
  rw [statusOf_eq] at looked
  cases found : m.find false path with
  | error f => rw [found] at looked; cases looked
  | ok result =>
    rw [found] at looked
    obtain ⟨⟨above, leads'⟩, here⟩ := find_ok found
    rw [leads] at leads'
    cases leads'
    cases looked
    rw [Node.entryType_of_status (regular.mode _ _ here) valid] at directory
    rw [here, Option.bind_some]
    unfold Node.entryType at directory
    unfold Node.target?
    cases body : result.2.body <;> simp_all

end HomeProvision.Machine
