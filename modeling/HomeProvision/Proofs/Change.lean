import HomeProvision.Proofs.Disturbance
import Mathlib.Data.List.Perm.Subperm

/-!
# What calls change

Three calls create a node, under a name that was free (`Created`). The others that change the tree
change one node, the one that their path or descriptor leads to. One theorem for each call says what
is known once it went well.
-/

namespace HomeProvision.Machine

open HomeProvision.Machine.Tree

variable {m m' : Machine} {path : String} {bits : Nat} {body : Body} {s : Spot} {follow : Bool}

/-- A computation that goes well goes well in its first part. -/
theorem bind_eq_ok {ε α β : Type} {x : Except ε α} {f : α → Except ε β} {b : β} :
    (x >>= f) = .ok b ↔ ∃ a, x = .ok a ∧ f a = .ok b := by
  cases x <;> simp [bind, Except.bind]

theorem mapError_eq_ok {ε ε' α : Type} {x : Except ε α} {f : ε → ε'} {a : α} :
    x.mapError f = .ok a ↔ x = .ok a := by
  cases x <;> simp [Except.mapError]

theorem bind_eq_error {ε α β : Type} {x : Except ε α} {f : α → Except ε β} {e : ε} :
    (x >>= f) = .error e ↔ x = .error e ∨ ∃ a, x = .ok a ∧ f a = .error e := by
  cases x <;> simp [bind, Except.bind]

theorem mapError_eq_error {ε ε' α : Type} {x : Except ε α} {f : ε → ε'} {e : ε'} :
    x.mapError f = .error e ↔ ∃ e', x = .error e' ∧ e = f e' := by
  cases x <;> simp [Except.mapError, eq_comm]

/-! ## New nodes -/

/-- A machine with one new node, under a name that was free before. -/
structure Created (m : Machine) (path : String) (bits : Nat) (body : Body) (s : Spot)
    (m' : Machine) : Prop where
  spot : m.tree.spot m.current path = .ok s
  name : Path.IsName s.name
  free : m.tree.child? s.directory s.name = none
  tree : m'.tree = m.tree.create s.directory s.name (m.newNode s.directory bits body)
  current : m'.current = m.current
  descriptors : m'.descriptors = m.descriptors

namespace Created

variable (h : Created m path bits body s m')
include h

theorem isDirectory : m.tree.isDirectory s.directory = true := by
  obtain ⟨_, _, _, q, _, _, _, leads, here⟩ := spot_eq_ok h.spot
  rw [← here]
  exact ((walk_directory m.tree _ _ _ true q).mp leads).2

theorem grows : m.tree.Grows m'.tree := by
  rw [h.tree]
  exact Grows.create (lt_of_isDirectory h.isDirectory) h.free

theorem node?_new : m'.tree.node? m.tree.nextPlace = some (m.newNode s.directory bits body) := by
  rw [h.tree]
  exact node?_create_new (lt_of_isDirectory h.isDirectory)

theorem child?_new : m'.tree.child? s.directory s.name = some m.tree.nextPlace := by
  rw [h.tree]
  exact child?_create_new h.isDirectory h.free

/-- The new node is found at its path, unless it is a link and links are followed. -/
theorem resolve_new
    (noLink : (∀ target, body ≠ .link target) ∨ (follow = false ∧ Path.endsInSlash path = false))
    (fits : Path.endsInSlash path = true → ∃ entries dots, body = .directory entries dots) :
    ∃ above, m'.tree.resolve m'.current follow path = .ok ⟨m.tree.nextPlace, above⟩ := by
  have target : (m'.tree.node? m.tree.nextPlace).bind Node.target? =
      (m.newNode s.directory bits body).target? := by
    rw [h.node?_new, Option.bind_some]
  rw [h.current]
  refine resolve_of_spot h.name (h.grows.spot h.spot) h.child?_new ?_ fun ends => ?_
  · refine noLink.imp (fun noLink => ?_) id
    rw [target]
    unfold Node.target? newNode
    cases body with
    | link t => exact absurd rfl (noLink t)
    | _ => rfl
  · obtain ⟨entries, dots, rfl⟩ := fits ends
    exact isDirectory_iff.mpr ⟨_, h.node?_new, rfl⟩

end Created

/-- A creation changes the tree only. -/
theorem createAt_withTree {names : FileNames} {check : Except Errno Unit} {bits : Nat} {body : Body}
    (made : m.createAt names path check bits body = .ok m') : m' = m.withTree m'.tree := by
  obtain ⟨_, _, made⟩ := bind_eq_ok.mp made
  obtain ⟨_, _, made⟩ := bind_eq_ok.mp made
  obtain ⟨_, _, made⟩ := bind_eq_ok.mp made
  cases made
  rfl

/-- A creation that goes well. -/
theorem createAt_ok {names : FileNames} {check : Except Errno Unit}
    (valid : checkText path = .ok ())
    (made : m.createAt names path check bits body = .ok m') :
    check = .ok () ∧ ∃ s, Created m path bits body s m' := by
  obtain ⟨s, found, made⟩ := bind_eq_ok.mp made
  obtain ⟨_, checked, made⟩ := bind_eq_ok.mp made
  obtain ⟨_, free, made⟩ := bind_eq_ok.mp made
  rw [mapError_eq_ok] at found checked free
  cases made
  refine ⟨checked, s, found, ?_, ?_, rfl, rfl, rfl⟩
  · obtain ⟨_, _, _, _, components, _, split, _, _⟩ := spot_eq_ok found
    have mem : s.name ∈ Path.components path := by rw [split]; simp
    refine ⟨Path.isComponent_of_mem mem, ?_, ?_, fun nul => ?_⟩
    · intro dot
      simp [checkFree, dot] at free
    · intro dots
      simp [checkFree, dots] at free
    · have inside := Path.mem_of_mem_components mem nul
      simp [checkText, inside] at valid
  · unfold checkFree at free
    split at free
    · cases free
    · next other =>
      simp only [Bool.or_eq_true, not_or, Bool.not_eq_true, Option.isSome_eq_false_iff,
        Option.isNone_iff_eq_none] at other
      exact other.2

/-- The bits that a new directory gets. -/
def directoryBits (m : Machine) (mode : Int) : Nat :=
  unmasked (grantedBits mode 0o1777) m.mask

/-- The bits that a new file gets. -/
def fileBits (m : Machine) (mode : Int) : Nat :=
  unmasked (grantedBits mode 0o7777) m.mask

theorem mkdir_ok {mode : Int} (made : m.mkdir path mode = .ok m') :
    ∃ s, Created m path (m.directoryBits mode) (.directory [] false) s m' := by
  obtain ⟨_, valid, made⟩ := bind_eq_ok.mp made
  obtain ⟨_, _, made⟩ := bind_eq_ok.mp made
  exact (createAt_ok valid made).2

theorem symlink_ok {target : String} (made : m.symlink target path = .ok m') :
    Path.endsInSlash path = false ∧ ∃ s, Created m path 0o777 (.link target) s m' := by
  obtain ⟨_, _, made⟩ := bind_eq_ok.mp made
  obtain ⟨_, valid, made⟩ := bind_eq_ok.mp made
  obtain ⟨_, _, made⟩ := bind_eq_ok.mp made
  obtain ⟨_, created, made⟩ := bind_eq_ok.mp made
  cases ends : Path.endsInSlash path with
  | true => rw [ends] at made; cases made
  | false =>
    rw [ends] at made
    cases made
    exact ⟨rfl, (createAt_ok valid created).2⟩

theorem openExclusive_ok {mode number : Int} (made : m.openExclusive path mode = .ok (number, m')) :
    Path.endsInSlash path = false ∧ ∃ s created,
      Created m path (m.fileBits mode) (.file []) s created ∧
        (number, m') = created.opened path m.tree.nextPlace := by
  obtain ⟨_, valid, made⟩ := bind_eq_ok.mp made
  obtain ⟨_, _, made⟩ := bind_eq_ok.mp made
  obtain ⟨created, new, made⟩ := bind_eq_ok.mp made
  obtain ⟨checked, s, new⟩ := createAt_ok valid new
  cases made
  refine ⟨?_, s, created, new, rfl⟩
  cases ends : Path.endsInSlash path with
  | true => simp [ends] at checked
  | false => rfl

/-! ## Changed nodes -/

/-- A machine with one node changed, its names and its target kept. -/
structure Changed (m : Machine) (i : Nat) (f : Node → Node) (m' : Machine) : Prop where
  tree : m'.tree = m.tree.modify i f
  entries : ∀ n, (f n).entries? = n.entries?
  targets : ∀ n, (f n).target? = n.target?
  mode : ∀ n, n.mode < 0o10000 → (f n).mode < 0o10000
  identity : ∀ n, (f n).status.identity = n.status.identity
  current : m'.current = m.current
  descriptors : m'.descriptors = m.descriptors

theorem Changed.sameShape {i : Nat} {f : Node → Node} (h : Changed m i f m') :
    m.tree.SameShape m'.tree := by
  rw [h.tree]
  exact SameShape.modify h.entries h.targets

theorem find_ok {i : Nat} {n : Node} (found : m.find follow path = .ok (i, n)) :
    (∃ above, m.tree.resolve m.current follow path = .ok ⟨i, above⟩) ∧ m.tree.node? i = some n := by
  obtain ⟨p, leads, found⟩ := bind_eq_ok.mp found
  obtain ⟨_, _, leads⟩ := bind_eq_ok.mp leads
  rw [mapError_eq_ok] at leads
  cases here : m.tree.node? p.node with
  | none => rw [here] at found; cases found
  | some own =>
    rw [here] at found
    cases found
    exact ⟨⟨p.above, leads⟩, here⟩

/-- A node with another owner. -/
def Node.giveTo (uid gid : Int) (n : Node) : Node :=
  { n with uid := newId n.uid uid, gid := newId n.gid gid }

theorem chown_ok {uid gid : Int} (done : m.chown follow path uid gid = .ok m') :
    ∃ i above, m.tree.resolve m.current follow path = .ok ⟨i, above⟩ ∧
      Changed m i (Node.giveTo uid gid) m' := by
  obtain ⟨_, _, done⟩ := bind_eq_ok.mp done
  obtain ⟨_, _, done⟩ := bind_eq_ok.mp done
  obtain ⟨_, _, done⟩ := bind_eq_ok.mp done
  obtain ⟨⟨i, n⟩, found, done⟩ := bind_eq_ok.mp done
  obtain ⟨⟨above, leads⟩, _⟩ := find_ok found
  dsimp only at done
  split at done
  · cases done
  · cases done
    exact ⟨i, above, leads, rfl, fun _ => rfl, fun _ => rfl, fun _ h => h, fun _ => rfl, rfl, rfl⟩

theorem grantedBits_lt (mode : Int) (mask : Nat) : grantedBits mode mask < 0o10000 := by
  have small : (mode % (0o10000 : Int)).toNat < 0o10000 := by omega
  exact Nat.lt_of_le_of_lt Nat.and_le_left small

theorem chmod_ok {mode : Int} (done : m.chmod path mode = .ok m') :
    ∃ i above, m.tree.resolve m.current true path = .ok ⟨i, above⟩ ∧
      Changed m i (fun n => { n with mode := grantedBits mode 0o7777 }) m' := by
  obtain ⟨_, _, done⟩ := bind_eq_ok.mp done
  obtain ⟨_, _, done⟩ := bind_eq_ok.mp done
  obtain ⟨⟨i, n⟩, found, done⟩ := bind_eq_ok.mp done
  obtain ⟨⟨above, leads⟩, _⟩ := find_ok found
  dsimp only at done
  split at done
  · cases done
  · cases done
    exact ⟨i, above, leads, rfl, fun _ => rfl, fun _ => rfl, fun _ _ => grantedBits_lt _ _,
      fun _ => rfl, rfl, rfl⟩

theorem Node.entries?_mapContent (f : List UInt8 → List UInt8) (n : Node) :
    (n.mapContent f).entries? = n.entries? := by
  unfold Node.mapContent Node.entries?
  cases body : n.body <;> simp [body]

theorem Node.target?_mapContent (f : List UInt8 → List UInt8) (n : Node) :
    (n.mapContent f).target? = n.target? := by
  unfold Node.mapContent Node.target?
  cases body : n.body <;> simp [body]

theorem Node.mode_mapContent (f : List UInt8 → List UInt8) (n : Node) :
    (n.mapContent f).mode = n.mode := by
  unfold Node.mapContent
  split <;> rfl

theorem Node.identity_mapContent (f : List UInt8 → List UInt8) (n : Node) :
    (n.mapContent f).status.identity = n.status.identity := by
  unfold Node.mapContent
  split <;> rfl

/-- A change of the content of one file. -/
theorem changed_content (m : Machine) (i : Nat) (f : List UInt8 → List UInt8) :
    Changed m i (Node.mapContent f) (m.withTree (m.tree.modify i (Node.mapContent f))) :=
  ⟨rfl, Node.entries?_mapContent f, Node.target?_mapContent f,
    fun n h => by rw [n.mode_mapContent f]; exact h, Node.identity_mapContent f, rfl, rfl⟩

theorem truncate_ok {length : Int} (done : m.truncate path length = .ok m') :
    ∃ i above, m.tree.resolve m.current true path = .ok ⟨i, above⟩ ∧
      Changed m i (Node.mapContent fun content =>
        content.take length.toNat ++ List.replicate (length.toNat - content.length) 0) m' := by
  obtain ⟨_, _, done⟩ := bind_eq_ok.mp done
  obtain ⟨⟨i, n⟩, found, done⟩ := bind_eq_ok.mp done
  obtain ⟨⟨above, leads⟩, _⟩ := find_ok found
  cases body : n.body with
  | file content =>
    simp only [body] at done
    split at done
    · cases done
    · cases done
      exact ⟨i, above, leads, changed_content m i _⟩
  | directory entries dots => simp only [body] at done; cases done
  | link target => simp only [body] at done; cases done
  | pipe => simp only [body] at done; cases done

/-! ## Open files -/

theorem write_ok {number written : Int} {bytes : List UInt8}
    (done : m.write number bytes = .ok (written, m')) :
    ∃ d, m.openFile number = .ok d ∧ written = bytes.length ∧
      Changed m d.node (Node.mapContent (· ++ bytes)) m' := by
  obtain ⟨d, found, done⟩ := bind_eq_ok.mp done
  cases done
  exact ⟨d, found, rfl, changed_content m d.node _⟩

/-- A number from `n` on that is not taken exists among the first ones. -/
theorem freeFrom_not_mem (taken : List Nat) (n : Nat) : freeFrom taken n ∉ taken := by
  unfold freeFrom
  cases found : ((List.range (taken.length + 1)).map (n + ·)).find? (!taken.contains ·) with
  | some k =>
    have free := List.find?_some found
    simpa using free
  | none =>
    -- all of the numbers are taken, and they are more than there can be
    have all : (List.range (taken.length + 1)).map (n + ·) ⊆ taken := by
      intro k mem
      have := List.find?_eq_none.mp found k mem
      simpa using this
    have distinct : ((List.range (taken.length + 1)).map (n + ·)).Nodup :=
      List.Pairwise.map (n + ·) (fun a b other same => other (Nat.add_left_cancel same))
        List.nodup_range
    have fewer := (List.Nodup.subperm distinct all).length_le
    simp only [List.length_map, List.length_range] at fewer
    exact absurd fewer (Nat.not_succ_le_self _)

theorem openFile_eq_ok {number : Int} {d : Descriptor} :
    m.openFile number = .ok d ↔ m.descriptor? number = some d := by
  unfold openFile
  cases m.descriptor? number <;> simp

/-- The descriptor of a file that was just opened belongs to it. -/
theorem descriptor?_opened (m : Machine) (path : String) (node : Nat) :
    (m.opened path node).2.descriptor? (m.opened path node).1 =
      some { number := m.nextDescriptor, path, node, offset := 0 } := by
  have fresh : ∀ d ∈ m.descriptors, ¬ (d.number : Int) = (m.nextDescriptor : Int) := by
    intro d mem same
    refine freeFrom_not_mem (m.descriptors.map (·.number)) firstDescriptor ?_
    exact List.mem_map.mpr ⟨d, mem, Int.ofNat.inj same⟩
  unfold opened descriptor?
  rw [List.find?_append, List.find?_eq_none.mpr]
  · simp
  · simpa using fresh

/-- A file that is open stays open under its number when another one is opened. -/
theorem descriptor?_opened_old {number : Int} {d : Descriptor}
    (here : m.descriptor? number = some d)
    (path : String) (node : Nat) :
    (m.opened path node).2.descriptor? number = some d ∧ (m.opened path node).1 ≠ number := by
  constructor
  · unfold opened descriptor?
    rw [List.find?_append]
    unfold descriptor? at here
    rw [here, Option.some_or]
  · intro same
    have named : (d.number : Int) = number := by simpa using List.find?_some here
    have fresh := freeFrom_not_mem (m.descriptors.map (·.number)) firstDescriptor
    refine fresh (List.mem_map.mpr ⟨d, List.mem_of_find?_eq_some here, ?_⟩)
    exact Int.ofNat.inj (named.trans same.symm)

/-- Reading moves within open files; they stay the same files. -/
theorem read_ok {number size : Int} {bytes : List UInt8}
    (done : m.read number size = .ok (bytes, m')) :
    m'.tree = m.tree ∧ m'.current = m.current ∧
      ∀ k, (m'.descriptor? k).map Descriptor.node = (m.descriptor? k).map Descriptor.node := by
  unfold read at done
  split at done
  · cases done
  obtain ⟨d, found, done⟩ := bind_eq_ok.mp done
  split at done
  · cases done
    refine ⟨rfl, rfl, fun k => ?_⟩
    unfold descriptor?
    rw [List.find?_map, Option.map_map]
    congr 1
    · funext e
      simp only [Function.comp_apply]
      split <;> rfl
    · congr 1
      funext e
      simp only [Function.comp_apply]
      split <;> rfl
  · cases done
  · cases done
    exact ⟨rfl, rfl, fun _ => rfl⟩

end HomeProvision.Machine
