import HomeProvision.Proofs.Modes
import HomeProvision.Proofs.Performed
import HomeProvision.Proofs.Shown

/-!
# Copies of single entries

On an unhindered machine a free name gets the copy and a taken one stays as it is. In both cases the
tree afterwards is known exactly: it is the tree before, or this with one more node. While a file is
copied, the hook finds the tree with a file that has a part of the content (`HasPart`).
-/

namespace HomeProvision

open Machine

/-! ## A free name -/

/-- Whether a name is free in the directory that a path leads to. -/
structure Vacancy (t : Tree) (current directory name : String) (q : Place) : Prop where
  full : directory ≠ ""
  own : Path.IsName name
  short : ShortBelow directory name
  leads : t.directoryAt current directory = .ok q
  free : t.child? q.node name = none

/-- Whether a machine has the tree `t` with one more node in a directory. -/
structure Placed (t : Tree) (current : String) (q : Place) (name : String) (n : Node)
    (m : Machine) : Prop where
  tree : m.tree = t.create q.node name n
  current : m.current = current

namespace Placed

variable {t : Tree} {current directory name : String} {q : Place} {n : Node} {m m' : Machine}
  {follow : Bool}

theorem same (h : Placed t current q name n m) (tree : m'.tree = m.tree)
    (cwd : m'.current = m.current) : Placed t current q name n m' :=
  ⟨tree.trans h.tree, cwd.trans h.current⟩

theorem of_created {bits : Nat} {body : Body}
    (made : Created m (Path.join directory name) bits body ⟨q.node, name⟩ m') :
    Placed m.tree m.current q name (m.newNode q.node bits body) m' :=
  ⟨made.tree, made.current⟩

variable (v : Vacancy t current directory name q) (h : Placed t current q name n m)
include v h

theorem here : m.tree.node? t.nextPlace = some n := by
  rw [h.tree]
  exact Tree.node?_create_new (Tree.lt_of_isDirectory (Tree.isDirectory_of_directoryAt v.leads))

/-- The new node is found at its path. -/
theorem leads (noLink : n.target? = none ∨ follow = false) :
    m.tree.resolve m.current follow (Path.join directory name) = .ok (q.step t.nextPlace) := by
  have dir := Tree.isDirectory_of_directoryAt v.leads
  have grows : t.Grows m.tree := by
    rw [h.tree]
    exact Tree.Grows.create (Tree.lt_of_isDirectory dir) v.free
  have named : m.tree.child? q.node name = some t.nextPlace := by
    rw [h.tree]
    exact Tree.child?_create_new dir v.free
  rw [h.current]
  refine Tree.resolve_join v.full v.own v.short.1 v.short.2 (grows.directoryAt v.leads) named ?_
  refine noLink.imp (fun bare => ?_) id
  rw [h.here v, Option.bind_some, bare]

theorem changed {f : Node → Node} (change : Changed m t.nextPlace f m') :
    Placed t current q name (f n) m' := by
  refine ⟨?_, change.current.trans h.current⟩
  rw [change.tree, h.tree]
  exact Tree.modify_create (Tree.lt_of_isDirectory (Tree.isDirectory_of_directoryAt v.leads)) f

end Placed

/-- Whether a machine has the tree `t` with a copy in a directory. -/
def HasCopy (t : Tree) (current : String) (q : Place) (name : String) (body : Body)
    (a : Attributes) (m : Machine) : Prop :=
  ∃ n, Placed t current q name n m ∧ n.body = body ∧ a.Fits n

theorem HasCopy.same {t : Tree} {current name : String} {q : Place} {body : Body} {a : Attributes}
    {m m' : Machine} (h : HasCopy t current q name body a m) (tree : m'.tree = m.tree)
    (cwd : m'.current = m.current) : HasCopy t current q name body a m' := by
  obtain ⟨n, placed, own, fits⟩ := h
  exact ⟨n, placed.same tree cwd, own, fits⟩

/-- Whether a machine has the tree `t` with a file in a directory that is still being copied. -/
def HasPart (t : Tree) (current : String) (q : Place) (name : String) (content : List UInt8)
    (m : Machine) : Prop :=
  ∃ n piece, Placed t current q name n m ∧ n.body = .file piece ∧ piece <+: content ∧
    BitsWithin n.mode 0o600

/-! ## Modes and owners -/

theorem withoutSetId_and (bits : Nat) : withoutSetId bits &&& 0o1777 = withoutSetId bits := by
  unfold withoutSetId
  rw [Nat.and_assoc]
  rfl

theorem withoutSetId_lt (bits : Nat) : withoutSetId bits < 0o10000 :=
  Nat.lt_of_le_of_lt Nat.and_le_right (by decide)

theorem grantedBits_of_lt {mode : Nat} (small : mode < 0o10000) (mask : Nat) :
    grantedBits (mode : Int) mask = mode &&& mask := by
  unfold grantedBits
  congr 1
  omega

/-- An owner that is named is set. -/
theorem newId_of_named {old new u : Int} (named : u ∈ namedId new) : newId old new = u := by
  unfold namedId at named
  unfold newId
  split at named
  · cases named
  · next other =>
    rw [if_neg other]
    exact Option.some.inj named

/-- The attributes of a node that was given to its owner. -/
theorem Attributes.given_fits {uid gid : Int} {mode : Nat} {old n : Node} (own : n.mode = mode)
    (owner : n.uid = newId old.uid uid) (group : n.gid = newId old.gid gid) :
    (Attributes.given uid gid mode).Fits n :=
  ⟨own, fun _ named => owner.trans (newId_of_named named),
    fun _ named => group.trans (newId_of_named named)⟩

namespace Program

variable {m m' : Machine} {path directory name : String} {q : Place} {t : Tree} {current : String}
  {i : Nat} {n : Node} {content : List UInt8}

/-! ## Files -/

theorem does_closeQuietly {post : Except Fault Unit → Machine → Prop} {number : Int}
    {event : String} (done : ∀ m', m'.tree = m.tree → m'.current = m.current → post (.ok ()) m') :
    (closeQuietly number event path).Does post m := by
  refine Meets.attempt (does_close m number) (fun _ m' h => done m' h.2.1 h.2.2) (fun e m' h => ?_)
    fun f m' other h => ?_
  · exact does_log (done m' h.2.1 h.2.2)
  · obtain ⟨e, same⟩ := h.1 f rfl
    exact absurd same (other e)

/-- A file that is being copied: the first `copied` bytes of the source are in the new node. -/
structure Streaming (t : Tree) (current : String) (q : Place) (name : String) (i : Nat)
    (content : List UInt8) (reading writing : Int) (copied : Nat) (m : Machine) : Prop where
  placed : ∃ n, Placed t current q name n m ∧ n.body = .file (content.take copied) ∧
    BitsWithin n.mode 0o600
  source : ∃ n, m.tree.node? i = some n ∧ n.body = .file content
  reader : ∃ d, m.descriptor? reading = some d ∧ d.node = i ∧ d.offset = copied
  writer : ∃ d, m.descriptor? writing = some d ∧ d.node = t.nextPlace
  apart : writing ≠ reading
  within : copied ≤ content.length

variable {reading writing : Int} {copied : Nat}

theorem Streaming.hasPart (h : Streaming t current q name i content reading writing copied m) :
    HasPart t current q name content m := by
  obtain ⟨n, placed, body, bits⟩ := h.placed
  exact ⟨n, _, placed, body, List.take_prefix _ _, bits⟩

theorem Streaming.sameFiles (h : Streaming t current q name i content reading writing copied m)
    (same : SameFiles m m') : Streaming t current q name i content reading writing copied m' := by
  obtain ⟨⟨n, placed, kept⟩, source, reader, writer, apart, within⟩ := h
  refine ⟨⟨n, placed.same same.tree same.current, kept⟩, ?_, ?_, ?_, apart, within⟩
  · rw [same.tree]
    exact source
  · unfold descriptor?
    rw [same.descriptors]
    exact reader
  · unfold descriptor?
    rw [same.descriptors]
    exact writer

theorem take_append_piece (content : List UInt8) (copied size : Nat) :
    content.take copied ++ (content.drop copied).take size =
      content.take (copied + ((content.drop copied).take size).length) := by
  rw [List.take_add, List.length_take]
  congr 1
  exact List.take_eq_take_min

/-- A piece that was read and written. -/
theorem Streaming.written (v : Vacancy t current directory name q) (old : i ≠ t.nextPlace)
    {piece : List UInt8} {size : Nat} (own : piece = (content.drop copied).take size)
    {between : Machine} (h : Streaming t current q name i content reading writing copied m)
    (tree : between.tree = m.tree) (cwd : between.current = m.current)
    (moved : ∀ d, m.descriptor? reading = some d →
      between.descriptor? reading = some { d with offset := d.offset + piece.length })
    (other : ∀ number, number ≠ reading → between.descriptor? number = m.descriptor? number)
    (change : Changed between t.nextPlace (Node.mapContent (· ++ piece)) m') :
    Streaming t current q name i content reading writing (copied + piece.length) m' := by
  obtain ⟨⟨n, placed, body, bits⟩, ⟨source, here, whole⟩, ⟨d, reads, node, offset⟩, writer, apart,
      within⟩ :=
    h
  have found : ∀ number, m'.descriptor? number = between.descriptor? number := by
    intro number
    unfold descriptor?
    rw [change.descriptors]
  refine ⟨⟨_, (placed.same tree cwd).changed v change, ?_, Node.mode_mapContent _ n ▸ bits⟩,
    ⟨source, ?_, whole⟩,
    ⟨{ d with offset := d.offset + piece.length }, ?_, node, ?_⟩, ?_, apart, ?_⟩
  · have joined := take_append_piece content copied size
    rw [← own] at joined
    unfold Node.mapContent
    simp only [body, joined]
  · rw [change.tree, Tree.node?_modify_ne _ old, tree]
    exact here
  · rw [found, moved d reads]
  · exact congrArg (· + piece.length) offset
  · rw [found, other _ apart]
    exact writer
  · rw [own, List.length_take, List.length_drop]
    omega

variable {found : Bool → Machine → Prop}

/-- Piece by piece the whole content is copied. -/
theorem performs_copyPieces (finds : ∀ m', HasPart t current q name content m' → found true m')
    (v : Vacancy t current directory name q) (old : i ≠ t.nextPlace) {size : Int}
    (positive : 1 ≤ size) {pieces : Nat} (enough : content.length < copied + pieces)
    (h : Streaming t current q name i content reading writing copied m) :
    (copyPieces reading writing size pieces).Performs found (fun r m' => r = .ok none ∧
      Streaming t current q name i content reading writing content.length m') m := by
  induction pieces generalizing copied m with
  | zero => exact absurd h.within (Nat.not_le.mpr enough)
  | succ pieces ih =>
    obtain ⟨d, reads, node, offset⟩ := h.reader
    obtain ⟨n, here, body⟩ := h.source
    obtain ⟨e, writes, target⟩ := h.writer
    rw [← node] at here
    refine performs_bind (q := fun between => between.tree = m.tree ∧ between.current = m.current ∧
      between.descriptor? reading =
        some { d with offset := d.offset + ((content.drop d.offset).take size.toNat).length } ∧
      ∀ number, number ≠ reading → between.descriptor? number = m.descriptor? number)
      (.of_does (does_read reads here body (by omega) fun between tree cwd moved other =>
        ⟨rfl, tree, cwd, moved, other⟩) (quiet_call rfl (fun _ => rfl) .ofExcept))
      fun between kept => ?_
    obtain ⟨tree, cwd, moved, other⟩ := kept
    rw [offset] at moved ⊢
    split
    · next empty =>
      -- a piece of at least one byte is empty only at the end
      have whole : copied = content.length := by
        have ended := congrArg List.length (List.isEmpty_iff.mp empty)
        rw [List.length_take, List.length_drop, List.length_nil] at ended
        have within := h.within
        omega
      obtain ⟨⟨own, placed, filled⟩, ⟨source, there, rest⟩, _, _, apart, _⟩ := h
      subst whole
      refine ⟨⟨rfl, ⟨own, placed.same tree cwd, filled⟩, ⟨source, ?_, rest⟩, ⟨_, moved, node, ?_⟩,
        ⟨e, ?_, target⟩, apart, Nat.le_refl _⟩, rfl⟩
      · rw [tree]
        exact there
      · simp
      · rw [other _ apart]
        exact writes
    · next more =>
      have nonempty : 0 < ((content.drop copied).take size.toNat).length := by
        rw [List.length_pos_iff]
        exact fun empty => more (List.isEmpty_iff.mpr empty)
      rw [← other _ h.apart] at writes
      have advance : ∀ d', m.descriptor? reading = some d' → between.descriptor? reading =
          some { d' with
            offset := d'.offset + ((content.drop copied).take size.toNat).length } := by
        intro d' reads'
        rw [reads] at reads'
        cases reads'
        rw [offset]
        exact moved
      have next : ∀ m', Changed between e.node
          (Node.mapContent (· ++ (content.drop copied).take size.toNat)) m' →
          Streaming t current q name i content reading writing
            (copied + ((content.drop copied).take size.toNat).length) m' := fun m' change =>
        h.written v old rfl tree cwd advance other (target ▸ change)
      refine performs_piece writes (if_neg (by simp)) (fun m' change => ?_)
        fun m' m'' change same => ?_
      · exact finds m' (next m' change).hasPart
      · exact ih (by omega) ((next m' change).sameFiles same)

theorem performs_stream (finds : ∀ m', HasPart t current q name content m' → found true m')
    (c : Cloner) (v : Vacancy t current directory name q) (old : i ≠ t.nextPlace)
    (positive : 1 ≤ c.chunkSize) (enough : content.length < c.limits.pieces)
    (h : Streaming t current q name i content reading writing 0 m) :
    (stream c reading writing path).Performs found (fun r m' => r = .ok (.ok (some path)) ∧
      ∃ n, Placed t current q name n m' ∧ n.body = .file content) m := by
  refine performs_attempt
    (q := fun m' => ∃ n, Placed t current q name n m' ∧ n.body = .file content)
    (performs_bind (performs_copyPieces finds v old positive (by omega) h)
      fun m' h => ⟨⟨rfl, ?_⟩, rfl⟩)
    fun m' h => ⟨⟨rfl, h⟩, rfl⟩
  obtain ⟨n, placed, body, _⟩ := h.placed
  rw [List.take_length] at body
  exact ⟨n, placed, body⟩

/-- A new file gets its owner and then its mode. -/
theorem does_finish (c : Cloner) (v : Vacancy t current directory name q)
    (h : Placed t current q name n m) (body : n.body = .file content) {mode : Nat}
    (small : mode < 0o10000) (result : StepResult) :
    ((finishOwner c (Path.join directory name) result).bind fun result =>
      finishMode (Path.join directory name) mode result).Does
      (fun r m' => r = .ok result ∧
        HasCopy t current q name (.file content) (.given c.uid c.gid mode) m') m := by
  have noLink : n.target? = none := by simp [Node.target?, body]
  refine Meets.surely (a := result) (q := Placed t current q name (Node.giveTo c.uid c.gid n)) ?_
    fun m' h' => ?_
  · exact Meets.attempted (does_chown (h.leads v (.inl noLink)) (h.here v) fun m' change =>
      ⟨rfl, h.changed v change⟩) fun m' h' => ⟨rfl, h'⟩
  · refine Meets.attempted (does_chmod (h'.leads v (.inl noLink)) (h'.here v) fun m'' change =>
      ⟨rfl, h'.changed v change⟩) fun m'' h'' => ⟨rfl, _, h'', body, ?_⟩
    refine Attributes.given_fits ?_ rfl rfl
    exact (grantedBits_of_lt small _).trans (and_permissionMask small)

/-- A file that was just created, and from which nothing was copied yet. -/
theorem Streaming.start {created : Machine} (here : m.tree.node? i = some n)
    (body : n.body = .file content) (source : String)
    (made : Created (m.opened source i).2 (Path.join directory name)
      ((m.opened source i).2.fileBits freshFileMode) (.file []) ⟨q.node, name⟩ created) :
    Streaming m.tree m.current q name i content (m.opened source i).1
      (created.opened (Path.join directory name) m.tree.nextPlace).1 0
      (created.opened (Path.join directory name) m.tree.nextPlace).2 := by
  have inside : q.node < m.tree.nodes.length := Tree.lt_of_isDirectory made.isDirectory
  have reads : created.descriptor? (m.opened source i).1 =
      some { number := m.nextDescriptor, path := source, node := i, offset := 0 } := by
    unfold descriptor?
    rw [made.descriptors]
    exact descriptor?_opened m source i
  obtain ⟨still, apart⟩ := descriptor?_opened_old reads (Path.join directory name) m.tree.nextPlace
  refine ⟨⟨_, ⟨made.tree, made.current⟩, rfl, unmasked_within _ _ _⟩, ⟨n, ?_, body⟩,
    ⟨_, still, rfl, rfl⟩,
    ⟨_, descriptor?_opened created _ _, rfl⟩, apart, Nat.zero_le _⟩
  -- the source is a file, so it is not the directory that the new file went to
  have other : i ≠ q.node := by
    intro same
    obtain ⟨n', here', dir⟩ := Tree.isDirectory_iff.mp made.isDirectory
    have here' : m.tree.node? q.node = some n' := here'
    rw [← same, here] at here'
    cases here'
    simp [Node.isDirectory, Node.entries?, body] at dir
  have tree : (created.opened (Path.join directory name) m.tree.nextPlace).2.tree =
      m.tree.create q.node name _ := made.tree
  rw [tree, Tree.node?_create_old inside other (Tree.lt_of_node? here)]
  exact here

theorem performs_fillFile (finds : ∀ m', HasPart t current q name content m' → found true m')
    (c : Cloner) (v : Vacancy t current directory name q) (old : i ≠ t.nextPlace)
    (positive : 1 ≤ c.chunkSize) (enough : content.length < c.limits.pieces) {mode : Nat}
    (small : mode < 0o10000) (h : Streaming t current q name i content reading writing 0 m) :
    (fillFile c reading writing (Path.join directory name) mode).Performs found
      (fun r m' => r = .ok (.ok (some (Path.join directory name))) ∧
        HasCopy t current q name (.file content) (.given c.uid c.gid mode) m') m := by
  obtain ⟨n, placed, body, bits⟩ := h.placed
  have noLink : n.target? = none := by simp [Node.target?, body]
  refine performs_attempt (q := Streaming t current q name i content reading writing 0)
    (.of_does (does_truncate (placed.leads v (.inl noLink)) (placed.here v) body fun m' change =>
      ⟨rfl, ?_⟩) (quiet_call rfl (fun _ => rfl) .ofExcept)) fun m' h => ?_
  · obtain ⟨_, ⟨source, there, whole⟩, reader, writer, apart, within⟩ := h
    refine ⟨⟨_, placed.changed v change, ?_, Node.mode_mapContent _ n ▸ bits⟩,
    ⟨source, ?_, whole⟩, ?_, ?_, apart, within⟩
    · unfold Node.mapContent
      simp only [body, List.take_zero]
    · rw [change.tree, Tree.node?_modify_ne _ old]
      exact there
    · unfold descriptor?
      rw [change.descriptors]
      exact reader
    · unfold descriptor?
      rw [change.descriptors]
      exact writer
  · refine performs_ensuring
      (q := HasCopy t current q name (.file content) (.given c.uid c.gid mode))
      (performs_bind (performs_stream finds c v old positive enough h) fun m' h => ?_)
      fun m' h => .of_does (does_closeQuietly fun m'' tree cwd => ⟨rfl, h.same tree cwd⟩)
        (quiet_closeQuietly _ _ _)
    obtain ⟨n, placed, body⟩ := h
    have quiet := quiet_finishing (Path.join directory name) (mode : Int)
    exact .of_does (does_finish c v placed body small _)
      ((quiet.finishOwner c _).bind quiet.finishMode)

section

variable {source : String} {above : List Nat}
  (opens : m.tree.resolve m.current true source = .ok ⟨i, above⟩) (here : m.tree.node? i = some n)
  (body : n.body = .file content) (full : directory ≠ "") (own : Path.IsName name)
  (leads : m.tree.directoryAt m.current directory = .ok q)
include opens here body full own leads

/-- A file is copied to a name that is free. -/
theorem performs_copyFile
    (finds : ∀ m', HasPart m.tree m.current q name content m' → found true m') (c : Cloner)
    (positive : 1 ≤ c.chunkSize) (enough : content.length < c.limits.pieces) {mode : Nat}
    (small : mode < 0o10000) (free : m.tree.child? q.node name = none) :
    (copyFile c source (Path.join directory name) mode).Performs found
      (fun r m' => r = .ok (.ok (some (Path.join directory name))) ∧
        HasCopy m.tree m.current q name (.file content) (.given c.uid c.gid mode) m') m := by
  refine performs_attempt (q := fun m' => m' = (m.opened source i).2)
    (.of_does (does_openRead opens here body ⟨rfl, rfl⟩)
      (quiet_call rfl (fun _ => rfl) .ofExcept)) fun m' same => ?_
  subst same
  refine performs_ensuring
    (q := HasCopy m.tree m.current q name (.file content) (.given c.uid c.gid mode)) ?_
    fun m' h => .of_does (does_closeQuietly fun m'' tree cwd => ⟨rfl, h.same tree cwd⟩)
      (quiet_closeQuietly _ _ _)
  have leads' : (m.opened source i).2.tree.directoryAt (m.opened source i).2.current directory =
      .ok q := leads
  refine Performs.attempt (q := fun r m' => ∃ created,
    Created (m.opened source i).2 (Path.join directory name)
      ((m.opened source i).2.fileBits freshFileMode) (.file []) ⟨q.node, name⟩ created ∧
    r = .ok (created.opened (Path.join directory name) m.tree.nextPlace).1 ∧
    m' = (created.opened (Path.join directory name) m.tree.nextPlace).2)
    (.of_does ?_ (quiet_call rfl (fun _ => rfl) .ofExcept)) ?_ ?_ ?_
  · refine does_openExclusive_join full own leads' (fun created _ made => ⟨created, made, rfl, rfl⟩)
      fun taken => ?_
    -- opening the source has not taken the name
    have free' : (m.opened source i).2.tree.child? q.node name = none := free
    rw [free'] at taken
    cases taken
  · rintro writing m' ⟨created, made, same, rfl⟩
    cases same
    obtain ⟨fits, short, _⟩ := Tree.spot_eq_ok made.spot
    have v : Vacancy m.tree m.current directory name q := ⟨full, own, ⟨fits, short⟩, leads, free⟩
    have old : i ≠ m.tree.nextPlace := Nat.ne_of_lt (Tree.lt_of_node? here)
    exact performs_fillFile finds c v old positive enough small (.start here body source made)
  · rintro e m' ⟨_, _, bad, _⟩
    cases bad
  · rintro f m' _ ⟨_, _, bad, _⟩
    cases bad

/-- A file is not copied where its name is taken. -/
theorem performs_copyFile_taken (c : Cloner) (mode : Nat)
    (taken : (m.tree.child? q.node name).isSome = true) :
    (copyFile c source (Path.join directory name) mode).Performs found
      (fun r m' => r = .ok (.failure .openFile (Path.join directory name)
          (Copying.taken (.one (Path.join directory name)))) ∧
        m'.tree = m.tree ∧ m'.current = m.current) m := by
  refine performs_attempt (q := fun m' => m' = (m.opened source i).2)
    (.of_does (does_openRead opens here body ⟨rfl, rfl⟩)
      (quiet_call rfl (fun _ => rfl) .ofExcept)) fun m' same => ?_
  subst same
  refine performs_ensuring (q := fun m' => m'.tree = m.tree ∧ m'.current = m.current) ?_ fun m' h =>
    .of_does (does_closeQuietly fun m'' tree cwd => ⟨rfl, tree.trans h.1, cwd.trans h.2⟩)
      (quiet_closeQuietly _ _ _)
  have leads' : (m.opened source i).2.tree.directoryAt (m.opened source i).2.current directory =
      .ok q := leads
  refine performs_attempt_error
    (e := .numbered .alreadyExists (.one (Path.join directory name)))
    (q := fun m' => m' = (m.opened source i).2)
    (.of_does (does_openExclusive_join full own leads' (fun created free _ => ?_) fun _ => ⟨rfl, rfl⟩)
      (quiet_call rfl (fun _ => rfl) .ofExcept)) fun m' same => ?_
  · have free' : m.tree.child? q.node name = none := free
    rw [free'] at taken
    cases taken
  · subst same
    exact performs_bind (performs_log ⟨rfl, rfl⟩) fun m' same => ⟨⟨rfl, same ▸ ⟨rfl, rfl⟩⟩, rfl⟩

end

/-! ## Links and directories -/

section

variable (full : directory ≠ "") (own : Path.IsName name)
  (leads : m.tree.directoryAt m.current directory = .ok q)
include full own leads

/-- A link is made where its name is free. -/
theorem does_placeLink (c : Cloner) (target : String) (free : m.tree.child? q.node name = none) :
    (placeLink c target (Path.join directory name)).Does
      (fun r m' => r = .ok (.ok (some (Path.join directory name))) ∧
        HasCopy m.tree m.current q name (.link target) (.given c.uid c.gid 0o777) m') m := by
  refine Meets.attempted (a := ()) (q := fun m' =>
    Created m (Path.join directory name) 0o777 (.link target) ⟨q.node, name⟩ m')
    (does_symlink_join full own leads (fun m' _ made => ⟨rfl, made⟩) fun taken => ?_)
    fun m' made => ?_
  · rw [free] at taken
    cases taken
  · obtain ⟨fits, short, _⟩ := Tree.spot_eq_ok made.spot
    have v : Vacancy m.tree m.current directory name q := ⟨full, own, ⟨fits, short⟩, leads, free⟩
    have placed := Placed.of_created made
    refine Meets.attempted (does_lchown (placed.leads v (.inr rfl)) (placed.here v) fun m'' change =>
      ⟨rfl, placed.changed v change⟩) fun m'' h => ⟨rfl, _, h, rfl, ?_⟩
    exact Attributes.given_fits rfl rfl rfl

theorem does_placeLink_taken (c : Cloner) (target : String)
    (taken : (m.tree.child? q.node name).isSome = true) :
    (placeLink c target (Path.join directory name)).Does
      (fun r m' => r = .ok (.failure .symlink (Path.join directory name)
          (Copying.taken (.two target (Path.join directory name)))) ∧ m' = m) m := by
  refine Meets.caught
    (e := .numbered .alreadyExists (.two target (Path.join directory name)))
    (q := fun m' => m' = m)
    (does_symlink_join full own leads (fun m' free _ => ?_) fun _ => ⟨rfl, rfl⟩) fun m' same => ?_
  · rw [free] at taken
    cases taken
  · subst same
    exact does_call rfl fun _ => ⟨rfl, rfl⟩

end

theorem directoryBits_clear (m : Machine) {mode : Nat} (own : mode &&& 0o1777 = mode) :
    ({ m with mask := 0 } : Machine).directoryBits mode = mode := by
  have small : mode < 0o10000 := by
    rw [← own]
    exact Nat.lt_of_le_of_lt Nat.and_le_right (by decide)
  have clear : 0o7777 ^^^ (0 &&& 0o7777) = 0o7777 := by decide
  change grantedBits mode 0o1777 &&& (0o7777 ^^^ (0 &&& 0o7777)) = mode
  rw [grantedBits_of_lt small, own, clear]
  exact and_permissionMask small

theorem does_createDirectory (v : Vacancy m.tree m.current directory name q) (mode : Int) :
    (createDirectory (Path.join directory name) mode).Does
      (fun r m' => r = .ok none ∧ Placed m.tree m.current q name
        (m.newNode q.node (m.directoryBits mode) (.directory [] false)) m') m :=
  Meets.attempted (a := ()) (does_mkdir_join v.full v.own v.leads v.free fun _ made =>
    ⟨rfl, Placed.of_created made⟩) fun _ placed => ⟨rfl, placed⟩

/-- A missing directory is made with its mode, whatever the creation mask, and given away. -/
theorem does_makeDirectory (v : Vacancy m.tree m.current directory name q) (uid gid : Int)
    {mode : Nat} (own : mode &&& 0o1777 = mode) :
    (makeDirectory (Path.join directory name) uid gid mode).Does
      (fun r m' => r = .ok (.ok (some (Path.join directory name))) ∧
        HasCopy m.tree m.current q name (.directory [] false) (.given uid gid mode) m') m := by
  have made : (withClearMask (createDirectory (Path.join directory name) mode)).Does
      (fun r m' => r = .ok none ∧ ∃ n, Placed m.tree m.current q name n m' ∧
        n.body = .directory [] false ∧ n.mode = mode) m := by
    refine Meets.bind (q := fun r m' => (∃ a, r = .ok a) ∧ m' = { m with mask := 0 })
      (does_umask fun a => ⟨⟨a, rfl⟩, rfl⟩) (fun mask m' h => ?_) fun f m' h => ?_
    · obtain ⟨_, rfl⟩ := h
      refine Meets.ensured (q := fun m' => ∃ n, Placed m.tree m.current q name n m' ∧
        n.body = .directory [] false ∧ n.mode = mode) ?_ fun m' h => ?_
      · have v' : Vacancy ({ m with mask := 0 } : Machine).tree m.current directory name q := v
        exact (does_createDirectory v' mode).mono fun r m' h =>
          ⟨h.1, _, h.2, rfl, directoryBits_clear m own⟩
      · obtain ⟨n, placed, body, bits⟩ := h
        exact does_call rfl fun _ => ⟨rfl, n, placed.same rfl rfl, body, bits⟩
    · obtain ⟨⟨_, bad⟩, _⟩ := h
      cases bad
  refine Meets.surely made fun m' h => ?_
  obtain ⟨n, placed, body, bits⟩ := h
  have noLink : n.target? = none := by simp [Node.target?, body]
  refine Meets.attempted (does_chown (placed.leads v (.inl noLink)) (placed.here v) fun m'' change =>
    ⟨rfl, placed.changed v change⟩) fun m'' h => does_call rfl fun _ => ⟨rfl, _, h, body, ?_⟩
  exact Attributes.given_fits bits rfl rfl

theorem does_ensureDirectory (v : Vacancy m.tree m.current directory name q) (uid gid : Int)
    {mode : Nat} (own : mode &&& 0o1777 = mode) :
    (ensureDirectory (Path.join directory name) uid gid mode).Does
      (fun r m' => r = .ok (.ok (some (Path.join directory name))) ∧
        HasCopy m.tree m.current q name (.directory [] false) (.given uid gid mode) m') m := by
  refine Meets.caught (e := .numbered .noEntry (.one (Path.join directory name)))
    (q := fun m' => m' = m)
    (does_stat_join_none v.full v.own v.leads v.free ⟨rfl, rfl⟩) fun m' same => ?_
  subst same
  exact does_makeDirectory v uid gid own

/-- A directory that is there stays as it is. -/
theorem does_ensureDirectory_existing {above : List Nat}
    (leads : m.tree.resolve m.current true path = .ok ⟨i, above⟩)
    (here : m.tree.node? i = some n) (uid gid mode : Int) :
    (ensureDirectory path uid gid mode).Does
      (fun r m' => r = .ok (.ok (some path)) ∧ m' = m) m := by
  refine Meets.attempted (q := fun m' => m' = m) (does_stat leads here ⟨rfl, rfl⟩) fun m' same => ?_
  subst same
  exact does_call rfl fun _ => ⟨rfl, rfl⟩

end Program

end HomeProvision
