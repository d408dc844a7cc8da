import HomeProvision.Proofs.Effects
import HomeProvision.Proofs.Undisturbed

/-!
# Copying a file comes to an end

What is written in the course of a copy goes to a new file, so that the file that is read does not
grow. Its pieces are fewer than the bytes of the largest file, `most`, and since no copy is larger
than its original, that bound stays the same while files are copied that are copies themselves
(`copyFile_settles`).
-/

namespace HomeProvision

namespace Machine

variable {most i : Nat} {m m' : Machine} {f : Node → Node}

/-- Whether a tree is one that a file system can hold, and no file has more than `most` bytes. -/
structure Sane (most : Nat) (m : Machine) : Prop where
  regular : m.tree.Regular
  targets : ∀ i n target, m.tree.node? i = some n → n.target? = some target →
    checkText target = .ok ()
  small : ∀ i n content, m.tree.node? i = some n → n.body = .file content → content.length ≤ most

namespace Sane

/-- In a tree there are finitely many nodes to look at. -/
theorem of_nodes (regular : m.tree.Regular)
    (targets : ∀ n ∈ m.tree.nodes, ∀ target ∈ n.target?, checkText target = .ok ())
    (small : ∀ n ∈ m.tree.nodes, n.size ≤ most) : Sane most m where
  regular := regular
  targets := fun _ n target found own => targets n (List.mem_of_getElem? found) target own
  small := by
    intro i n content found body
    have fits := small n (List.mem_of_getElem? found)
    unfold Node.size at fits
    rw [body] at fits
    exact fits

theorem same (h : Sane most m) (tree : m'.tree = m.tree) : Sane most m' where
  regular := tree ▸ h.regular
  targets := tree ▸ h.targets
  small := tree ▸ h.small

theorem changed (h : Sane most m) (changed : Changed m i f m')
    (fits : ∀ n content, m.tree.node? i = some n → (f n).body = .file content →
      content.length ≤ most) : Sane most m' where
  regular := Regular.changed h.regular changed
  targets := by
    intro k n target found own
    rw [changed.tree, Tree.node?_modify] at found
    obtain ⟨old, here, rfl⟩ := Option.map_eq_some_iff.mp found
    split at own
    · exact h.targets k old target here ((changed.targets old).symm.trans own)
    · exact h.targets k old target here own
  small := by
    intro k n content found body
    rw [changed.tree, Tree.node?_modify] at found
    obtain ⟨old, here, rfl⟩ := Option.map_eq_some_iff.mp found
    split at body
    · next same => exact fits old content (same ▸ here) body
    · exact h.small k old content here body

theorem created {path : String} {bits : Nat} {body : Body} {s : Tree.Spot} (h : Sane most m)
    (made : Created m path bits body s m') (bounded : bits < 0o10000)
    (bare : (m.newNode s.directory bits body).entries?.getD [] = [])
    (empty : ∀ content, body = .file content → content = [])
    (text : ∀ target, body = .link target → checkText target = .ok ()) : Sane most m' := by
  have inside := Tree.lt_of_isDirectory made.isDirectory
  refine ⟨Regular.created h.regular bounded bare made, fun k n target found own => ?_,
    fun k n content found own => ?_⟩
  · rw [made.tree, Tree.node?_create inside] at found
    split at found
    · cases found
      unfold Node.target? newNode at own
      cases body with
      | link t => exact text target (by simpa using own)
      | _ => cases own
    · split at found
      · obtain ⟨old, here, rfl⟩ := Option.map_eq_some_iff.mp found
        rw [Node.mapEntries_target?] at own
        exact h.targets _ old target here own
      · exact h.targets k n target found own
  · rw [made.tree, Tree.node?_create inside] at found
    split at found
    · cases found
      rw [empty content own]
      exact Nat.zero_le _
    · split at found
      · obtain ⟨old, here, rfl⟩ := Option.map_eq_some_iff.mp found
        unfold Node.mapEntries at own
        split at own
        · cases own
        · exact h.small _ old content here own
      · exact h.small k n content found own

end Sane

/-- A read gives nothing, or a piece of a file that it moves on in. -/
theorem read_piece {number size : Int} {d : Descriptor} {bytes : List UInt8}
    (here : m.descriptor? number = some d) (done : m.read number size = .ok (bytes, m'))
    (some : bytes ≠ []) :
    m'.tree = m.tree ∧ m'.current = m.current ∧
      m'.descriptor? number = .some { d with offset := d.offset + bytes.length } ∧
      (∀ k, k ≠ number → m'.descriptor? k = m.descriptor? k) ∧
      ∃ n content, m.tree.node? d.node = .some n ∧ n.body = .file content ∧
        d.offset + bytes.length ≤ content.length := by
  rcases Int.lt_or_le size 0 with negative | positive
  · unfold read at done
    rw [if_pos negative] at done
    cases done
  cases there : m.tree.node? d.node with
  | none =>
    unfold read at done
    rw [if_neg (Int.not_lt.mpr positive), openFile_eq_ok.mpr here] at done
    simp only [bind, Except.bind, there, Option.map_none] at done
    cases done
    exact absurd rfl some
  | some n =>
    cases body : n.body with
    | file content =>
      rw [Program.read_file here there body positive] at done
      cases done
      obtain ⟨moved, others⟩ := Program.moved_afterPiece here
        ((content.drop d.offset).take size.toNat).length
      refine ⟨rfl, rfl, moved, others, n, content, rfl, body, ?_⟩
      have within : ((content.drop d.offset).take size.toNat).length ≤
          content.length - d.offset := by
        rw [List.length_take, List.length_drop]
        exact Nat.min_le_right _ _
      have nonempty := List.length_pos_iff.mpr some
      omega
    | _ =>
      unfold read at done
      rw [if_neg (Int.not_lt.mpr positive), openFile_eq_ok.mpr here] at done
      simp only [bind, Except.bind, there, Option.map_some, body] at done
      cases done
      try exact absurd rfl some

theorem openRead_ok {path : String} {number : Int} (done : m.openRead path = .ok (number, m')) :
    ∃ i n, m.tree.node? i = some n ∧ (number, m') = m.opened path i := by
  obtain ⟨⟨i, n⟩, found, done⟩ := bind_eq_ok.mp done
  obtain ⟨_, here⟩ := find_ok found
  dsimp only at done
  split at done
  · cases done
  · cases done
    exact ⟨i, n, here, rfl⟩

end Machine

namespace Program

open Machine

variable {most : Nat} {fill : Machine → Prop} {m m' : Machine} {f : Node → Node} {i : Nat}

/-! ## Invariants of the walk -/

/-- Whether an invariant speaks of the names in a tree only. -/
structure OnNames (fill : Machine → Prop) : Prop where
  same : ∀ m m', m'.tree = m.tree → m'.current = m.current → fill m → fill m'
  changed : ∀ m m' i f, Changed m i f m' → fill m → fill m'

/-- What is true in the course of a clone: what can be said of every tree, and what is said of this
walk. -/
structure Stage (most : Nat) (fill : Machine → Prop) (m : Machine) : Prop where
  sane : Sane most m
  fill : fill m

theorem OnNames.onTree (lasts : OnNames fill) : OnTree (Stage most fill) where
  regular := fun _ h => h.sane.regular
  same := fun m m' tree current h => ⟨h.sane.same tree, lasts.same m m' tree current h.fill⟩

section

variable (lasts : OnNames fill)
include lasts

theorem Stage.changed (h : Stage most fill m) (changed : Changed m i f m')
    (fits : ∀ n content, m.tree.node? i = some n → (f n).body = .file content →
      content.length ≤ most) : Stage most fill m' :=
  ⟨h.sane.changed changed fits, lasts.changed m m' i f changed h.fill⟩

/-- A change of the node that a path leads to, which keeps what the node holds. -/
theorem Stage.kept {path : String} {follow : Bool} (h : Stage most fill m)
    (done : ∃ i above, m.tree.resolve m.current follow path = .ok ⟨i, above⟩ ∧ Changed m i f m')
    (keeps : ∀ n, (f n).body = n.body) : Stage most fill m' := by
  obtain ⟨i, _, _, changed⟩ := done
  exact h.changed lasts changed fun n content here body =>
    h.sane.small i n content here ((keeps n).symm.trans body)

theorem chown_tries {path : String} {uid gid : Int}
    (proper : (Call.chown path uid gid).Proper) :
    (chown path uid gid).Tries (Stage most fill) := by
  exact fun m h => steady_call rfl ⟨proper, h.sane.regular⟩ fun orderly =>
    steady_changed orderly (fun _ done => ⟨.ok _, h.kept lasts (chown_ok done) fun _ => rfl⟩)
      fun e => ⟨.error e, h⟩

theorem lchown_tries {path : String} {uid gid : Int}
    (proper : (Call.chown path uid gid).Proper) :
    (lchown path uid gid).Tries (Stage most fill) := by
  exact fun m h => steady_call rfl ⟨proper, h.sane.regular⟩ fun orderly =>
    steady_changed orderly (fun _ done => ⟨.ok _, h.kept lasts (chown_ok done) fun _ => rfl⟩)
      fun e => ⟨.error e, h⟩

theorem chmod_tries {path : String} {mode : Int} (proper : (Call.chmod path mode).Proper) :
    (chmod path mode).Tries (Stage most fill) := by
  exact fun m h => steady_call rfl ⟨proper, h.sane.regular⟩ fun orderly =>
    steady_changed orderly (fun _ done => ⟨.ok _, h.kept lasts (chmod_ok done) fun _ => rfl⟩)
      fun e => ⟨.error e, h⟩

theorem finishOwner_settles {c : Cloner} {path : String}
    (proper : (Call.chown path c.uid c.gid).Proper) (result : StepResult) :
    (finishOwner c path result).Settles (Stage most fill) := by
  refine (chown_tries lasts proper).attempt fun owned => ?_
  cases owned with
  | ok _ => exact .done _
  | error e => exact (lasts.onTree.log _ _ _).bind fun _ => .done _

theorem finishMode_settles {path : String} {mode : Int}
    (proper : (Call.chmod path mode).Proper) (result : StepResult) :
    (finishMode path mode result).Settles (Stage most fill) := by
  refine (chmod_tries lasts proper).attempt fun moded => ?_
  cases moded with
  | ok _ => exact .done _
  | error e => exact (lasts.onTree.log _ _ _).bind fun _ => .done _

end

/-! ## Pieces -/

/-- A file that is being copied: `copied` bytes were read, and no more than these are in the copy,
which is another file. -/
structure Pumping (most : Nat) (fill : Machine → Prop) (reading writing : Int) (copied : Nat)
    (m : Machine) : Prop extends Stage most fill m where
  apart : writing ≠ reading
  within : copied ≤ most
  open_ : ∃ d e, m.descriptor? reading = some d ∧ m.descriptor? writing = some e ∧
    d.offset = copied ∧ d.node ≠ e.node ∧
    ∀ n content, m.tree.node? e.node = some n → n.body = .file content → content.length ≤ copied

variable {reading writing : Int} {copied : Nat}

theorem Pumping.sameFiles (lasts : OnNames fill)
    (h : Pumping most fill reading writing copied m) (same : SameFiles m m') :
    Pumping most fill reading writing copied m' := by
  refine ⟨lasts.onTree.same m m' same.tree same.current h.toStage, h.apart, h.within, ?_⟩
  unfold descriptor?
  rw [same.descriptors, same.tree]
  exact h.open_

/-- A file that was opened, and one that was created after it. -/
theorem Pumping.start (lasts : OnNames fill) {source path : String} {between : Machine}
    {mode : Int} (h : Stage most fill m) (opened : m.openRead source = .ok (reading, between))
    (done : between.openExclusive path mode = .ok (writing, m'))
    (creates : ∀ m m' bits s, Created m path bits (.file []) s m' → fill m → fill m') :
    Pumping most fill reading writing 0 m' := by
  obtain ⟨i, n, here, start⟩ := openRead_ok opened
  obtain ⟨_, s, created, made, grown⟩ := openExclusive_ok done
  obtain ⟨tree, current⟩ := openRead_sameTree opened
  have kept : Stage most fill between := lasts.onTree.same m between tree current h
  have own : reading = (m.opened source i).1 := congrArg Prod.fst start
  have after : between = (m.opened source i).2 := congrArg Prod.snd start
  have own' : writing = (created.opened path between.tree.nextPlace).1 := congrArg Prod.fst grown
  have after' : m' = (created.opened path between.tree.nextPlace).2 := congrArg Prod.snd grown
  subst own after own' after'
  have reads : created.descriptor? (m.opened source i).1 =
      some { number := m.nextDescriptor, path := source, node := i, offset := 0 } := by
    unfold descriptor?
    rw [made.descriptors]
    exact descriptor?_opened m source i
  obtain ⟨still, apart⟩ := descriptor?_opened_old reads path (m.opened source i).2.tree.nextPlace
  have stage : Stage most fill created :=
    ⟨kept.sane.created made (fileBits_lt _ mode) rfl (fun _ same => by cases same; rfl)
      fun _ bad => (by cases bad), creates _ _ _ s made kept.fill⟩
  refine ⟨lasts.onTree.same created _ rfl rfl stage, apart, Nat.zero_le _, _, _, still,
    descriptor?_opened created path _, rfl, ?_, fun own content there body => ?_⟩
  · exact Nat.ne_of_lt (Tree.lt_of_node? here)
  · have there : created.tree.node? (m.opened source i).2.tree.nextPlace = some own := there
    rw [made.node?_new] at there
    cases there
    cases body
    exact Nat.le_refl _

/-- A piece that was read and written. -/
theorem Pumping.written (lasts : OnNames fill) {between : Machine} {bytes : List UInt8} {size : Int}
    {count : Int} (h : Pumping most fill reading writing copied m) (some : bytes ≠ [])
    (read : m.read reading size = .ok (bytes, between))
    (write : between.write writing bytes = .ok (count, m')) :
    count = bytes.length ∧ Pumping most fill reading writing (copied + bytes.length) m' := by
  obtain ⟨d, e, reads, writes, rfl, other, shorter⟩ := h.open_
  obtain ⟨tree, current, moved, others, n, content, there, body, fits⟩ := read_piece reads read some
  rw [← others writing h.apart] at writes
  obtain ⟨e', found, whole, changed⟩ := write_ok write
  rw [openFile_eq_ok, writes] at found
  cases found
  have within : d.offset + bytes.length ≤ most :=
    Nat.le_trans fits (h.sane.small _ n content there body)
  have grown : ∀ own content', between.tree.node? e.node = .some own →
      (Node.mapContent (· ++ bytes) own).body = .file content' →
      content'.length ≤ d.offset + bytes.length := by
    intro own content' here body'
    rw [tree] at here
    unfold Node.mapContent at body'
    cases old : own.body with
    | file content =>
      simp only [old, Body.file.injEq] at body'
      rw [← body', List.length_append]
      exact Nat.add_le_add_right (shorter own content here old) _
    | _ => simp [old] at body'
  have same : ∀ k, m'.descriptor? k = between.descriptor? k := by
    intro k
    unfold descriptor?
    rw [changed.descriptors]
  refine ⟨whole, (lasts.onTree.same m between tree current h.toStage).changed lasts changed
    fun own content' here body' => Nat.le_trans (grown own content' here body') within,
    h.apart, within, _, e, (same reading).trans moved, (same writing).trans writes, rfl, other, ?_⟩
  intro own content' here body'
  rw [changed.tree, Tree.node?_modify] at here
  obtain ⟨old, before, rfl⟩ := Option.map_eq_some_iff.mp here
  rw [if_pos rfl] at body'
  exact grown old content' before body'

section

variable (lasts : OnNames fill) (h : Pumping most fill reading writing copied m)
include lasts h

theorem Pumping.read_ends (size : Int) :
    (read reading size).Meets Steady sound
      (fun r between => FailsOrderly r ∧ Stage most fill between ∧
        ∀ bytes, r = .ok bytes → m.read reading size = .ok (bytes, between)) m := by
  refine steady_call rfl ⟨trivial, h.sane.regular⟩ fun orderly =>
    steady_answered orderly (fun bytes between done => ⟨.ok _, ?_, fun _ same => ?_⟩)
      fun e => ⟨.error e, h.toStage, fun _ bad => by cases bad⟩
  · obtain ⟨tree, current, _⟩ := read_ok done
    exact lasts.onTree.same m between tree current h.toStage
  · cases same
    exact done

theorem Pumping.write_ends {between : Machine} {bytes : List UInt8} {size : Int}
    (kept : Stage most fill between) (some : bytes ≠ [])
    (read : m.read reading size = .ok (bytes, between)) :
    (write writing bytes).Meets Steady sound
      (fun r m' => FailsOrderly r ∧ Stage most fill m' ∧ ∀ count, r = .ok count →
        count = bytes.length ∧ Pumping most fill reading writing (copied + bytes.length) m')
      between := by
  refine steady_call rfl ⟨trivial, kept.sane.regular⟩ fun orderly =>
    steady_answered orderly (fun count m' done => ?_)
      fun e => ⟨.error e, kept, fun _ bad => by cases bad⟩
  have next := h.written lasts some read done
  exact ⟨.ok _, next.2.toStage, fun _ same => by cases same; exact next⟩

theorem Pumping.pause_ends :
    pause.Meets Steady sound
      (fun r m' => (∃ a, r = .ok a) ∧ Pumping most fill reading writing copied m') m := by
  refine ⟨⟨trivial, h.sane.regular⟩, fun r m' step => ?_⟩
  obtain ⟨step, a, rfl⟩ := step
  exact ⟨⟨a, rfl⟩, h.sameFiles lasts (sameFiles_of_disturbed step.disturbed rfl rfl)⟩

end

/-- There are no more pieces than bytes. -/
theorem copyPieces_ends (lasts : OnNames fill) (size : Int) {pieces : Nat}
    (enough : most < copied + pieces) (h : Pumping most fill reading writing copied m) :
    (copyPieces reading writing size pieces).Meets Steady sound
      (fun r m' => FailsOrderly r ∧ Stage most fill m') m := by
  induction pieces generalizing copied m with
  | zero => exact absurd h.within (Nat.not_le.mpr enough)
  | succ pieces ih =>
    refine (h.read_ends lasts size).bind (fun bytes between reached => ?_) fun f between reached =>
      ⟨reached.1.fault, reached.2.1⟩
    obtain ⟨_, kept, read⟩ := reached
    split
    · exact ⟨.ok _, kept⟩
    next more =>
    have some : bytes ≠ [] := fun none => more (by rw [none]; rfl)
    refine (h.write_ends lasts kept some (read bytes rfl)).bind (fun count m' reached => ?_)
      fun f m' reached => ⟨reached.1.fault, reached.2.1⟩
    obtain ⟨rfl, next⟩ := reached.2.2 count rfl
    rw [if_neg (by simp)]
    refine (next.pause_ends lasts).well fun _ m'' next => ?_
    have nonempty := List.length_pos_iff.mpr some
    exact ih (by omega) next

theorem stream_ends (lasts : OnNames fill) {c : Cloner} (enough : most < c.limits.pieces)
    (path : String) (h : Pumping most fill reading writing 0 m) :
    (stream c reading writing path).Meets Steady sound
      (fun r m' => (∃ a, r = .ok a) ∧ Stage most fill m') m := by
  have copied : (copyPieces reading writing c.chunkSize c.limits.pieces).Meets Steady sound
      (fun r m' => FailsOrderly r ∧ Stage most fill m') m :=
    copyPieces_ends lasts c.chunkSize (by omega) h
  refine Meets.tried (q := fun _ => Stage most fill)
    (copied.bind (fun ended m' reached => ?_) fun f m' reached => ?_) ?_ ?_
  · cases ended with
    | none => exact ⟨.ok _, reached.2⟩
    | some short =>
      refine (((lasts.onTree.log _ _ _).bind fun _ => .done _) m' reached.2).mono ?_
      rintro r m'' ⟨⟨_, rfl⟩, kept⟩
      exact ⟨.ok _, kept⟩
  · exact ⟨reached.1.fault, reached.2⟩
  · exact fun result m' kept => ⟨⟨_, rfl⟩, kept⟩
  · exact fun e => (lasts.onTree.log _ _ _).bind fun _ => .done _

/-- Cutting a file to nothing makes no file longer. -/
theorem Pumping.truncated (lasts : OnNames fill) {path : String}
    (h : Pumping most fill reading writing copied m) (done : m.truncate path 0 = .ok m') :
    Pumping most fill reading writing copied m' := by
  obtain ⟨i, _, _, changed⟩ := truncate_ok done
  have cut : ∀ n content, (Node.mapContent (fun content =>
      content.take (0 : Int).toNat ++ List.replicate ((0 : Int).toNat - content.length) 0) n).body =
        .file content → content = [] := by
    intro n content body
    unfold Node.mapContent at body
    cases old : n.body <;> simp_all
  obtain ⟨d, e, reads, writes, offset, other, shorter⟩ := h.open_
  refine ⟨h.toStage.changed lasts changed fun n content _ body => ?_, h.apart, h.within, d, e, ?_,
    ?_, offset, other, fun n content here body => ?_⟩
  · rw [cut n content body]
    exact Nat.zero_le _
  · unfold descriptor?
    rw [changed.descriptors]
    exact reads
  · unfold descriptor?
    rw [changed.descriptors]
    exact writes
  · rw [changed.tree, Tree.node?_modify] at here
    obtain ⟨old, before, rfl⟩ := Option.map_eq_some_iff.mp here
    split at body
    · rw [cut old content body]
      exact Nat.zero_le _
    · exact shorter old content before body

section

variable (lasts : OnNames fill) {c : Cloner} (enough : most < c.limits.pieces) {path : String}
  {mode : Int} (owned : (Call.chown path c.uid c.gid).Proper)
  (moded : (Call.chmod path mode).Proper)
include lasts enough owned moded

theorem fillFile_ends (h : Pumping most fill reading writing 0 m) :
    (fillFile c reading writing path mode).Meets Steady sound
      (fun r m' => (∃ a, r = .ok a) ∧ Stage most fill m') m := by
  have filled : ∀ m', Pumping most fill reading writing 0 m' →
      (ensuring ((stream c reading writing path).bind fun result => do
          let result ← finishOwner c path result
          finishMode path mode result)
        (closeQuietly writing "Error closing destination file" path)).Meets Steady sound
        (fun r m' => (∃ a, r = .ok a) ∧ Stage most fill m') m' := by
    intro m' h
    have finish : ∀ result, ((finishOwner c path result).bind fun result =>
        finishMode path mode result).Settles (Stage most fill) :=
      fun result => (finishOwner_settles lasts owned result).bind (finishMode_settles lasts moded)
    exact (lasts.onTree.closeQuietly writing _ path).ensuring
      ((stream_ends lasts enough path h).well finish)
  refine Meets.tried (q := fun _ => Pumping most fill reading writing 0) ?_ ?_ ?_
  · exact steady_call rfl ⟨owned.1, h.sane.regular⟩ fun orderly =>
      steady_changed orderly (fun m' done => ⟨.ok _, h.truncated lasts done⟩) fun e => ⟨.error e, h⟩
  · exact fun _ => filled
  · exact fun e m' h => steady_call rfl ⟨trivial, h.sane.regular⟩ fun _ => filled m' h

/-- A file is copied with as many pieces as its bytes, wherever it is. -/
theorem copyFile_settles {source : String} (reads : checkText source = .ok ())
    (creates : ∀ m m' bits s, Created m path bits (.file []) s m' → fill m → fill m') :
    (copyFile c source path mode).Settles (Stage most fill) := by
  intro m h
  refine Meets.tried (q := fun r m' => Stage most fill m' ∧
    ∀ number, r = .ok number → m.openRead source = .ok (number, m')) ?_ ?_ ?_
  · refine steady_call rfl ⟨reads, h.sane.regular⟩ fun orderly =>
      steady_answered orderly (fun number m' done => ⟨.ok _, ?_, fun _ same => ?_⟩) fun e =>
        ⟨.error e, h, fun _ bad => by cases bad⟩
    · obtain ⟨tree, current⟩ := openRead_sameTree done
      exact lasts.onTree.same m m' tree current h
    · cases same
      exact done
  · rintro reading m₁ ⟨kept, opened⟩
    refine (lasts.onTree.closeQuietly reading _ source).ensuring ?_
    refine Meets.tried (q := fun r m' => Stage most fill m' ∧
      ∀ writing, r = .ok writing → Pumping most fill reading writing 0 m') ?_ ?_ ?_
    · refine steady_call rfl ⟨⟨owned.1, rfl⟩, kept.sane.regular⟩ fun orderly =>
        steady_answered orderly (fun writing m' done => ?_)
          fun e => ⟨.error e, kept, fun _ bad => by cases bad⟩
      have filling := Pumping.start lasts h (opened reading rfl) done creates
      exact ⟨.ok _, filling.toStage, fun _ same => by cases same; exact filling⟩
    · exact fun writing m' reached => fillFile_ends lasts enough owned moded (reached.2 writing rfl)
    · exact fun e m' reached =>
        ((lasts.onTree.log _ _ _).bind fun _ => .done _) m' reached.1
  · exact fun e m' reached => ((lasts.onTree.log _ _ _).bind fun _ => .done _) m' reached.1

end

end Program

end HomeProvision
