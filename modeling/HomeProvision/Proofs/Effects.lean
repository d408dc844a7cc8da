import HomeProvision.Proofs.Unhindered

/-!
# Effects on an unhindered machine

What the calls that change the tree, and those on open files, come to on an unhindered machine.
-/

namespace HomeProvision.Program

open Machine

variable {α : Type} {m : Machine} {path : String} {i : Nat} {n : Node}

/-! ## Calls that change a node -/

/-- A change of the node that a path leads to, as `edits` has it of every such change. -/
theorem does_changed {e : Except Fault Machine} {post : Except Fault Unit → Machine → Prop}
    {follow : Bool} {above : List Nat} {f : Node → Node}
    (leads : m.tree.resolve m.current follow path = .ok ⟨i, above⟩) (refuses : OnlyRefuses e)
    (edits : ∀ m', e = .ok m' → ∃ j above',
      m.tree.resolve m.current follow path = .ok ⟨j, above'⟩ ∧ Changed m j f m')
    (fair : NotRefused (m.changed e).1) (done : ∀ m', Changed m i f m' → post (.ok ()) m') :
    (ofExcept (m.changed e).1).Does post (m.changed e).2 := by
  cases e with
  | ok m' =>
    obtain ⟨j, above', leads', changed⟩ := edits m' rfl
    rw [leads] at leads'
    cases leads'
    exact done m' changed
  | error f => exact absurd (refuses f rfl) (fair f rfl)

section

variable {post : Except Fault Unit → Machine → Prop} {follow : Bool} {above : List Nat}

theorem chown_onlyRefuses {uid gid : Int}
    (leads : m.tree.resolve m.current follow path = .ok ⟨i, above⟩)
    (here : m.tree.node? i = some n) : OnlyRefuses (m.chown follow path uid gid) := by
  refine (OnlyRefuses.checkText _).bind fun _ _ => (OnlyRefuses.checkId _ _).bind fun _ _ =>
    (OnlyRefuses.checkId _ _).bind fun _ _ => (OnlyRefuses.find leads here).bind fun _ _ => ?_
  dsimp only
  split
  · exact fun _ same => by cases same; exact .inl rfl
  · exact .ok _

theorem does_chown {uid gid : Int}
    (leads : m.tree.resolve m.current true path = .ok ⟨i, above⟩)
    (here : m.tree.node? i = some n)
    (done : ∀ m', Changed m i (Node.giveTo uid gid) m' → post (.ok ()) m') :
    (chown path uid gid).Does post m :=
  does_call rfl fun fair =>
    does_changed leads (chown_onlyRefuses leads here) (fun _ given => chown_ok given) fair done

theorem does_lchown {uid gid : Int}
    (leads : m.tree.resolve m.current false path = .ok ⟨i, above⟩)
    (here : m.tree.node? i = some n)
    (done : ∀ m', Changed m i (Node.giveTo uid gid) m' → post (.ok ()) m') :
    (lchown path uid gid).Does post m :=
  does_call rfl fun fair =>
    does_changed leads (chown_onlyRefuses leads here) (fun _ given => chown_ok given) fair done

theorem does_chmod {mode : Int}
    (leads : m.tree.resolve m.current true path = .ok ⟨i, above⟩)
    (here : m.tree.node? i = some n)
    (done : ∀ m', Changed m i (fun n => { n with mode := grantedBits mode 0o7777 }) m' →
      post (.ok ()) m') :
    (chmod path mode).Does post m := by
  refine does_call rfl fun fair => does_changed leads ?_ (fun _ given => chmod_ok given) fair done
  refine (OnlyRefuses.checkText _).bind fun _ _ => (OnlyRefuses.checkModeArgument _).bind
    fun _ _ => (OnlyRefuses.find leads here).bind fun _ _ => ?_
  dsimp only
  split
  · exact fun _ same => by cases same; exact .inl rfl
  · exact .ok _

/-- Cutting an empty file changes nothing in it. -/
theorem does_truncate {content : List UInt8}
    (leads : m.tree.resolve m.current true path = .ok ⟨i, above⟩)
    (here : m.tree.node? i = some n) (body : n.body = .file content)
    (done : ∀ m', Changed m i (Node.mapContent fun content => content.take 0) m' →
      post (.ok ()) m') :
    (truncate path 0).Does post m := by
  refine does_call rfl fun fair => does_changed leads ?_ (fun _ given => truncate_ok given) fair
    fun m' changed => ?_
  · refine (OnlyRefuses.checkText _).bind fun _ _ => (OnlyRefuses.find leads here).bind
      fun found same => ?_
    rw [OnlyRefuses.find_ok leads here same]
    simp only [body]
    exact .ok _
  · refine done m' ?_
    simpa using changed

end

/-! ## New nodes -/

/-- That a name is taken is no refusal. -/
theorem not_isRefusal_taken {names : FileNames} :
    ¬ (Fault.system (.numbered .alreadyExists names)).IsRefusal := by
  rintro (bad | bad) <;> cases bad

section

variable {directory name : String} {q : Place} (full : directory ≠ "") (own : Path.IsName name)
  (leads : m.tree.directoryAt m.current directory = .ok q)
include full own leads

/-- The spot of a new node below a directory. -/
theorem spot_of_created {bits : Nat} {body : Body} {s : Tree.Spot} {m' : Machine}
    (made : Created m (Path.join directory name) bits body s m') : s = ⟨q.node, name⟩ := by
  obtain ⟨r, leads', same⟩ := Tree.directoryAt_of_spot_join full own.toIsComponent made.spot
  rw [leads] at leads'
  cases leads'
  exact same

/-- A creation fails with an error of the system, and says that the name is taken only if it is. -/
theorem createAt_error {names : FileNames} {check : Except Errno Unit} {bits : Nat} {body : Body}
    {f : Fault} (other : check ≠ .error .alreadyExists)
    (failed : m.createAt names (Path.join directory name) check bits body = .error f) :
    ∃ e, f = .system (.numbered e names) ∧
      (e = .alreadyExists → (m.tree.child? q.node name).isSome = true) := by
  rcases bind_eq_error.mp failed with bad | ⟨s, found, failed⟩
  · -- no spot: the name may be too long, but a spot below a directory is there
    obtain ⟨e, reason, rfl⟩ := mapError_eq_error.mp bad
    refine ⟨e, rfl, fun same => ?_⟩
    rcases shortBelow_or full own leads with short | ⟨_, long⟩
    · rw [Tree.spot_join full own short.1 short.2 leads] at reason
      cases reason
    · rw [long, same] at reason
      cases reason
  rcases bind_eq_error.mp failed with bad | ⟨_, _, failed⟩
  · obtain ⟨e, reason, rfl⟩ := mapError_eq_error.mp bad
    exact ⟨e, rfl, fun same => absurd (by rw [reason, same]) other⟩
  rcases bind_eq_error.mp failed with bad | ⟨_, _, bad⟩
  · -- the spot is not free: its name is no dot, so it is taken
    obtain ⟨e, reason, rfl⟩ := mapError_eq_error.mp bad
    refine ⟨e, rfl, fun _ => ?_⟩
    obtain ⟨r, leads', same⟩ :=
      Tree.directoryAt_of_spot_join full own.toIsComponent (mapError_eq_ok.mp found)
    rw [leads] at leads'
    cases leads'
    subst same
    unfold Tree.checkFree at reason
    simp only [own.ne_dot, own.ne_dots, decide_false, Bool.or_self, Bool.false_or] at reason
    split at reason
    · next taken => exact taken
    · cases reason
  · cases bad

/-- Where a name is free, a directory is made. -/
theorem does_mkdir_join {post : Except Fault Unit → Machine → Prop} {mode : Int}
    (free : m.tree.child? q.node name = none)
    (done : ∀ m', Created m (Path.join directory name) (m.directoryBits mode) (.directory [] false)
      ⟨q.node, name⟩ m' → post (.ok ()) m') :
    (mkdir (Path.join directory name) mode).Does post m := by
  refine does_call rfl fun fair => ?_
  change (ofExcept (m.changed (m.mkdir _ mode)).1).Does post (m.changed (m.mkdir _ mode)).2
  cases made : m.mkdir (Path.join directory name) mode with
  | ok m' =>
    obtain ⟨s, created⟩ := mkdir_ok made
    have same := spot_of_created full own leads created
    subst same
    exact done m' created
  | error f =>
    have fair : FailsIfTaken (m.changed (m.mkdir (Path.join directory name) mode)).1 := fair
    rw [made] at fair
    obtain ⟨names, rfl⟩ := fair f rfl
    rcases bind_eq_error.mp made with bad | ⟨_, _, made⟩
    · exact absurd (OnlyRefuses.checkText _ _ bad) not_isRefusal_taken
    rcases bind_eq_error.mp made with bad | ⟨_, _, made⟩
    · exact absurd (OnlyRefuses.checkModeArgument _ _ bad) not_isRefusal_taken
    obtain ⟨e, same, taken⟩ := createAt_error full own leads (by simp) made
    cases same
    rw [free] at taken
    cases taken rfl

/-- A file is made exactly if its name is free. -/
theorem does_openExclusive_join {post : Except Fault Int → Machine → Prop}
    (free : ∀ created, m.tree.child? q.node name = none →
      Created m (Path.join directory name) (m.fileBits freshFileMode) (.file []) ⟨q.node, name⟩
        created →
      post (.ok (created.opened (Path.join directory name) m.tree.nextPlace).1)
        (created.opened (Path.join directory name) m.tree.nextPlace).2)
    (taken : (m.tree.child? q.node name).isSome = true →
      post (.error (.system (.numbered .alreadyExists (.one (Path.join directory name))))) m) :
    (openExclusive (Path.join directory name)).Does post m := by
  refine does_call rfl fun fair => ?_
  change (ofExcept (m.answered (m.openExclusive _ freshFileMode)).1).Does post
    (m.answered (m.openExclusive _ freshFileMode)).2
  cases made : m.openExclusive (Path.join directory name) freshFileMode with
  | ok result =>
    obtain ⟨number, m'⟩ := result
    obtain ⟨_, s, created, new, opened⟩ := openExclusive_ok made
    have same := spot_of_created full own leads new
    subst same
    cases opened
    exact free created new.free new
  | error f =>
    have fair : FailsIfTaken (m.answered (m.openExclusive (Path.join directory name)
      freshFileMode)).1 := fair
    rw [made] at fair
    obtain ⟨names, rfl⟩ := fair f rfl
    rcases bind_eq_error.mp made with bad | ⟨_, _, made⟩
    · exact absurd (OnlyRefuses.checkText _ _ bad) not_isRefusal_taken
    rcases bind_eq_error.mp made with bad | ⟨_, _, made⟩
    · exact absurd (OnlyRefuses.checkModeArgument _ _ bad) not_isRefusal_taken
    rcases bind_eq_error.mp made with made | ⟨_, _, bad⟩
    · rw [Path.endsInSlash_join own.toIsComponent] at made
      obtain ⟨e, same, there⟩ := createAt_error full own leads (by simp) made
      cases same
      exact taken (there rfl)
    · cases bad

/-- A link is made exactly if its name is free. -/
theorem does_symlink_join {post : Except Fault Unit → Machine → Prop} {target : String}
    (free : ∀ m', m.tree.child? q.node name = none →
      Created m (Path.join directory name) 0o777 (.link target) ⟨q.node, name⟩ m' →
      post (.ok ()) m')
    (taken : (m.tree.child? q.node name).isSome = true →
      post (.error
        (.system (.numbered .alreadyExists (.two target (Path.join directory name))))) m) :
    (symlink target (Path.join directory name)).Does post m := by
  refine does_call rfl fun fair => ?_
  change (ofExcept (m.changed (m.symlink target _)).1).Does post (m.changed (m.symlink target _)).2
  cases made : m.symlink target (Path.join directory name) with
  | ok m' =>
    obtain ⟨_, s, created⟩ := symlink_ok made
    have same := spot_of_created full own leads created
    subst same
    exact free m' created.free created
  | error f =>
    have fair : FailsIfTaken (m.changed (m.symlink target (Path.join directory name))).1 := fair
    rw [made] at fair
    obtain ⟨names, rfl⟩ := fair f rfl
    rcases bind_eq_error.mp made with bad | ⟨_, _, made⟩
    · exact absurd (OnlyRefuses.checkText _ _ bad) not_isRefusal_taken
    rcases bind_eq_error.mp made with bad | ⟨_, _, made⟩
    · exact absurd (OnlyRefuses.checkText _ _ bad) not_isRefusal_taken
    rcases bind_eq_error.mp made with bad | ⟨_, _, made⟩
    · -- an empty or a long target is not a name that is taken
      unfold Tree.checkPath at bad
      split at bad
      · cases bad
      · split at bad <;> cases bad
    rcases bind_eq_error.mp made with made | ⟨_, _, bad⟩
    · obtain ⟨e, same, there⟩ := createAt_error full own leads (by simp) made
      cases same
      exact taken (there rfl)
    · rw [Path.endsInSlash_join own.toIsComponent] at bad
      cases bad

end

/-! ## Open files -/

theorem does_openRead {post : Except Fault Int → Machine → Prop} {above : List Nat}
    {content : List UInt8} (leads : m.tree.resolve m.current true path = .ok ⟨i, above⟩)
    (here : m.tree.node? i = some n) (body : n.body = .file content)
    (done : post (.ok (m.opened path i).1) (m.opened path i).2) : (openRead path).Does post m := by
  refine does_call rfl fun fair => ?_
  have refuses : OnlyRefuses (m.openRead path) := by
    refine (OnlyRefuses.find leads here).bind fun found same => ?_
    rw [OnlyRefuses.find_ok leads here same]
    simp only [body]
    exact .ok _
  have fair : NotRefused (m.answered (m.openRead path)).1 := fair
  change (ofExcept (m.answered (m.openRead path)).1).Does post (m.answered (m.openRead path)).2
  cases opened : m.openRead path with
  | error f =>
    rw [opened] at fair
    exact absurd (refuses f opened) (fair f rfl)
  | ok result =>
    obtain ⟨found, same, opened⟩ := bind_eq_ok.mp opened
    rw [OnlyRefuses.find_ok leads here same] at opened
    simp only [body] at opened
    cases opened
    exact done

variable {number size : Int} {d : Descriptor} {content : List UInt8}

/-- An open file after a piece was read through the one with a number. -/
def advanced (number length : Nat) (d : Descriptor) : Descriptor :=
  if d.number = number then { d with offset := d.offset + length } else d

theorem advanced_number (number length : Nat) (d : Descriptor) :
    (advanced number length d).number = d.number := by
  unfold advanced
  split <;> rfl

/-- A machine after a piece was read. -/
def afterPiece (m : Machine) (number length : Nat) : Machine :=
  { m with descriptors := m.descriptors.map (advanced number length) }

/-- Open files are found by numbers that do not change. -/
theorem descriptor?_afterPiece (m : Machine) (number length : Nat) (k : Int) :
    (afterPiece m number length).descriptor? k =
      (m.descriptor? k).map (advanced number length) := by
  unfold descriptor? afterPiece
  rw [List.find?_map]
  simp only [Function.comp_def, advanced_number]

theorem read_file (here : m.descriptor? number = some d) (there : m.tree.node? d.node = some n)
    (body : n.body = .file content) (positive : 0 ≤ size) :
    m.read number size = .ok ((content.drop d.offset).take size.toNat,
      afterPiece m d.number ((content.drop d.offset).take size.toNat).length) := by
  unfold Machine.read
  rw [if_neg (Int.not_lt.mpr positive), openFile_eq_ok.mpr here]
  simp only [Bind.bind, Except.bind, there, Option.map_some, body]
  rfl

/-- Only the descriptor that was read from has moved. -/
theorem moved_afterPiece (here : m.descriptor? number = some d) (length : Nat) :
    (afterPiece m d.number length).descriptor? number =
        some { d with offset := d.offset + length } ∧
      ∀ k, k ≠ number → (afterPiece m d.number length).descriptor? k = m.descriptor? k := by
  have own : (d.number : Int) = number := by simpa using List.find?_some here
  constructor
  · rw [descriptor?_afterPiece, here]
    simp [advanced]
  · intro k other
    rw [descriptor?_afterPiece]
    cases found : m.descriptor? k with
    | none => rfl
    | some e =>
      have named : (e.number : Int) = k := by simpa using List.find?_some found
      have apart : e.number ≠ d.number := fun same => other (by rw [← named, ← own, same])
      simp [advanced, apart]

/-- A piece of a file, and how far the descriptor has moved. -/
theorem does_read {post : Except Fault (List UInt8) → Machine → Prop}
    (here : m.descriptor? number = some d) (there : m.tree.node? d.node = some n)
    (body : n.body = .file content) (positive : 0 ≤ size)
    (done : ∀ m', m'.tree = m.tree → m'.current = m.current →
      m'.descriptor? number =
        some { d with offset := d.offset + ((content.drop d.offset).take size.toNat).length } →
      (∀ k, k ≠ number → m'.descriptor? k = m.descriptor? k) →
      post (.ok ((content.drop d.offset).take size.toNat)) m') :
    (read number size).Does post m := by
  refine does_call rfl fun _ => ?_
  obtain ⟨moved, others⟩ := moved_afterPiece here ((content.drop d.offset).take size.toNat).length
  change (ofExcept (m.answered (m.read number size)).1).Does post
    (m.answered (m.read number size)).2
  rw [read_file here there body positive]
  exact done _ rfl rfl moved others

theorem does_write {post : Except Fault Int → Machine → Prop} {bytes : List UInt8}
    (here : m.descriptor? number = some d)
    (done : ∀ m', Changed m d.node (Node.mapContent (· ++ bytes)) m' →
      post (.ok (bytes.length : Int)) m') :
    (write number bytes).Does post m := by
  refine does_call rfl fun _ => ?_
  have result : m.write number bytes = .ok ((bytes.length : Int),
      m.withTree (m.tree.modify d.node (Node.mapContent (· ++ bytes)))) := by
    unfold Machine.write
    rw [openFile_eq_ok.mpr here]
    rfl
  change (ofExcept (m.answered (m.write number bytes)).1).Does post
    (m.answered (m.write number bytes)).2
  rw [result]
  exact done _ (changed_content m d.node _)

/-- Closing a file changes no file, and fails only with an error of the system. -/
theorem does_close (m : Machine) (number : Int) :
    (close number).Does (fun r m' => (∀ f, r = .error f → ∃ e, f = .system e) ∧
      m'.tree = m.tree ∧ m'.current = m.current) m := by
  refine does_call rfl fun _ => ?_
  change (ofExcept (m.changed (m.close number)).1).Does _ (m.changed (m.close number)).2
  cases found : m.openFile number with
  | ok d =>
    have result : m.close number =
        .ok { m with descriptors := m.descriptors.filter fun e => e.number ≠ d.number } := by
      unfold Machine.close
      rw [found]
      rfl
    rw [result]
    exact ⟨fun _ bad => (by cases bad), rfl, rfl⟩
  | error f =>
    have result : m.close number = .error f := by
      unfold Machine.close
      rw [found]
      rfl
    rw [result]
    refine ⟨fun g same => ?_, rfl, rfl⟩
    unfold openFile at found
    split at found
    · cases found
    · cases found
      cases same
      exact ⟨_, rfl⟩

end HomeProvision.Program
