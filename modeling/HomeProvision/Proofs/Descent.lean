import HomeProvision.Proofs.Confined
import HomeProvision.Proofs.Copies
import HomeProvision.Proofs.Pieces

/-!
# A walk that does not go down for ever

A walk makes directories while it looks at them, so what keeps it from going down for ever is no
measure of the tree that it starts with. `Descent` says what it has to be: something that is true
while the directory is filled that some names lead to, that lasts whatever the walk creates, that
holds of every directory that the walk enters, and that bounds the number of names. Where there is
such a thing, a walk with more levels than the bound comes to an end (`cloneDirectory_settles`).
-/

namespace HomeProvision

open Machine

/-! ## Texts -/

namespace Machine

variable {source dest target name : String} {names : List String}

theorem checkText_eq_ok {text : String} : checkText text = .ok () ↔ '\x00' ∉ text.toList := by
  simp [checkText]

/-- A path below a directory has no characters but those of its parts and the slash. -/
theorem mem_of_mem_join {c : Char} (other : c ≠ '/')
    (mem : c ∈ (Path.join source target).toList) : c ∈ source.toList ∨ c ∈ target.toList := by
  have slash : c ∉ ("/" : String).toList := by
    rw [show ("/" : String).toList = ['/'] from rfl, List.mem_singleton]
    exact other
  unfold Path.join at mem
  split at mem
  · exact .inr mem
  split at mem
  · rw [String.toList_append] at mem
    exact List.mem_append.mp mem
  · rw [String.toList_append, String.toList_append] at mem
    rcases List.mem_append.mp mem with mem | mem
    · exact .inl ((List.mem_append.mp mem).resolve_right slash)
    · exact .inr mem

theorem checkText_join (first : checkText source = .ok ()) (last : checkText target = .ok ()) :
    checkText (Path.join source target) = .ok () := by
  rw [checkText_eq_ok] at first last ⊢
  exact fun mem => (mem_of_mem_join (by decide) mem).elim first last

theorem checkText_below (top : checkText source = .ok ()) (own : Program.AreNames names) :
    checkText (Path.below source names) = .ok () := by
  induction names using List.reverseRecOn with
  | nil => exact top
  | append_singleton names name ih =>
    rw [Path.below_snoc]
    exact checkText_join (ih own.init) (checkText_eq_ok.mpr own.last.noNul)

/-- The new target of a link has no characters but those of the old one and the destination. -/
theorem checkText_remap (own : checkText target = .ok ()) (top : checkText dest = .ok ()) :
    checkText (Path.remap target source dest) = .ok () := by
  unfold Path.remap
  dsimp only
  generalize (if (Path.dropFinalSlashes source.toList).isEmpty = true then ['/'] else _) = origin
  split
  · exact own
  split
  · exact top
  · refine checkText_join top (checkText_eq_ok.mpr fun mem => ?_)
    rw [String.toList_ofList] at mem
    exact checkText_eq_ok.mp own (List.mem_of_mem_drop ((List.dropWhile_sublist _).subset mem))

theorem checkModeArgument_copy (bits : Nat) :
    checkModeArgument (withoutSetId bits : Int) = .ok () := by
  have small := withoutSetId_lt bits
  unfold checkModeArgument
  rw [if_pos]
  simp only [Bool.and_eq_true, decide_eq_true_eq]
  omega

end Machine

namespace Program

variable {most bound : Nat} {w : Walk} {fill : List String → Machine → Prop} {m m' : Machine}
  {names : List String} {name path : String} {entry : Entry}

/-! ## What bounds a walk -/

/-- What is true of a machine while the directory is filled that names lead to, so that there cannot
be more than `bound` of these. -/
structure Descent (w : Walk) (bound : Nat) (fill : List String → Machine → Prop) : Prop where
  onNames : ∀ names, OnNames (fill names)
  leaf : ∀ names name, AreNames (names ++ [name]) → ∀ m bits body s m',
    (m.newNode s.directory bits body).isDirectory = false →
    Created m (Path.below w.destTop (names ++ [name])) bits body s m' → fill names m → fill names m'
  directory : ∀ names name, AreNames (names ++ [name]) → ∀ m bits s m',
    Created m (Path.below w.destTop (names ++ [name])) bits (.directory [] false) s m' →
    fill (names ++ [name]) m → fill (names ++ [name]) m'
  enter : ∀ names name, AreNames (names ++ [name]) → ∀ m status bits, m.tree.Regular →
    m.statusOf false (Path.below w.sourceTop (names ++ [name])) = .ok status →
    machineMode status.mode = .ok bits → EntryType.ofBits bits = .directory →
    w.destRoot ≠ some status.identity →
    m.tree.NamesNoLink m.current (Path.below w.destTop (names ++ [name])) →
    fill names m → fill (names ++ [name]) m
  leave : ∀ names name m, fill (names ++ [name]) m → fill names m
  bounded : ∀ names m, fill names m → names.length ≤ bound

/-- A walk whose paths and owner calls can be made with, and which reads a file of `most` bytes to
its end. -/
structure Fit (most : Nat) (w : Walk) : Prop where
  source : checkText w.sourceTop = .ok ()
  dest : checkText w.destTop = .ok ()
  uid : checkId false w.cloner.uid = .ok ()
  gid : checkId true w.cloner.gid = .ok ()
  pieces : most < w.cloner.limits.pieces

/-! ## Entries -/

/-- What an entry tells of what is at its path. -/
structure Described (m : Machine) (path : String) (entry : Entry) : Prop where
  own : entry.path = path
  target : ∀ text, entry.linkTarget = some text → checkText text = .ok ()
  directory : entry.type = .directory → ∃ status bits, m.statusOf false path = .ok status ∧
    machineMode status.mode = .ok bits ∧ EntryType.ofBits bits = .directory ∧
    status.identity = entry.identity

theorem readlink_ends (text : checkText path = .ok ()) (h : Sane most m) :
    (readlink path).Meets Steady sound
      (fun r m' => FailsOrderly r ∧ m' = m ∧ ∀ target, r = .ok target → checkText target = .ok ())
      m := by
  refine steady_call rfl ⟨text, h.regular⟩ fun orderly => ?_
  refine meets_ofExcept.mpr ⟨orderly, rfl, fun target found => ?_⟩
  obtain ⟨⟨i, n⟩, found, own⟩ := bind_eq_ok.mp found
  obtain ⟨_, here⟩ := find_ok found
  dsimp only at own
  split at own
  · next link body =>
    cases own
    exact h.targets i n _ here (by rw [Node.target?, body])
  · cases own

/-- Looking at an entry changes nothing. -/
theorem describeEntry_ends (name : String) (text : checkText path = .ok ()) (h : Sane most m) :
    (describeEntry name path).Meets Steady sound
      (fun r m' => FailsOrderly r ∧ m' = m ∧ ∀ entry, r = .ok entry → Described m path entry)
      m := by
  refine Meets.bind (q := fun r m' => m' = m ∧ r = m.statusOf false path ∧ FailsOrderly r ∧
    ∀ status, r = .ok status → IsMachineMode status.mode) ?_ ?_ ?_
  · exact steady_call rfl ⟨text, h.regular⟩ fun orderly =>
      meets_ofExcept.mpr ⟨rfl, rfl, orderly⟩
  · rintro status m' ⟨rfl, looked, _, valid⟩
    have valid := machineMode_ok (valid status rfl)
    unfold Entry.ofStatus
    rw [valid]
    change Meets _ _ (if _ then _ else _) _ _
    have plain : Described m' path
        { name, path, type := EntryType.ofBits status.mode.toNat
          mode := permissionBits status.mode.toNat
          size := if EntryType.ofBits status.mode.toNat = .regularFile then some status.size
            else none
          identity := status.identity } :=
      ⟨rfl, fun _ bad => (by cases bad), fun directory => ⟨status, _, looked.symm, valid, directory,
        rfl⟩⟩
    split
    · next link =>
      refine Meets.tried (readlink_ends text h) (fun target m'' read => ?_) fun e m'' read => ?_
      · refine ⟨.ok _, read.1, fun _ same => ?_⟩
        cases same
        exact ⟨rfl, fun _ same => by cases same; exact read.2 target rfl, plain.directory⟩
      · exact ⟨.ok _, read.1, fun _ same => by cases same; exact plain⟩
    · exact ⟨.ok _, rfl, fun _ same => by cases same; exact plain⟩
  · rintro f m' ⟨rfl, _, orderly, _⟩
    exact ⟨orderly.fault, rfl, fun _ bad => by cases bad⟩

/-- Looking for something planted changes nothing, and tells whether a link is there. -/
theorem isPlantedNonDirectory_ends (text : checkText path = .ok ()) (regular : m.tree.Regular) :
    (isPlantedNonDirectory path).Meets Steady sound
      (fun r m' => (∃ planted, r = .ok planted ∧
        (planted = false → m.tree.NamesNoLink m.current path)) ∧ m' = m) m := by
  refine Meets.tried (q := fun r m' => m' = m ∧ r = m.statusOf false path ∧
    ∀ status, r = .ok status → IsMachineMode status.mode) ?_ ?_ ?_
  · exact steady_call rfl ⟨text, regular⟩ fun orderly =>
      meets_ofExcept.mpr ⟨orderly.1, rfl, rfl, orderly.2⟩
  · rintro status m' ⟨rfl, looked, valid⟩
    have valid := machineMode_ok (valid status rfl)
    dsimp only
    rw [valid]
    change Meets _ _ (if _ then _ else _) _ _
    split
    · next directory =>
      exact ⟨⟨false, rfl, fun _ => namesNoLink_of_status regular looked.symm valid directory⟩, rfl⟩
    · exact steady_call (c := .log _) rfl ⟨trivial, regular⟩ fun _ =>
        ⟨⟨true, rfl, fun bad => by cases bad⟩, rfl⟩
  · rintro e m' ⟨rfl, looked, _⟩
    exact ⟨⟨false, rfl, fun _ => namesNoLink_of_error looked.symm⟩, rfl⟩

/-! ## Single entries -/

section

variable (descent : Descent w bound fill) (fit : Fit most w) (proper : AreNames (names ++ [name]))
include descent fit proper

/-- A directory is made, and what bounds the walk still holds below it. -/
theorem ensureDirectory_settles (bits : Nat) :
    (ensureDirectory (Path.below w.destTop (names ++ [name])) w.cloner.uid w.cloner.gid
      (withoutSetId bits)).Settles (Stage most (fill (names ++ [name]))) := by
  have text := checkText_below fit.dest proper
  have lasts := descent.onNames (names ++ [name])
  have calls : DirectoryCalls Steady sound (Stage most (fill (names ++ [name])))
      (Stage most (fill (names ++ [name]))) (Path.below w.destTop (names ++ [name])) w.cloner.uid
      w.cloner.gid (withoutSetId bits) :=
    { note := lasts.onTree.note
      stat := lasts.onTree.keeps (c := .stat _) rfl text .ofExcept
      umask := fun mask => lasts.onTree.keeps (c := .umask mask) rfl trivial .ofExcept
      umaskNew := fun mask => lasts.onTree.keeps (c := .umask mask) rfl trivial .ofExcept
      mkdir := fun m h => by
        refine steady_call rfl ⟨⟨text, checkModeArgument_copy bits⟩, h.sane.regular⟩ fun orderly =>
          steady_changed orderly (fun m' done => ?_) fun e => ⟨h, fun _ bad => by cases bad⟩
        obtain ⟨s, made⟩ := mkdir_ok done
        have kept : Stage most (fill (names ++ [name])) m' :=
          ⟨h.sane.created made (directoryBits_lt m _) rfl (fun _ bad => by cases bad)
            fun _ bad => (by cases bad), descent.directory names name proper m _ s m' made h.fill⟩
        exact ⟨kept, fun _ _ => kept⟩
      chown := (chown_tries lasts ⟨text, fit.uid, fit.gid⟩).keeps
      leave := fun _ => id }
  exact .of_keeps calls.ensureDirectory (ensureDirectory_handles _ _ _ _)

theorem copySymlink_settles {target : Option String}
    (known : ∀ text, target = some text → checkText text = .ok ()) :
    (copySymlink w.cloner w.sourceTop (Path.below w.sourceTop (names ++ [name])) w.destTop
      (Path.below w.destTop (names ++ [name])) target).Settles (Stage most (fill names)) := by
  have text := checkText_below fit.dest proper
  have lasts := descent.onNames names
  have places : ∀ target, checkText target = .ok () →
      LinkCalls Steady sound (Stage most (fill names)) (Stage most (fill names))
        (Path.below w.destTop (names ++ [name])) w.cloner.uid w.cloner.gid
        (Path.remap target w.sourceTop w.destTop) := by
    intro target own
    have own : checkText (Path.remap target w.sourceTop w.destTop) = .ok () :=
      checkText_remap own fit.dest
    refine ⟨lasts.onTree.note, fun m h => ?_, (lchown_tries lasts ⟨text, fit.uid, fit.gid⟩).keeps,
      fun _ => id⟩
    refine steady_call rfl ⟨⟨own, text⟩, h.sane.regular⟩ fun orderly =>
      steady_changed orderly (fun m' done => ?_) fun e => ⟨h, fun _ bad => by cases bad⟩
    obtain ⟨_, s, made⟩ := symlink_ok done
    have kept : Stage most (fill names) m' :=
      ⟨h.sane.created made (by decide) rfl (fun _ bad => by cases bad)
        fun _ same => (by cases same; exact own),
        descent.leaf names name proper m _ _ s m' rfl made h.fill⟩
    exact ⟨kept, fun _ _ => kept⟩
  refine .of_keeps (keeps_copySymlink (fun target => checkText target = .ok ())
    lasts.onTree.note (fun m h => ?_) (fun target own => (places target own).placeLink) known)
    (copySymlink_handles _ _ _ _ _ _)
  refine (readlink_ends (checkText_below fit.source proper) h.sane).mono ?_
  rintro r m' ⟨_, rfl, good⟩
  exact ⟨h, good⟩

end

/-! ## The walk -/

/-- Whether the copy of the content of a directory comes to an end. -/
def DescendSettles (most : Nat) (w : Walk) (fill : List String → Machine → Prop)
    (descend : String → String → List Identity → Program WalkState) (names : List String) : Prop :=
  ∀ entered, (descend (Path.below w.sourceTop names) (Path.below w.destTop names) entered).Settles
    (Stage most (fill names))

section

variable (descent : Descent w bound fill) (fit : Fit most w)
  {descend : String → String → List Identity → Program WalkState}
include descent fit

/-- A directory is entered only if what bounds the walk holds of it. -/
theorem cloneSubdirectory_ends (proper : AreNames (names ++ [name]))
    (below : DescendSettles most w fill descend (names ++ [name])) (state : WalkState)
    (directory : entry.type = .directory) (h : Stage most (fill names) m)
    (described : Described m (Path.below w.sourceTop (names ++ [name])) entry) :
    (cloneSubdirectory w descend entry (Path.below w.destTop (names ++ [name])) state).Meets
      Steady sound (fun r m' => (∃ a, r = .ok a) ∧ Stage most (fill names) m') m := by
  obtain ⟨report, entered⟩ := state
  unfold cloneSubdirectory
  dsimp only
  split
  · exact (((descent.onNames names).onTree.log _ _ _).bind fun _ => .done _) m h
  next other =>
  simp only [Bool.or_eq_true, decide_eq_true_eq, not_or] at other
  refine (isPlantedNonDirectory_ends (checkText_below fit.dest proper) h.sane.regular).bind
    (fun planted m' looked => ?_) fun f m' looked => ?_
  · obtain ⟨⟨_, same, noLink⟩, rfl⟩ := looked
    cases same
    split
    · exact ⟨⟨_, rfl⟩, h⟩
    next free =>
    -- nothing has changed since the look at the entry, so what it told is still true
    obtain ⟨status, bits, looked, valid, ofBits, identity⟩ := described.directory directory
    have entering : Stage most (fill (names ++ [name])) m' :=
      ⟨h.sane, descent.enter names name proper m' status bits h.sane.regular looked valid ofBits
        (by rw [identity]; exact other.2) (noLink (by simpa using free)) h.fill⟩
    have leaving : ∀ m', Stage most (fill (names ++ [name])) m' → Stage most (fill names) m' :=
      fun m' h => ⟨h.sane, descent.leave names name m' h.fill⟩
    refine (ensureDirectory_settles descent fit proper _ m' entering).well fun created m' h => ?_
    split
    · exact ⟨⟨_, rfl⟩, leaving m' h⟩
    · rw [described.own]
      exact (below entered m' h).well fun _ m' h => ⟨⟨_, rfl⟩, leaving m' h⟩
  · obtain ⟨⟨_, bad, _⟩, _⟩ := looked
    cases bad

theorem cloneEntry_settles (proper : AreNames (names ++ [name]))
    (below : DescendSettles most w fill descend (names ++ [name])) (state : WalkState) :
    (cloneEntry w descend name (Path.below w.sourceTop (names ++ [name]))
      (Path.below w.destTop (names ++ [name])) state).Settles (Stage most (fill names)) := by
  intro m h
  have reads := checkText_below fit.source proper
  have writes := checkText_below fit.dest proper
  refine Meets.tried (describeEntry_ends name reads h.sane) (fun entry m' looked => ?_)
    fun e m' looked => ?_
  · obtain ⟨rfl, described⟩ := looked
    have described := described entry rfl
    dsimp only
    split
    · next directory =>
      exact cloneSubdirectory_ends descent fit proper below state directory h described
    · refine ((copyFile_settles (descent.onNames names) fit.pieces ⟨writes, fit.uid, fit.gid⟩
        ⟨writes, checkModeArgument_copy _⟩ reads fun m m' bits s made => ?_).bind
        fun _ => .done _) m' h
      exact descent.leaf names name proper m bits _ s m' rfl made
    · exact ((copySymlink_settles descent fit proper described.target).bind fun _ => .done _) m' h
    · exact (((descent.onNames names).onTree.log _ _ _).bind fun _ => .done _) m' h
  · obtain ⟨rfl, _⟩ := looked
    exact (((descent.onNames names).onTree.log _ _ _).bind fun _ => .done _) m' h

theorem cloneNames_settles (proper : AreNames names)
    (below : ∀ name, AreNames (names ++ [name]) →
      DescendSettles most w fill descend (names ++ [name]))
    (listed : List String)
    (valid : ∀ name ∈ listed, name = "." ∨ name = ".." ∨ Path.IsName name) (state : WalkState) :
    (cloneNames w descend (Path.below w.sourceTop names) (Path.below w.destTop names) listed
      state).Settles (Stage most (fill names)) := by
  induction listed generalizing state with
  | nil => exact .done _
  | cons name rest ih =>
    have ih := ih fun n mem => valid n (List.mem_cons_of_mem _ mem)
    refine (descent.onNames names).onTree.pause.bind fun _ => ?_
    split
    · exact ih state
    next other =>
    have good := isName_of_listed (valid name List.mem_cons_self) other
    have inner := proper.snoc good
    rw [← Path.below_snoc, ← Path.below_snoc]
    exact (cloneEntry_settles descent fit inner (below name inner) state).bind ih

omit descent in
/-- Looking at a directory and listing it, in a walk that goes on from there. -/
theorem opening_tries (proper : AreNames names) (h : Stage most (fill names) m) :
    (do
      let status ← stat (Path.below w.sourceTop names)
      return (status, ← list (Path.below w.sourceTop names)) :
        Program (Status × List String)).Meets Steady sound
      (fun r m' => FailsOrderly r ∧ Stage most (fill names) m' ∧ ∀ status listed,
        r = .ok (status, listed) → ∀ name ∈ listed, name = "." ∨ name = ".." ∨ Path.IsName name)
      m := by
  have text := checkText_below fit.source proper
  refine Meets.bind (q := fun r m' => FailsOrderly r ∧ m' = m) ?_ ?_ ?_
  · exact steady_call rfl ⟨text, h.sane.regular⟩ fun orderly =>
      meets_ofExcept.mpr ⟨orderly.1, rfl⟩
  · rintro status m' ⟨_, rfl⟩
    refine Meets.bind (q := fun r m'' => FailsOrderly r ∧ m'' = m' ∧ ∀ listed, r = .ok listed →
      ∀ name ∈ listed, name = "." ∨ name = ".." ∨ Path.IsName name) ?_ ?_ ?_
    · exact steady_call rfl ⟨text, h.sane.regular⟩ fun orderly =>
        meets_ofExcept.mpr ⟨orderly, rfl, fun _ found => areNames_of_namesOf h.sane.regular found⟩
    · rintro listed m'' ⟨_, rfl, valid⟩
      exact ⟨.ok _, h, fun _ _ same => by cases same; exact valid listed rfl⟩
    · rintro f m'' ⟨orderly, rfl, _⟩
      exact ⟨orderly.fault, h, fun _ _ bad => by cases bad⟩
  · rintro f m' ⟨orderly, rfl⟩
    exact ⟨orderly.fault, h, fun _ _ bad => by cases bad⟩

/-- A walk with more levels than there can be names comes to an end. -/
theorem cloneDirectory_settles {depth : Nat} (proper : AreNames names)
    (deep : bound < depth + names.length) :
    DescendSettles most w fill (cloneDirectory w depth) names := by
  induction depth generalizing names with
  | zero =>
    intro entered m h
    have := descent.bounded names m h.fill
    omega
  | succ depth ih =>
    intro entered m h
    refine Meets.tried (opening_tries fit proper h) (fun opened m' reached => ?_)
      fun e m' reached => ?_
    · refine cloneNames_settles descent fit proper (fun name inner => ih inner ?_) opened.2
        (reached.2 opened.1 opened.2 rfl) _ m' reached.1
      rw [List.length_append, List.length_singleton]
      omega
    · exact (((descent.onNames names).onTree.log _ _ _).bind fun _ => .done _) m' reached.1

end

end Program

end HomeProvision
