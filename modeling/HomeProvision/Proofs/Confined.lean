import HomeProvision.Proofs.Evolution
import HomeProvision.Proofs.Parts
import HomeProvision.Provision.Skeleton

/-!
# A clone stays inside the home

Whatever is found below the destination, a clone adds names only in directories that are reached
from the destination step by step, and no link below the destination is followed
(`cloneTree_confined`). Any call may fail, except for a look at a path below the destination: such a
look is what tells a planted link from a directory.

The invariant of the walk is `Inside`: the path that is being filled, and every path above it up to
the destination, keeps to directories (`Tree.Reaches`). A path that leads to no directory satisfies
it, too. Nothing can be created below such a path, so that it does not come to lead anywhere while
it is being filled.
-/

namespace HomeProvision.Program

open Machine

/-! ## Where calls may lead -/

/-- Whether texts are names. -/
def AreNames (names : List String) : Prop :=
  ∀ name ∈ names, Path.IsName name

namespace AreNames

variable {names : List String} {name : String}

theorem init (h : AreNames (names ++ [name])) : AreNames names :=
  fun n mem => h n (List.mem_append_left _ mem)

theorem last (h : AreNames (names ++ [name])) : Path.IsName name :=
  h name (by simp)

theorem snoc (h : AreNames names) (own : Path.IsName name) : AreNames (names ++ [name]) := by
  intro n mem
  rcases List.mem_append.mp mem with mem | mem
  · exact h n mem
  · exact List.mem_singleton.mp mem ▸ own

end AreNames

/-- Whether a path is one below a directory. -/
def IsBelow (dest path : String) : Prop :=
  ∃ names name, AreNames (names ++ [name]) ∧ path = Path.below dest (names ++ [name])

/-- Whether a path below the destination leads only to what its names lead to, directory by
directory. -/
def LeadsInside (home : Option Nat) (dest : String) (follow : Bool) (path : String) (m : Machine) :
    Prop :=
  ∃ names name, AreNames (names ++ [name]) ∧ path = Path.below dest (names ++ [name]) ∧
    ∀ p, m.tree.resolve m.current follow path = .ok p →
      ∃ i, home = some i ∧ m.tree.locate i (names ++ [name]) = some p.node

/-- Whether a path is one below the destination, in a directory that its names lead to. -/
def CreatesInside (home : Option Nat) (dest path : String) (m : Machine) : Prop :=
  ∃ names name, AreNames (names ++ [name]) ∧ path = Path.below dest (names ++ [name]) ∧
    m.tree.Reaches m.current home dest names

/-- Whether an open file is one below the destination. -/
def WritesInside (home : Option Nat) (number : Int) (m : Machine) : Prop :=
  ∀ i, (m.descriptor? number).map Descriptor.node = some i →
    ∃ d names, home = some d ∧ m.tree.locate d names = some i

/-- Whether a path belongs to the skeleton. -/
def IsSource (source path : String) : Prop :=
  ∃ names, AreNames names ∧ path = Path.below source names

/-- What a clone may do: it looks at the skeleton and at the destination, and all other paths that
it uses lie inside the destination. -/
def Confined (home : Option Nat) (source dest : String) : Call → Machine → Prop
  | .mkdir path _, m | .openExclusive path _, m | .symlink _ path, m =>
      CreatesInside home dest path m
  | .chown path _ _, m | .chmod path _, m | .truncate path _, m => LeadsInside home dest true path m
  | .lchown path _ _, m => LeadsInside home dest false path m
  | .write number _, m => WritesInside home number m
  | .stat path, m => path = dest ∨ IsSource source path ∨ LeadsInside home dest true path m
  | .lstat path, m => IsSource source path ∨ LeadsInside home dest false path m
  | .list path, _ | .openRead path, _ | .readlink path, _ => IsSource source path
  | .umask _, _ | .read _ _, _ | .close _, _ | .pause, _ | .log _, _ => True
  | _, _ => False

/-- Whether the directory of every name that was added is reached from the destination, directory by
directory. -/
def AddedInside (before : Tree) (home : Option Nat) (after : Tree) : Prop :=
  ∀ i name j, after.child? i name = some j → before.child? i name = none →
    ∃ d names, home = some d ∧ after.locate d names = some i

/-! ## The invariant -/

/-- What is true while the directory is filled that names lead to. -/
structure Inside (before : Tree) (home : Option Nat) (dest : String) (names : List String)
    (m : Machine) : Prop where
  regular : m.tree.Regular
  added : AddedInside before home m.tree
  reaches : ∀ above, above <+: names → m.tree.Reaches m.current home dest above

variable {before : Tree} {home : Option Nat} {source dest : String} {names : List String}
  {name : String} {m m' : Machine}

theorem Inside.of_isPrefix {above : List String} (h : Inside before home dest names m)
    (shorter : above <+: names) : Inside before home dest above m :=
  ⟨h.regular, h.added, fun upper less => h.reaches upper (less.trans shorter)⟩

theorem Inside.same (m m' : Machine) (tree : m'.tree = m.tree) (current : m'.current = m.current)
    (h : Inside before home dest names m) : Inside before home dest names m' := by
  refine ⟨?_, ?_, ?_⟩
  · rw [tree]
    exact h.regular
  · rw [tree]
    exact h.added
  · rw [tree, current]
    exact h.reaches

theorem AddedInside.changed {i : Nat} {f : Node → Node} (h : AddedInside before home m.tree)
    (changed : Changed m i f m') : AddedInside before home m'.tree := by
  intro k x j present free
  rw [changed.sameShape.child?] at present
  obtain ⟨d, names, here, located⟩ := h k x j present free
  exact ⟨d, names, here, (changed.sameShape.locate d names).trans located⟩

theorem Inside.changed {i : Nat} {f : Node → Node} (h : Inside before home dest names m)
    (changed : Changed m i f m') : Inside before home dest names m' := by
  refine ⟨Regular.changed h.regular changed, h.added.changed changed, fun above shorter => ?_⟩
  rw [changed.current]
  exact changed.sameShape.reaches (h.reaches above shorter)

/-- A node that is created in a directory on the way is inside, and so is everything else. -/
theorem Inside.created {bits : Nat} {body : Body} {s : Tree.Spot} (full : dest ≠ "")
    (proper : AreNames (names ++ [name])) (h : Inside before home dest names m)
    (made : Created m (Path.below dest (names ++ [name])) bits body s m')
    (small : bits < 0o10000) (bare : (m.newNode s.directory bits body).entries?.getD [] = []) :
    Inside before home dest names m' := by
  obtain ⟨q, leads, rfl⟩ := made.directoryAt full proper
  refine ⟨Regular.created h.regular small bare made, fun i x j present free => ?_,
    fun above shorter => ?_⟩
  · rw [made.tree] at present
    rcases Tree.child?_create (Tree.lt_of_isDirectory made.isDirectory) bare present with
      old | ⟨here, -⟩
    · obtain ⟨d, names, here, located⟩ := h.added i x j old free
      exact ⟨d, names, here, made.grows.locate located⟩
    · obtain ⟨d, root, located⟩ := h.reaches names (List.prefix_refl _) q leads
      exact ⟨d, names, root, by rw [here]; exact made.grows.locate located⟩
  · -- every path above the new node led to a directory before, so none of them starts to lead
    -- anywhere
    rw [made.current]
    obtain ⟨r, there⟩ := Tree.directoryAt_of_isPrefix full proper.init shorter leads
    exact made.grows.reaches there (h.reaches above shorter)

/-- Moreover, the path of an entry names no link. -/
structure OnEntry (before : Tree) (home : Option Nat) (dest : String) (names : List String)
    (name : String) (m : Machine) : Prop extends Inside before home dest names m where
  noLink : m.tree.NamesNoLink m.current (Path.below dest (names ++ [name]))

/-- Moreover, the open file with a number is the entry's. -/
structure OnFile (before : Tree) (home : Option Nat) (dest : String) (names : List String)
    (name : String) (number : Int) (m : Machine) : Prop extends
    OnEntry before home dest names name m where
  open_ : WritesInside home number m

theorem OnEntry.same (m m' : Machine) (tree : m'.tree = m.tree) (current : m'.current = m.current)
    (h : OnEntry before home dest names name m) : OnEntry before home dest names name m' := by
  refine ⟨h.toInside.same m m' tree current, ?_⟩
  rw [tree, current]
  exact h.noLink

theorem OnEntry.changed {i : Nat} {f : Node → Node} (h : OnEntry before home dest names name m)
    (changed : Changed m i f m') : OnEntry before home dest names name m' := by
  refine ⟨h.toInside.changed changed, fun p leads => ?_⟩
  rw [changed.sameShape.resolve, changed.current] at leads
  rw [changed.sameShape.targets]
  exact h.noLink p leads

theorem WritesInside.of_locate {number : Int} (h : WritesInside home number m)
    (still : ∀ i, (m'.descriptor? number).map Descriptor.node = some i →
      (m.descriptor? number).map Descriptor.node = some i)
    (located : ∀ d names i, m.tree.locate d names = some i → m'.tree.locate d names = some i) :
    WritesInside home number m' := by
  intro i found
  obtain ⟨d, names, here, leads⟩ := h i (still i found)
  exact ⟨d, names, here, located d names i leads⟩

theorem OnFile.changed {i : Nat} {f : Node → Node} {number : Int}
    (h : OnFile before home dest names name number m) (changed : Changed m i f m') :
    OnFile before home dest names name number m' := by
  refine ⟨h.toOnEntry.changed changed, h.open_.of_locate ?_ fun d names i located => ?_⟩
  · unfold descriptor?
    rw [changed.descriptors]
    exact fun _ found => found
  · exact (changed.sameShape.locate d names).trans located

theorem OnFile.same {number : Int} (m m' : Machine) (same : SameFiles m m')
    (h : OnFile before home dest names name number m) :
    OnFile before home dest names name number m' := by
  refine ⟨h.toOnEntry.same m m' same.tree same.current, h.open_.of_locate ?_ ?_⟩
  · unfold descriptor?
    rw [same.descriptors]
    exact fun _ found => found
  · rw [same.tree]
    exact fun _ _ _ located => located

theorem OnFile.read {number k size : Int} {bytes : List UInt8}
    (h : OnFile before home dest names name number m) (done : m.read k size = .ok (bytes, m')) :
    OnFile before home dest names name number m' := by
  obtain ⟨tree, current, still⟩ := read_ok done
  refine ⟨h.toOnEntry.same m m' tree current, h.open_.of_locate ?_ ?_⟩
  · rw [still]
    exact fun _ found => found
  · rw [tree]
    exact fun _ _ _ located => located

theorem Inside.leadsInside {follow : Bool} (full : dest ≠ "") (proper : AreNames (names ++ [name]))
    (h : Inside before home dest names m)
    (noLink : follow = false ∨
      m.tree.NamesNoLink m.current (Path.below dest (names ++ [name]))) :
    LeadsInside home dest follow (Path.below dest (names ++ [name])) m :=
  ⟨names, name, proper, rfl, fun _ leads => (h.reaches names (List.prefix_refl _)).locate full
    proper.init proper.last noLink leads⟩

theorem Inside.createsInside (proper : AreNames (names ++ [name]))
    (h : Inside before home dest names m) :
    CreatesInside home dest (Path.below dest (names ++ [name])) m :=
  ⟨names, name, proper, rfl, h.reaches names (List.prefix_refl _)⟩

/-- A directory whose path names no link is one to go on in. -/
theorem OnEntry.descend (full : dest ≠ "") (proper : AreNames (names ++ [name]))
    (h : OnEntry before home dest names name m) : Inside before home dest (names ++ [name]) m := by
  refine ⟨h.regular, h.added, fun above shorter => ?_⟩
  rcases List.prefix_concat_iff.mp shorter with rfl | shorter
  · exact (h.reaches names (List.prefix_refl _)).snoc full
      proper.init proper.last h.noLink
  · exact h.reaches above shorter

/-! ## Calls -/

/-- What is true of every call: it is confined, and so are the names added before it. -/
def confining (before : Tree) (home : Option Nat) (source dest : String) (c : Call) (m : Machine) :
    Prop :=
  Confined home source dest c m ∧ AddedInside before home m.tree

variable {α : Type} {spared : Call → Prop}

theorem log_confined {invariant : Machine → Prop}
    (added : ∀ m, invariant m → AddedInside before home m.tree)
    (same : ∀ m m', SameFiles m m' → invariant m → invariant m') (level : Level) (event : String)
    (details : List (String × Detail)) :
    (log level event details).Keeps (Disturbed spared) (confining before home source dest)
      invariant :=
  .still rfl rfl (fun m h => ⟨trivial, added m h⟩) same .done

theorem Inside.sameFiles (m m' : Machine) (same : SameFiles m m')
    (h : Inside before home dest names m) : Inside before home dest names m' :=
  h.same m m' same.tree same.current

theorem OnEntry.sameFiles (m m' : Machine) (same : SameFiles m m')
    (h : OnEntry before home dest names name m) : OnEntry before home dest names name m' :=
  h.same m m' same.tree same.current

/-- Noting an event while a directory is filled. -/
theorem Inside.keeps_log (level : Level) (event : String) (details : List (String × Detail)) :
    (log level event details).Keeps (Disturbed spared) (confining before home source dest)
      (Inside before home dest names) :=
  log_confined (fun _ h => h.added) Inside.sameFiles level event details

theorem OnEntry.keeps_log (level : Level) (event : String) (details : List (String × Detail)) :
    (log level event details).Keeps (Disturbed spared) (confining before home source dest)
      (OnEntry before home dest names name) :=
  log_confined (fun _ h => h.added) OnEntry.sameFiles level event details

theorem OnFile.keeps_log (number : Int) (level : Level) (event : String)
    (details : List (String × Detail)) :
    (log level event details).Keeps (Disturbed spared) (confining before home source dest)
      (OnFile before home dest names name number) :=
  log_confined (fun _ h => h.added) OnFile.same level event details

/-! ## Parts of a clone -/

section

variable (full : dest ≠ "") (proper : AreNames (names ++ [name]))
include full proper

/-- A directory that is created names no link, since a link would be in the way. -/
theorem OnEntry.directoryCalls (uid gid mode : Int) :
    DirectoryCalls (Disturbed spared) (confining before home source dest)
      (OnEntry before home dest names name) (OnEntry before home dest names name)
      (Path.below dest (names ++ [name])) uid gid mode where
  note := OnEntry.keeps_log
  stat := .quiet rfl (fun m h => ⟨.inr (.inr (h.leadsInside full proper (.inr h.noLink))), h.added⟩)
    OnEntry.same .ofExcept
  umask := fun _ => .still rfl rfl (fun _ h => ⟨trivial, h.added⟩) OnEntry.sameFiles .ofExcept
  umaskNew := fun _ => .still rfl rfl (fun _ h => ⟨trivial, h.added⟩) OnEntry.sameFiles .ofExcept
  mkdir := by
    refine fun m h => meets_mkdir ⟨h.createsInside proper, h.added⟩ (fun m' done => ?_)
      fun _ => ⟨h, fun _ bad => by cases bad⟩
    obtain ⟨s, made⟩ := mkdir_ok done
    have onEntry : OnEntry before home dest names name m' :=
      ⟨h.toInside.created full proper made (directoryBits_lt m mode) rfl, made.namesNoLink⟩
    exact ⟨onEntry, fun _ _ => onEntry⟩
  chown := by
    refine fun m h => meets_chown ⟨h.leadsInside full proper (.inr h.noLink), h.added⟩
      (fun m' done => ?_) fun _ => h
    obtain ⟨i, above, _, changed⟩ := chown_ok done
    exact h.changed changed
  leave := fun _ => id

/-- A link that is created is inside, whatever it leads to. -/
theorem Inside.linkCalls (uid gid : Int) (target : String) :
    LinkCalls (Disturbed spared) (confining before home source dest)
      (Inside before home dest names) (Inside before home dest names)
      (Path.below dest (names ++ [name])) uid gid target where
  note := Inside.keeps_log
  symlink := by
    refine fun m h => meets_symlink ⟨h.createsInside proper, h.added⟩ (fun m' done => ?_)
      fun _ => ⟨h, fun _ bad => by cases bad⟩
    obtain ⟨_, s, made⟩ := symlink_ok done
    have inside : Inside before home dest names m' := h.created full proper made (by decide) rfl
    exact ⟨inside, fun _ _ => inside⟩
  lchown := by
    refine fun m h => meets_lchown ⟨h.leadsInside full proper (.inl rfl), h.added⟩
      (fun m' done => ?_) fun _ => h
    obtain ⟨i, above, _, changed⟩ := chown_ok done
    exact h.changed changed
  leave := fun _ => id

/-- A file that is created names no link, and its descriptor is that of an entry inside. -/
theorem OnFile.of_openExclusive {number mode : Int} (h : Inside before home dest names m)
    (done : m.openExclusive (Path.below dest (names ++ [name])) mode = .ok (number, m')) :
    OnFile before home dest names name number m' := by
  obtain ⟨bare, s, created, made, opened⟩ := openExclusive_ok done
  have inside := h.created full proper made (fileBits_lt m mode) rfl
  obtain ⟨above, there⟩ : ∃ above, created.tree.resolve created.current false
      (Path.below dest (names ++ [name])) = .ok ⟨m.tree.nextPlace, above⟩ :=
    made.resolve_new (.inl (by simp)) fun ends => by rw [bare] at ends; cases ends
  have noLink : created.tree.NamesNoLink created.current (Path.below dest (names ++ [name])) := by
    intro p leads
    rw [there] at leads
    cases leads
    rw [made.node?_new]
    rfl
  have located := (inside.reaches names (List.prefix_refl _)).locate full
    proper.init proper.last (.inl rfl) there
  have own : number = (created.opened (Path.below dest (names ++ [name])) m.tree.nextPlace).1 :=
    congrArg Prod.fst opened
  have after : m' = (created.opened (Path.below dest (names ++ [name])) m.tree.nextPlace).2 :=
    congrArg Prod.snd opened
  subst own after
  refine ⟨OnEntry.same created _ rfl rfl ⟨inside, noLink⟩, fun i found => ?_⟩
  rw [descriptor?_opened] at found
  cases found
  obtain ⟨d, root, located⟩ := located
  exact ⟨d, _, root, located⟩

theorem OnFile.fileCalls (reading number mode : Int) :
    FileCalls (Disturbed spared) (confining before home source dest)
      (OnFile before home dest names name number) reading number
      (Path.below dest (names ++ [name])) mode where
  note := OnFile.keeps_log number
  read := fun _ _ h => meets_read ⟨trivial, h.added⟩ (fun _ _ done => h.read done) fun _ => h
  write := by
    refine fun bytes m h => meets_write ⟨h.open_, h.added⟩ (fun _ _ done => ?_) fun _ => h
    obtain ⟨d, _, _, changed⟩ := write_ok done
    exact h.changed changed
  pause := .still rfl rfl (fun _ h => ⟨trivial, h.added⟩) OnFile.same .ofExcept
  truncate := by
    refine fun m h => meets_truncate ⟨h.leadsInside full proper (.inr h.noLink), h.added⟩
      (fun m' done => ?_) fun _ => h
    obtain ⟨i, above, _, changed⟩ := truncate_ok done
    exact h.changed changed
  chown := by
    refine fun uid gid m h => meets_chown ⟨h.leadsInside full proper (.inr h.noLink), h.added⟩
      (fun m' done => ?_) fun _ => h
    obtain ⟨i, above, _, changed⟩ := chown_ok done
    exact h.changed changed
  chmod := by
    refine fun m h => meets_chmod ⟨h.leadsInside full proper (.inr h.noLink), h.added⟩
      (fun m' done => ?_) fun _ => h
    obtain ⟨i, above, _, changed⟩ := chmod_ok done
    exact h.changed changed

theorem Inside.copyCalls {path : String} (own : IsSource source path) (mode : Int) :
    CopyCalls (Disturbed spared) (confining before home source dest)
      (Inside before home dest names) (OnFile before home dest names name) path
      (Path.below dest (names ++ [name])) mode where
  note := Inside.keeps_log
  openRead := .quiet rfl (fun _ h => ⟨own, h.added⟩) Inside.same .ofExcept
  close := fun _ => .quiet rfl (fun _ h => ⟨trivial, h.added⟩) Inside.same .ofExcept
  openExclusive := by
    refine fun m h => meets_openExclusive ⟨h.createsInside proper, h.added⟩
      (fun writing m' done => ?_)
      fun _ => ⟨h, fun _ bad => by cases bad⟩
    have onFile := OnFile.of_openExclusive full proper h done
    exact ⟨onFile.toInside, fun _ same => by cases same; exact onFile⟩
  file := fun reading writing => OnFile.fileCalls full proper reading writing mode
  leave := fun _ _ h => h.toInside

end

/-! ## The walk -/

/-- A look at the destination that is not disturbed tells whether a link was planted there. -/
theorem Inside.isPlantedNonDirectory (full : dest ≠ "") (proper : AreNames (names ++ [name]))
    (spares : ∀ path, IsBelow dest path → spared (.lstat path))
    (h : Inside before home dest names m) :
    (isPlantedNonDirectory (Path.below dest (names ++ [name]))).Meets (Disturbed spared)
      (confining before home source dest)
      (fun r m' => Inside before home dest names m' ∧
        (r = .ok false →
          m'.tree.NamesNoLink m'.current (Path.below dest (names ++ [name])))) m := by
  refine Meets.attempt (q := fun r m' => m' = m ∧
    r = m.statusOf false (Path.below dest (names ++ [name]))) ?_ ?_ ?_ ?_
  · refine meets_call_of rfl ⟨.inr (h.leadsInside full proper (.inl rfl)), h.added⟩ ?_ ?_
    · exact meets_ofExcept.mpr ⟨rfl, rfl⟩
    · -- the one call that must not be disturbed
      exact fun exposed => absurd (spares _ ⟨names, name, proper, rfl⟩) exposed
  · rintro status m' ⟨rfl, looked⟩
    refine Meets.bind (q := fun r m'' => m'' = m' ∧ r = (machineMode status.mode).mapError .range)
      (meets_ofExcept.mpr ⟨rfl, rfl⟩) ?_ ?_
    · rintro mode m' ⟨rfl, valid⟩
      have valid := mapError_eq_ok.mp valid.symm
      split
      · next directory =>
        exact ⟨h, fun _ => namesNoLink_of_status h.regular looked.symm valid directory⟩
      · exact (Inside.keeps_log _ _ _ m' h).bind (fun _ m'' h => ⟨h, fun bad => by cases bad⟩)
          fun _ m'' h => ⟨h, fun bad => by cases bad⟩
    · rintro f m' ⟨rfl, _⟩
      exact ⟨h, fun bad => by cases bad⟩
  · rintro e m' ⟨rfl, looked⟩
    exact ⟨h, fun _ => namesNoLink_of_error looked.symm⟩
  · rintro f m' _ ⟨rfl, _⟩
    exact ⟨h, fun bad => by cases bad⟩

theorem Inside.describeEntry {path : String} (own : IsSource source path) (name : String)
    (h : Inside before home dest names m) :
    (describeEntry name path).Meets (Disturbed spared) (confining before home source dest)
      (fun r m' => Inside before home dest names m' ∧ ∀ entry, r = .ok entry → entry.path = path)
      m := by
  have looks : (lstat path).Keeps (Disturbed spared) (confining before home source dest)
      (Inside before home dest names) :=
    .quiet rfl (fun _ h => ⟨.inl own, h.added⟩) Inside.same .ofExcept
  have reads : (readlink path).Keeps (Disturbed spared) (confining before home source dest)
      (Inside before home dest names) :=
    .quiet rfl (fun _ h => ⟨own, h.added⟩) Inside.same .ofExcept
  refine (looks m h).bind (fun status m h => ?_) fun f m h => ⟨h, fun _ bad => by cases bad⟩
  refine meets_bind.mpr (meets_ofExcept.mpr ?_)
  cases described : Entry.ofStatus name path status with
  | error e => exact ⟨h, fun _ bad => by cases bad⟩
  | ok entry =>
    have same : entry.path = path := by
      unfold Entry.ofStatus at described
      cases bits : machineMode status.mode with
      | error e => rw [bits] at described; cases described
      | ok k => rw [bits] at described; cases described; rfl
    change Meets _ _ (if _ then _ else _) _ _
    split
    · refine (Keeps.attempt reads m h).bind (fun target m h => ?_) fun f m h =>
        ⟨h, fun _ bad => by cases bad⟩
      cases target with
      | ok _ => exact ⟨h, fun _ done => by cases done; exact same⟩
      | error _ => exact ⟨h, fun _ done => by cases done; exact same⟩
    · exact ⟨h, fun _ done => by cases done; exact same⟩

/-- The names that a regular directory lists. -/
theorem areNames_of_namesOf {path : String} {listed : List String} (regular : m.tree.Regular)
    (found : m.namesOf path = .ok listed) :
    ∀ name ∈ listed, name = "." ∨ name = ".." ∨ Path.IsName name := by
  obtain ⟨⟨i, n⟩, found, listing⟩ := bind_eq_ok.mp found
  obtain ⟨_, here⟩ := find_ok found
  dsimp only at listing
  split at listing
  · next entries dots body =>
    cases listing
    have own : m.tree.entries? i = some entries := by
      simp [Tree.entries?, here, Node.entries?, body]
    intro name mem
    rcases List.mem_append.mp mem with mem | mem
    · split at mem
      · rcases List.mem_cons.mp mem with rfl | mem
        · exact .inl rfl
        · exact .inr (.inl (List.mem_singleton.mp mem))
      · cases mem
    · obtain ⟨entry, inside, rfl⟩ := List.mem_map.mp mem
      exact .inr (.inr (regular.names i entries own entry inside))
  · cases listing

/-- What a directory lists is a name, unless it stands for the directory itself or its parent. -/
theorem isName_of_listed (valid : name = "." ∨ name = ".." ∨ Path.IsName name)
    (entry : ¬ (name = "." || name = "..") = true) : Path.IsName name := by
  simp only [Bool.or_eq_true, decide_eq_true_eq, not_or] at entry
  exact (valid.resolve_left entry.1).resolve_left entry.2

theorem IsSource.join {path : String} (own : IsSource source path) (good : Path.IsName name) :
    IsSource source (Path.join path name) := by
  obtain ⟨names, proper, rfl⟩ := own
  exact ⟨names ++ [name], proper.snoc good, Path.below_snoc.symm⟩

/-- What the copy of the content of a directory keeps. -/
def Descends (spared : Call → Prop) (before : Tree) (home : Option Nat) (source dest : String)
    (descend : String → String → List Identity → Program WalkState) : Prop :=
  ∀ path names entered, IsSource source path → AreNames names →
    (descend path (Path.below dest names) entered).Keeps (Disturbed spared)
      (confining before home source dest) (Inside before home dest names)

section

variable {w : Walk} {descend : String → String → List Identity → Program WalkState}
  (full : dest ≠ "") (spares : ∀ path, IsBelow dest path → spared (.lstat path))
  (below : Descends spared before home source dest descend)
include full spares below

theorem Inside.keeps_cloneSubdirectory (proper : AreNames (names ++ [name])) {entry : Entry}
    (own : IsSource source entry.path) (state : WalkState) :
    (cloneSubdirectory w descend entry (Path.below dest (names ++ [name])) state).Keeps
      (Disturbed spared) (confining before home source dest) (Inside before home dest names) := by
  obtain ⟨report, entered⟩ := state
  unfold cloneSubdirectory
  dsimp only
  split
  · exact (Inside.keeps_log _ _ _).bind fun _ => .done _
  intro m h
  refine (h.isPlantedNonDirectory full proper spares).bind (fun planted m h => ?_) fun _ _ h => h.1
  split
  · exact h.1
  next link =>
  -- from here on the path of the entry names no link, whatever is created under it
  have onEntry : OnEntry before home dest names name m :=
    ⟨h.1, h.2 (by simp only [Bool.not_eq_true] at link; rw [link])⟩
  refine ((OnEntry.directoryCalls full proper _ _ _).ensureDirectory m onEntry).bind
    (fun created m onEntry => ?_) fun _ _ onEntry => onEntry.toInside
  split
  · exact onEntry.toInside
  refine (below entry.path _ entered own proper m (onEntry.descend full proper)).bind
    (fun inner m inside => ?_) fun _ _ inside => ?_
  · exact inside.of_isPrefix (List.prefix_append _ _)
  · exact inside.of_isPrefix (List.prefix_append _ _)

theorem Inside.keeps_cloneEntry (proper : AreNames (names ++ [name])) {path : String}
    (own : IsSource source path) (state : WalkState) :
    (cloneEntry w descend name path (Path.below dest (names ++ [name])) state).Keeps
      (Disturbed spared) (confining before home source dest) (Inside before home dest names) := by
  intro m h
  refine Meets.attempt (h.describeEntry own name) (fun entry m h => ?_) (fun e m h => ?_)
    fun _ _ _ h => h.1
  · have same := h.2 entry rfl
    dsimp only
    split
    · exact Inside.keeps_cloneSubdirectory full spares below proper (same ▸ own) state m h.1
    · exact (((Inside.copyCalls full proper own _).copyFile _).bind fun _ => .done _) m h.1
    · have reads : (readlink path).Keeps (Disturbed spared) (confining before home source dest)
          (Inside before home dest names) :=
        .quiet rfl (fun _ h => ⟨own, h.added⟩) Inside.same .ofExcept
      refine (Keeps.bind (keeps_copySymlink (fun _ => True) Inside.keeps_log (fun m h => ?_)
        (fun target _ => (Inside.linkCalls full proper _ _ _).placeLink) fun _ _ => trivial)
        fun _ => .done _) m h.1
      exact (reads m h).mono fun _ _ h => ⟨h, fun _ _ => trivial⟩
    · exact ((Inside.keeps_log _ _ _).bind fun _ => .done _) m h.1
  · exact ((Inside.keeps_log _ _ _).bind fun _ => .done _) m h.1

theorem Inside.keeps_cloneNames (proper : AreNames names) {path : String}
    (own : IsSource source path) (listed : List String)
    (valid : ∀ name ∈ listed, name = "." ∨ name = ".." ∨ Path.IsName name) (state : WalkState) :
    (cloneNames w descend path (Path.below dest names) listed state).Keeps (Disturbed spared)
      (confining before home source dest) (Inside before home dest names) := by
  induction listed generalizing state with
  | nil => exact .done _
  | cons name rest ih =>
    have ih := ih fun n mem => valid n (List.mem_cons_of_mem _ mem)
    refine Keeps.bind (.quiet rfl (fun _ h => ⟨trivial, h.added⟩) Inside.same .ofExcept) fun _ => ?_
    split
    · exact ih state
    next entry =>
    -- a name that a directory lists is one step, so the path stays below the destination
    have good := isName_of_listed (valid name List.mem_cons_self) entry
    have inner := proper.snoc good
    rw [← Path.below_snoc]
    exact (Inside.keeps_cloneEntry full spares below inner (own.join good) state).bind ih

end

theorem Inside.keeps_cloneDirectory (full : dest ≠ "")
    (spares : ∀ path, IsBelow dest path → spared (.lstat path)) (w : Walk) (depth : Nat) :
    Descends spared before home source dest (cloneDirectory w depth) := by
  induction depth with
  | zero => exact fun _ _ _ _ _ => .raise _
  | succ depth ih =>
    intro path names entered own proper m h
    have opening : (do
          let status ← stat path
          return (status, ← list path) : Program (Status × List String)).Meets (Disturbed spared)
        (confining before home source dest)
        (fun r m' => Inside before home dest names m' ∧ ∀ status listed, r = .ok (status, listed) →
          ∀ name ∈ listed, name = "." ∨ name = ".." ∨ Path.IsName name) m := by
      have looks : (stat path).Keeps (Disturbed spared) (confining before home source dest)
          (Inside before home dest names) :=
        .quiet rfl (fun _ h => ⟨.inr (.inl own), h.added⟩) Inside.same .ofExcept
      refine (looks m h).bind (fun status m h => ?_) fun f m h => ⟨h, fun _ _ bad => by cases bad⟩
      refine Meets.bind (q := fun r m' => Inside before home dest names m' ∧
        ∀ listed, r = .ok listed → ∀ name ∈ listed, name = "." ∨ name = ".." ∨ Path.IsName name)
        ?_ ?_ ?_
      · refine meets_call_of rfl ⟨own, h.added⟩ ?_ fun _ _ => meets_of_fault fun f =>
          ⟨h, fun _ bad => by cases bad⟩
        exact meets_ofExcept.mpr ⟨h, fun listed found => areNames_of_namesOf h.regular found⟩
      · exact fun listed m h => ⟨h.1, fun _ _ same => by cases same; exact h.2 listed rfl⟩
      · exact fun f m h => ⟨h.1, fun _ _ bad => by cases bad⟩
    refine Meets.attempt opening (fun opened m h => ?_) (fun e m h => ?_) fun _ _ _ h => h.1
    · exact Inside.keeps_cloneNames full spares ih proper own _ (h.2 opened.1 opened.2 rfl) _ m h.1
    · exact ((Inside.keeps_log _ _ _).bind fun _ => .done _) m h.1

theorem Inside.keeps_clone (full : dest ≠ "")
    (spares : ∀ path, IsBelow dest path → spared (.lstat path)) (c : Cloner) :
    (clone c source dest).Keeps (Disturbed spared) (confining before home source dest)
      (Inside before home dest []) := by
  have walks : ∀ w, (cloneDirectory w c.limits.depth source dest []).Keeps (Disturbed spared)
      (confining before home source dest) (Inside before home dest []) :=
    fun w => Inside.keeps_cloneDirectory full spares w c.limits.depth source [] []
      ⟨[], fun _ mem => absurd mem List.not_mem_nil, rfl⟩ fun _ mem => absurd mem List.not_mem_nil
  refine Keeps.bind (Keeps.attempt ?_) fun looked => ?_
  · exact .quiet rfl (fun _ h => ⟨.inl rfl, h.added⟩) Inside.same .ofExcept
  · cases looked with
    | ok status => exact (walks _).bind fun _ => .done _
    | error _ => exact (walks _).bind fun _ => .done _

/-- The place of the directory that a path leads to, if it leads to one. -/
def homeAt (m : Machine) (dest : String) : Option Nat :=
  (m.tree.directoryAt m.current dest).toOption.map Place.node

/-- What a look at the destination tells of its directory. -/
theorem statusOf_of_homeAt {i : Nat} (text : checkText dest = .ok ())
    (here : homeAt m dest = some i) :
    ∃ n, m.tree.node? i = some n ∧ m.statusOf true dest = .ok n.status := by
  unfold homeAt at here
  cases leads : m.tree.directoryAt m.current dest with
  | error e => rw [leads] at here; cases here
  | ok q =>
    rw [leads] at here
    cases here
    obtain ⟨leads, dir⟩ := Tree.directoryAt_eq_ok_iff.mp leads
    obtain ⟨n, here, _⟩ := Tree.isDirectory_iff.mp dir
    exact ⟨n, here, by rw [statusOf_eq, find_eq_ok text leads here]; rfl⟩

/-- Before a walk, nothing was added and the destination is its own home. -/
theorem Inside.start (regular : m.tree.Regular) : Inside m.tree (homeAt m dest) dest [] m := by
  refine ⟨regular, fun i name j present free => ?_, fun above shorter q leads => ?_⟩
  · rw [present] at free
    cases free
  · rw [List.prefix_nil.mp shorter] at leads ⊢
    have there : m.tree.directoryAt m.current dest = .ok q := leads
    exact ⟨q.node, by rw [homeAt, there]; rfl, rfl⟩

/-- A clone stays inside the home. Unless the path of the destination is empty, every call of a
clone is confined to the destination and to looks at the skeleton, and at every moment each name
that was added is in a directory that is reached from the destination through directories only. -/
theorem cloneTree_confined {σ : Type} {world : Layer σ} {view : σ → Machine}
    (full : dest ≠ "")
    (keeps : world.KeepsTo (Disturbed fun c => ∃ path, IsBelow dest path ∧ c = .lstat path) view)
    {s : σ} (regular : (view s).tree.Regular) (uid gid : Int) (chunkSize : Option Int)
    (limits : Limits) :
    (∀ step ∈ (cloneTree source dest uid gid chunkSize limits).steps world s,
      Confined (homeAt (view s) dest) source dest step.1 (view step.2) ∧
        AddedInside (view s).tree (homeAt (view s) dest) (view step.2).tree) ∧
      AddedInside (view s).tree (homeAt (view s) dest)
        (view ((cloneTree source dest uid gid chunkSize limits).run world s).2).tree := by
  have kept : (cloneTree source dest uid gid chunkSize limits).Meets
      (Disturbed fun c => ∃ path, IsBelow dest path ∧ c = .lstat path)
      (confining (view s).tree (homeAt (view s) dest) source dest)
      (fun _ => Inside (view s).tree (homeAt (view s) dest) dest []) (view s) :=
    Inside.keeps_clone full (fun path below => ⟨path, below, rfl⟩) _ (view s)
      (Inside.start regular)
  exact ⟨Meets.steps keeps kept, (Meets.run keeps kept).added⟩

/-- A skeleton is copied where no owner can be changed. -/
theorem cloneTree_confined_without_owners :
    AddedInside sample.tree (homeAt sample "/home")
      ((cloneTree "/skel" "/home" 7 7 none {}).run
        (refusing givesAway (refusedDescriptor .notPermitted)) sample).2.tree := by
  have keeps : (refusing givesAway (refusedDescriptor .notPermitted)).KeepsTo
      (Disturbed fun c => ∃ path, IsBelow "/home" path ∧ c = .lstat path) id := by
    refine refusing_keepsTo fun c refused spared => ?_
    obtain ⟨path, _, rfl⟩ := spared
    cases refused
  exact (cloneTree_confined (by decide) keeps sample_regular 7 7 none {}).2

/-- The empty path leads nowhere, but names below it lead to the current directory: the copies end
up there. -/
theorem cloneTree_empty_destination :
    homeAt sample "" = none ∧ ¬ AddedInside sample.tree (homeAt sample "")
      ((cloneTree "/skel" "" 7 7 none { depth := 2, pieces := 2 }).run Machine.layer
        sample).2.tree := by
  have nowhere : homeAt sample "" = none := by decide
  have added : ((cloneTree "/skel" "" 7 7 none { depth := 2, pieces := 2 }).run Machine.layer
      sample).2.tree.child? Tree.root "f" = some 7 := by decide
  have free : sample.tree.child? Tree.root "f" = none := by decide
  refine ⟨nowhere, fun inside => ?_⟩
  obtain ⟨d, _, root, _⟩ := inside Tree.root "f" 7 added free
  rw [nowhere] at root
  cases root

end HomeProvision.Program
