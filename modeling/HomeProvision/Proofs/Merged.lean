import HomeProvision.Proofs.Resumption
import HomeProvision.Proofs.Unaliased

/-!
# A clone merges

On an unhindered machine a clone does what `Copying.merge` says: the destination shows the merged
forest afterwards, the report is the one of the merge, and the rest of the tree is as it was
(`cloneTree_merges`). Each time the hook gets control on the way, the destination shows a forest from
which the merge can be taken up again (`Underway`).

The walk writes into the tree that it reads from. What carries it is that the directories it has
still to read and those it fills are different ones.
-/

namespace HomeProvision

open Machine

/-! ## Looks at entries -/

/-- The entry of a skeleton that a node is. -/
def Machine.Node.entry (name path : String) (n : Node) : Entry where
  name := name
  path := path
  type := n.entryType
  mode := n.mode
  size := if n.entryType = .regularFile then some n.size else none
  linkTarget := n.target?
  identity := n.status.identity

namespace Program

variable {m m' : Machine} {directory name : String} {q : Place} {i : Nat} {n : Node}

section

variable (full : directory ≠ "") (own : Path.IsName name)
  (leads : m.tree.directoryAt m.current directory = .ok q)
include full own leads

theorem does_describeEntry (found : m.tree.child? q.node name = some i)
    (here : m.tree.node? i = some n) (small : n.mode < 0o10000) :
    (describeEntry name (Path.join directory name)).Does
      (fun r m' => r = .ok (n.entry name (Path.join directory name)) ∧ m' = m ∧
        ShortBelow directory name) m := by
  refine Meets.surely (a := n.status) (q := fun m' => m' = m ∧ ShortBelow directory name)
    (does_lstat_join full own leads found here fun short => ⟨rfl, rfl, short⟩) fun m' h => ?_
  obtain ⟨rfl, short⟩ := h
  have known : Entry.ofStatus name (Path.join directory name) n.status =
      .ok { n.entry name (Path.join directory name) with linkTarget := none } := by
    unfold Entry.ofStatus
    rw [Node.machineMode_status small]
    simp only [Except.map, Node.ofBits_status small, Node.permissionBits_status small]
    rfl
  -- the entry is known from its status but for the target of a link, which is read on its own
  unfold ofRange
  rw [known]
  change Does (if n.entryType = .symlink then _ else _) _ _
  split
  · next link =>
    obtain ⟨target, body⟩ : ∃ target, n.body = .link target := by
      unfold Node.entryType at link
      cases body : n.body <;> simp_all
    have read : m'.tree.resolve m'.current false (Path.join directory name) = .ok (q.step i) :=
      Tree.resolve_join full own short.1 short.2 leads found (.inr rfl)
    refine Meets.attempted (q := fun m'' => m'' = m') (does_readlink read here body ⟨rfl, rfl⟩)
      fun m'' same => ⟨?_, same, short⟩
    simp [Node.entry, Node.target?, body]
  · next other =>
    refine ⟨?_, rfl, short⟩
    have bare : n.target? = none := by
      unfold Node.entryType at other
      unfold Node.target?
      cases body : n.body <;> simp_all
    simp [Node.entry, bare]

theorem does_isPlanted_none (free : m.tree.child? q.node name = none) :
    (isPlantedNonDirectory (Path.join directory name)).Does
      (fun r m' => r = .ok false ∧ m' = m ∧ ShortBelow directory name) m :=
  Meets.caught (e := .numbered .noEntry (.one (Path.join directory name)))
    (q := fun m' => m' = m ∧ ShortBelow directory name)
    (does_lstat_join_none full own leads free fun short => ⟨rfl, rfl, short⟩)
    fun _ h => ⟨rfl, h⟩

theorem does_isPlanted (found : m.tree.child? q.node name = some i)
    (here : m.tree.node? i = some n) (small : n.mode < 0o10000) :
    (isPlantedNonDirectory (Path.join directory name)).Does
      (fun r m' => r = .ok (!n.isDirectory) ∧ m' = m ∧ ShortBelow directory name) m := by
  refine Meets.attempted (a := n.status) (q := fun m' => m' = m ∧ ShortBelow directory name)
    (does_lstat_join full own leads found here fun short => ⟨rfl, rfl, short⟩) fun m' h => ?_
  obtain ⟨rfl, short⟩ := h
  dsimp only
  unfold ofRange
  rw [Node.machineMode_status small]
  change Does (if EntryType.ofBits _ = .directory then _ else _) _ _
  rw [Node.ofBits_status small]
  split
  · next directory =>
    rw [Node.entryType_eq_directory_iff.mp directory]
    exact ⟨rfl, rfl, short⟩
  · next other =>
    have leaf : n.isDirectory = false := by
      rw [Node.entryType_eq_directory_iff] at other
      simpa using other
    rw [leaf]
    exact does_call rfl fun _ => ⟨rfl, rfl, short⟩

end

/-! ## How a walk ends -/

/-- How a walk over some entries ends that started with the tree `t` and the directories `entered`:
with the report and the forest of a merge, and it has entered no other directories than those
`inside`. -/
def Ends (t : Tree) (current : String) (g : Folder) (inside : List Nat) (entered : List Identity)
    (s : Copying.State) (r : Except Fault WalkState) (m' : Machine) : Prop :=
  ∃ g' entered', r = .ok (s.2, entered') ∧ g'.forest = s.1 ∧ m'.current = current ∧
    Merges t m'.tree g g' ∧ ∀ x ∈ entered', x ∈ entered ∨ ∃ i ∈ inside, t.identity? i = some x

variable {w : Walk} {home : Nat} {f g : Folder} {entered : List Identity} {report : CloneReport}
  {s : Copying.State}

/-- What holds where nothing was done. -/
theorem Ends.same (regular : m.tree.Regular) (target : Machine.Filling m.tree m.current g)
    (inside : List Nat) (tree : m'.tree = m.tree) (cwd : m'.current = m.current) :
    Ends m.tree m.current g inside entered (g.forest, report) (.ok (report, entered)) m' := by
  refine ⟨g, entered, rfl, rfl, cwd, ?_, fun _ => .inl⟩
  rw [tree]
  exact .refl regular target

/-- What was merged before a walk counts, too. -/
theorem Ends.after {t : Tree} {current : String} {g' : Folder} {inside : List Nat}
    {r : Except Fault WalkState} (merged : Merges t m.tree g g') (cwd : m.current = current)
    (present : ∀ i ∈ inside, t.isDirectory i = true)
    (h : Ends m.tree m.current g' inside entered s r m') :
    Ends t current g inside entered s r m' := by
  obtain ⟨g'', entered', done, forest, cwd', merged', known⟩ := h
  refine ⟨g'', entered', done, forest, cwd'.trans cwd, merged.trans merged', fun x mem => ?_⟩
  rcases known x mem with old | ⟨i, mem, told⟩
  · exact .inl old
  · rw [merged.grows.identity?_of_isDirectory (present i mem)] at told
    exact .inr ⟨i, mem, told⟩

/-- So does what was entered before a walk. -/
theorem Ends.widen {t : Tree} {current : String} {above inside : List Nat}
    {entered' : List Identity} {r : Except Fault WalkState}
    (known : ∀ x ∈ entered', x ∈ entered ∨ ∃ i ∈ above, t.identity? i = some x)
    (h : Ends t current g inside entered' s r m') :
    Ends t current g (above ++ inside) entered s r m' := by
  obtain ⟨g', entered'', done, forest, cwd, merged, known'⟩ := h
  refine ⟨g', entered'', done, forest, cwd, merged, fun x mem => ?_⟩
  rcases known' x mem with old | ⟨i, mem, told⟩
  · rcases known x old with old | ⟨i, mem, told⟩
    · exact .inl old
    · exact .inr ⟨i, List.mem_append_left _ mem, told⟩
  · exact .inr ⟨i, List.mem_append_right _ mem, told⟩

/-- A walk over some entries and then over others. -/
theorem Ends.bind {found : Bool → Machine → Prop} {p : Program WalkState}
    {k : WalkState → Program WalkState} {above inside : List Nat} {s' : Copying.State}
    (first : p.Performs found (Ends m.tree m.current g above entered s) m)
    (present : ∀ i ∈ inside, m.tree.isDirectory i = true)
    (onward : ∀ m' g' entered', m'.current = m.current → g'.forest = s.1 →
      Merges m.tree m'.tree g g' →
      (∀ x ∈ entered', x ∈ entered ∨ ∃ i ∈ above, m.tree.identity? i = some x) →
      (k (s.2, entered')).Performs found (Ends m'.tree m'.current g' inside entered' s') m') :
    (p.bind k).Performs found (Ends m.tree m.current g (above ++ inside) entered s') m := by
  refine Performs.bind first ?_ ?_
  · rintro _ m' ⟨g', entered', same, forest, cwd, merged, known⟩
    cases same
    exact (onward m' g' entered' cwd forest merged known).mono fun r m'' ends =>
      (ends.after merged cwd present).widen known
  · rintro e m' ⟨_, _, bad, _⟩
    cases bad

/-! ## What the hook finds -/

/-- What the hook finds while a forest is merged into the folder `g` of the tree `t`: a folder that
has come of it, from which the merge can be taken up again. -/
def Underway (c : Copying) (F : Forest) (t : Tree) (current : String) (g : Folder) (between : Bool)
    (m : Machine) : Prop :=
  ∃ g', m.current = current ∧ Merges t m.tree g g' ∧ c.Resumes F between g.forest g'.forest

namespace Underway

variable {c : Copying} {F G : Forest} {t : Tree} {current : String} {between : Bool}

theorem start (regular : m.tree.Regular) (target : Machine.Filling m.tree m.current g) :
    Underway c F m.tree m.current g false m :=
  ⟨g, rfl, .refl regular target, .start⟩

/-- The first of two forests is merged. -/
theorem append (h : Underway c F t current g between m) :
    Underway c (F.append G) t current g between m := by
  obtain ⟨g', cwd, merged, resumes⟩ := h
  exact ⟨g', cwd, merged, resumes.append⟩

/-- The second one is merged after the first. -/
theorem after {g' : Folder} (merged : Merges t m.tree g g') (cwd : m.current = current)
    (forest : g'.forest = c.fill F g.forest) (h : Underway c G m.tree m.current g' between m') :
    Underway c (F.append G) t current g between m' := by
  obtain ⟨g'', cwd', merged', resumes⟩ := h
  rw [forest] at resumes
  exact ⟨g'', cwd'.trans cwd, merged.trans merged', resumes.after⟩

end Underway

/-! ## Entries that hold no others -/

/-- How the copy of an entry ends that is noted for the path `dest`. -/
def Notes (t : Tree) (current : String) (g : Folder) (report : CloneReport) (dest : String)
    (s : Copying.State) (r : Except Fault StepResult) (m' : Machine) : Prop :=
  ∃ g' result, r = .ok result ∧ (g'.forest, report.record result dest) = s ∧
    m'.current = current ∧ Merges t m'.tree g g'

theorem performs_record {found : Bool → Machine → Prop} {p : Program StepResult} {dest : String}
    {t : Tree} {current : String} (h : p.Performs found (Notes t current g report dest s) m) :
    (p.bind fun result => pure (report.record result dest, entered)).Performs found
      (Ends t current g [] entered s) m := by
  refine Performs.bind h ?_ ?_
  · rintro _ m' ⟨g', result, same, rfl, cwd, merged⟩
    cases same
    exact ⟨⟨g', entered, rfl, rfl, cwd, merged, fun _ => .inl⟩, rfl⟩
  · rintro e m' ⟨_, _, bad, _⟩
    cases bad

section

variable {a : Attributes} {source : String} (regular : m.tree.Regular)
  (target : Machine.Filling m.tree m.current g) (own : Path.IsName name)
include regular target own

/-- A file of which a part is copied is one that the merge has begun. -/
theorem Underway.of_hasPart {content : List UInt8} (free : name ∉ g.forest.names)
    (part : HasPart m.tree m.current g.place name content m') :
    Underway w.copying (.leaf name a (.file content) .nil) m.tree m.current g true m' := by
  obtain ⟨n, piece, placed, body, sub, bits⟩ := part
  have small : n.mode < 0o10000 := by
    rw [← bits]
    exact Nat.lt_of_le_of_lt Nat.and_le_right (by decide)
  have merged := Merges.of_leaf (a := ⟨n.mode, none, none⟩) (b := .file piece) regular target own
    (target.child?_eq_none_iff.mpr free) small (by simp) (fun _ kept => kept)
    ⟨n, placed, body, rfl, fun _ bad => (by cases bad), fun _ bad => (by cases bad)⟩
  exact ⟨_, placed.current, merged, .file free sub bits⟩

theorem performs_copyFile_merges {above : List Nat} {content : List UInt8}
    (opens : m.tree.resolve m.current true source = .ok ⟨i, above⟩) (here : m.tree.node? i = some n)
    (body : n.body = .file content) (positive : 1 ≤ w.cloner.chunkSize)
    (enough : content.length < w.cloner.limits.pieces) (bits : n.mode = a.mode) :
    (copyFile w.cloner source (Path.join g.path name) (withoutSetId n.mode)).Performs
      (Underway w.copying (.leaf name a (.file content) .nil) m.tree m.current g)
      (Notes m.tree m.current g report (Path.join g.path name)
        (w.copying.mergeLeaf source (Path.join g.path name) name a (.file content)
          (g.forest, report))) m := by
  by_cases taken : name ∈ g.forest.names
  · refine (performs_copyFile_taken opens here body target.full own target.leads w.cloner _
      (target.child?_isSome taken)).mono ?_
    rintro _ m' ⟨rfl, tree, cwd⟩
    refine ⟨g, _, rfl, ?_, cwd, ?_⟩
    · simp only [Copying.mergeLeaf, if_pos taken]
      rfl
    · rw [tree]
      exact .refl regular target
  · have free := target.child?_eq_none_iff.mpr taken
    refine (performs_copyFile opens here body target.full own target.leads
      (fun m' => .of_hasPart regular target own taken) w.cloner positive enough
      (withoutSetId_lt n.mode) free).mono ?_
    rintro _ m' ⟨rfl, copy⟩
    have merged := Merges.of_leaf (b := .file content) regular target own free
      (withoutSetId_lt n.mode) (by simp) (fun _ kept => kept) copy
    obtain ⟨_, placed, _⟩ := copy
    refine ⟨_, _, rfl, ?_, placed.current, merged⟩
    simp only [Copying.mergeLeaf, if_neg taken, ← bits]
    rfl

theorem does_copySymlink_merges {target' : String} :
    (copySymlink w.cloner w.sourceTop source w.destTop (Path.join g.path name)
      (some target')).Does
      (Notes m.tree m.current g report (Path.join g.path name)
        (w.copying.mergeLeaf source (Path.join g.path name) name a (.link target')
          (g.forest, report))) m := by
  change (placeLink w.cloner (Path.remap target' w.sourceTop w.destTop) _).Does _ m
  by_cases taken : name ∈ g.forest.names
  · refine (does_placeLink_taken target.full own target.leads w.cloner _
      (target.child?_isSome taken)).mono ?_
    rintro _ m' ⟨rfl, rfl⟩
    refine ⟨g, _, rfl, ?_, rfl, .refl regular target⟩
    simp only [Copying.mergeLeaf, if_pos taken]
    rfl
  · have free := target.child?_eq_none_iff.mpr taken
    refine (does_placeLink target.full own target.leads w.cloner _ free).mono ?_
    rintro _ m' ⟨rfl, copy⟩
    have merged := Merges.of_leaf
      (b := .link (Path.remap target' w.sourceTop w.destTop)) regular target own free
      (by change 0o777 < 0o10000; decide) (by simp) (fun _ kept => kept) copy
    obtain ⟨_, placed, _⟩ := copy
    refine ⟨_, _, rfl, ?_, placed.current, merged⟩
    simp only [Copying.mergeLeaf, if_neg taken]
    rfl

end

/-- One entry that holds no others. -/
theorem performs_cloneEntry_leaf (ready : Ready w home m.tree m.current f g entered)
    (found : m.tree.child? f.place.node name = some i) (here : m.tree.node? i = some n)
    {a : Attributes} (attributes : a.Fits n) {body : Leaf} (fits : body.Fits (some home) i n)
    (positive : 1 ≤ w.cloner.chunkSize)
    (enough : ∀ content, body = .file content → content.length < w.cloner.limits.pieces)
    (descend : String → String → List Identity → Program WalkState) :
    (cloneEntry w descend name (Path.join f.path name) (Path.join g.path name)
      (report, entered)).Performs
      (Underway w.copying (.leaf name a body .nil) m.tree m.current g)
      (Ends m.tree m.current g [] entered
        (w.copying.mergeLeaf (Path.join f.path name) (Path.join g.path name) name a body
          (g.forest, report))) m := by
  obtain ⟨regular, origin, target, _⟩ := ready
  have own := regular.isName found
  refine performs_attempt (.of_does (does_describeEntry origin.full own origin.leads found here
    (regular.mode i n here)) (quiet_lookParts.describeEntry _ _)) fun m' h => ?_
  obtain ⟨rfl, short⟩ := h
  cases body with
  | file content =>
    have kept : n.body = .file content := fits
    have noLink : (m'.tree.node? i).bind Node.target? = none := by simp [here, Node.target?, kept]
    have opens := Tree.resolve_join origin.full own short.1 short.2 origin.leads found
      (.inl noLink : _ ∨ true = false)
    have type : n.entryType = .regularFile := by simp [Node.entryType, kept]
    simp only [Node.entry, type]
    exact performs_record (performs_copyFile_merges regular target own opens here kept positive
      (enough content rfl) attributes.1)
  | link text =>
    have kept : n.body = .link text := fits
    have type : n.entryType = .symlink := by simp [Node.entryType, kept]
    have link : n.target? = some text := by simp [Node.target?, kept]
    simp only [Node.entry, type, link]
    exact performs_record (.of_does (does_copySymlink_merges regular target own)
      (quiet_lookParts.copySymlink _ _ _ _ _ _))
  | pipe =>
    have kept : n.body = .pipe := fits
    have type : n.entryType = .other := by simp [Node.entryType, kept]
    simp only [Node.entry, type]
    exact performs_bind (q := fun m'' => m'' = m') (performs_log ⟨rfl, rfl⟩) fun m'' same =>
      ⟨same ▸ Ends.same regular target [] rfl rfl, rfl⟩
  | hole =>
    obtain ⟨same, dir⟩ := fits
    cases same
    have type := Node.entryType_eq_directory_iff.mpr dir
    obtain ⟨n', here', known⟩ := origin.root
    rw [here] at here'
    cases here'
    simp only [Node.entry, type, cloneSubdirectory, known, decide_true, Bool.or_true, if_true]
    exact performs_bind (q := fun m'' => m'' = m') (performs_log ⟨rfl, rfl⟩) fun m'' same =>
      ⟨same ▸ Ends.same regular target [] rfl rfl, rfl⟩

/-! ## Directories -/

section

variable {a : Attributes} {inner : Forest} (regular : m.tree.Regular)
  (target : Machine.Filling m.tree m.current g) (own : Path.IsName name)
include regular target own

/-- A directory that can be entered is free to be made, or is there. -/
theorem does_isPlanted_merges
    (found : (w.copying.withDirectory name a g.forest).inner? name = some inner) :
    (isPlantedNonDirectory (Path.join g.path name)).Does
      (fun r m' => r = .ok false ∧ m' = m ∧ ShortBelow g.path name) m := by
  by_cases taken : name ∈ g.forest.names
  · have there : g.forest.inner? name = some inner := by
      rw [Copying.withDirectory, if_pos taken] at found
      exact found
    obtain ⟨j, own', lower, _, _, named, listed, _⟩ := target.content.focus there
    obtain ⟨n, here, dir⟩ := Option.bind_eq_some_iff.mp listed
    have looked := does_isPlanted target.full own target.leads (target.child?_eq.trans named) here
      (regular.mode j n here)
    have dir' : n.isDirectory = true := by
      unfold Node.isDirectory
      rw [dir]
      rfl
    rw [dir'] at looked
    exact looked
  · exact does_isPlanted_none target.full own target.leads (target.child?_eq_none_iff.mpr taken)

theorem does_ensureDirectory_merges (short : ShortBelow g.path name)
    (found : (w.copying.withDirectory name a g.forest).inner? name = some inner) :
    (ensureDirectory (Path.join g.path name) w.cloner.uid w.cloner.gid (withoutSetId a.mode)).Does
      (fun r m' => r = .ok (.ok (some (Path.join g.path name))) ∧
        m'.current = m.current ∧ ∃ g', g'.forest = w.copying.withDirectory name a g.forest ∧
          Merges m.tree m'.tree g g') m := by
  by_cases taken : name ∈ g.forest.names
  · have same : w.copying.withDirectory name a g.forest = g.forest := if_pos taken
    rw [same] at found ⊢
    obtain ⟨j, entries, lower, child, inside, _⟩ := target.enter own short found
    obtain ⟨leads, dir⟩ := Tree.directoryAt_eq_ok_iff.mp inside.leads
    obtain ⟨n, here, _⟩ := Tree.isDirectory_iff.mp dir
    refine (does_ensureDirectory_existing leads here _ _ _).mono ?_
    rintro r m' ⟨done, rfl⟩
    exact ⟨done, rfl, g, rfl, .refl regular target⟩
  · have free := target.child?_eq_none_iff.mpr taken
    have v : Vacancy m.tree m.current g.path name g.place :=
      ⟨target.full, own, short, target.leads, free⟩
    refine (does_ensureDirectory v _ _ (withoutSetId_and a.mode)).mono ?_
    rintro r m' ⟨done, copy⟩
    have merged := Merges.of_directory regular target own free (withoutSetId_lt a.mode) copy
    obtain ⟨_, placed, _⟩ := copy
    refine ⟨done, placed.current, _, ?_, merged⟩
    rw [Copying.withDirectory, if_neg taken]
    rfl

/-- What has a name that is taken by something else is planted. -/
theorem does_isPlanted_other
    (none : (w.copying.withDirectory name a g.forest).inner? name = none) :
    (isPlantedNonDirectory (Path.join g.path name)).Does
      (fun r m' => r = .ok true ∧ m' = m) m := by
  have taken : name ∈ g.forest.names := by
    by_contra out
    rw [Copying.withDirectory, if_neg out, Forest.inner?_append_new out] at none
    cases none
  rw [Copying.withDirectory, if_pos taken] at none
  obtain ⟨j, child⟩ := Option.isSome_iff_exists.mp (target.child?_isSome taken)
  obtain ⟨n, here, leaf⟩ := target.content.inner?_eq_none none (target.child?_eq.symm.trans child)
  have looked := does_isPlanted target.full own target.leads child here (regular.mode j n here)
  rw [leaf] at looked
  exact looked.mono fun r m' h => ⟨h.1, h.2.1⟩

end

/-- Whether a way to copy directories copies those that show a forest. -/
def Enters (w : Walk) (home : Nat) (descend : String → String → List Identity → Program WalkState)
    (F : Forest) : Prop :=
  ∀ (m : Machine) (f g : Folder) (entered : List Identity), f.forest = F →
    Ready w home m.tree m.current f g entered → m.tree.entries? f.place.node = some f.entries →
    m.tree.identity? f.place.node ∉ f.inside.map m.tree.identity? →
    (descend f.path g.path entered).Performs (Underway w.copying F m.tree m.current g)
      (Ends m.tree m.current g (f.place.node :: f.inside) entered
        (w.copying.merge f.path g.path F (g.forest, { outcome := .ok (some f.path) }))) m

/-- What the hook finds while a forest is merged into the directory that a folder holds. -/
def UnderwayIn (c : Copying) (F : Forest) (t : Tree) (current : String) (g : Folder) (name : String)
    (there : Forest) (between : Bool) (m : Machine) : Prop :=
  ∃ g' P, m.current = current ∧ Merges t m.tree g g' ∧ g'.forest = g.forest.setInner name P ∧
    c.Resumes F between there P

/-- The directory was made if it was not there. -/
theorem UnderwayIn.underway {c : Copying} {F there : Forest} {a : Attributes} {t : Tree}
    {current : String} {g' : Folder} {between : Bool}
    (h : UnderwayIn c F m.tree m.current g' name there between m')
    (merged : Merges t m.tree g g') (cwd : m.current = current)
    (made : g'.forest = c.withDirectory name a g.forest) (opens : g'.forest.inner? name = some there) :
    Underway c (.directory name a F .nil) t current g between m' := by
  obtain ⟨g'', P, cwd', merged', forest, resumes⟩ := h
  refine ⟨g'', cwd'.trans cwd, merged.trans merged', ?_⟩
  rw [forest, made]
  exact resumes.inside (made ▸ opens)

/-- A directory is entered on both sides. -/
theorem performs_descend (ready : Ready w home m.tree m.current f g entered)
    (found : m.tree.child? f.place.node name = some i) {entries : List (String × Nat)}
    (listed : m.tree.entries? i = some entries) {inner there : Forest} {lower : List Nat}
    (below : Shows m.tree (some home) entries inner lower) (once : inner.Distinct)
    (part : (i :: lower).Sublist f.inside) (short : ShortBelow f.path name)
    (short' : ShortBelow g.path name) (opens : g.forest.inner? name = some there)
    {descend : String → String → List Identity → Program WalkState}
    (enters : Enters w home descend inner) :
    let s := w.copying.merge (Path.join f.path name) (Path.join g.path name) inner
      (there, { outcome := .ok (some (Path.join f.path name)) })
    (descend (Path.join f.path name) (Path.join g.path name) entered).Performs
      (UnderwayIn w.copying inner m.tree m.current g name there)
      (Ends m.tree m.current g (i :: lower) entered (g.forest.setInner name s.1, s.2)) m := by
  have own := ready.regular.isName found
  obtain ⟨j, entries', lower', _, target, sub, change⟩ := ready.target.enter own short' opens
  have origin := ready.origin.enter own short found listed below once
    ((List.sublist_cons_self i lower).trans part)
  have apart : ∀ k ∈ lower, k ∉ j :: lower' := fun k mem both =>
    ready.apart k (part.subset (List.mem_cons_of_mem _ mem)) (List.mem_cons_of_mem _ (sub both))
  have told : m.tree.identity? i ∉ lower.map m.tree.identity? :=
    (List.nodup_cons.mp (ready.origin.told.sublist (part.map _))).1
  refine ((enters m (f.below entries inner lower name i) (g.below entries' there lower' name j)
    entered rfl ⟨ready.regular, origin, target, apart⟩ listed told).mono ?_).finding ?_
  · rintro r m' ⟨g₁, entered', done, forest, cwd, merged, known⟩
    obtain ⟨g', merged', forest'⟩ := change m'.tree g₁ merged
    refine ⟨g', entered', done, ?_, cwd, merged', known⟩
    rw [forest', forest]
    rfl
  · rintro between m' ⟨g₁, cwd, merged, resumes⟩
    obtain ⟨g', merged', forest'⟩ := change m'.tree g₁ merged
    exact ⟨g', g₁.forest, cwd, merged', forest', resumes⟩

/-- One directory, which is left out, made, or entered. -/
theorem performs_cloneEntry_directory (ready : Ready w home m.tree m.current f g entered)
    (found : m.tree.child? f.place.node name = some i) (here : m.tree.node? i = some n)
    {a : Attributes} (attributes : a.Fits n) {entries : List (String × Nat)}
    (listed : n.entries? = some entries) {inner : Forest} {lower : List Nat}
    (below : Shows m.tree (some home) entries inner lower) (once : inner.Distinct)
    (part : (i :: lower).Sublist f.inside)
    {descend : String → String → List Identity → Program WalkState}
    (enters : Enters w home descend inner) :
    (cloneEntry w descend name (Path.join f.path name) (Path.join g.path name)
      (report, entered)).Performs
      (Underway w.copying (.directory name a inner .nil) m.tree m.current g)
      (Ends m.tree m.current g (i :: lower) entered
        (w.copying.merge f.path g.path (.directory name a inner .nil) (g.forest, report))) m := by
  have own := ready.regular.isName found
  have mem : i ∈ f.inside := part.subset List.mem_cons_self
  have told := Tree.identity?_of_node? here
  have listing : m.tree.entries? i = some entries := (Tree.entries?_of_node? here).trans listed
  have type : n.entryType = .directory :=
    Node.entryType_eq_directory_iff.mpr (by simp [Node.isDirectory, listed])
  -- neither of the two tests that leave out a directory applies to one of a finite source
  have unknown : entered.contains n.status.identity = false := by
    rw [← Bool.not_eq_true, List.contains_iff_mem]
    exact fun old => ready.origin.fresh i mem _ old told
  have other : w.destRoot ≠ some n.status.identity := fun same =>
    ready.origin.other i mem (told.trans same.symm)
  refine performs_attempt (.of_does (does_describeEntry ready.origin.full own ready.origin.leads
    found here (ready.regular.mode i n here)) (quiet_lookParts.describeEntry _ _)) fun m' h => ?_
  obtain ⟨rfl, short⟩ := h
  simp only [Node.entry, type, cloneSubdirectory, unknown, other, decide_false, Bool.or_self]
  cases opens : (w.copying.withDirectory name a g.forest).inner? name with
  | none =>
    rw [Copying.merge_directory_none opens]
    refine performs_bind (.of_does (does_isPlanted_other ready.regular ready.target own opens)
      (quiet_lookParts.isPlantedNonDirectory _)) fun m'' same => ?_
    subst same
    exact ⟨Ends.same ready.regular ready.target _ rfl rfl, rfl⟩
  | some there =>
    rw [Copying.merge_directory opens]
    refine performs_bind (.of_does (does_isPlanted_merges ready.regular ready.target own opens)
      (quiet_lookParts.isPlantedNonDirectory _)) fun m'' h => ?_
    obtain ⟨rfl, short'⟩ := h
    rw [attributes.1]
    refine performs_bind (.of_does
      (does_ensureDirectory_merges ready.regular ready.target own short' opens)
      (quiet_ensureDirectory _ _ _ _)) fun m₁ h => ?_
    obtain ⟨cwd, g₁, made, merged⟩ := h
    -- what was made is in the destination, so the source shows what it showed
    have ready₁ : Ready w home m₁.tree m₁.current f g₁ entered := by
      rw [cwd]
      exact ready.next merged (List.Subset.refl _) ready.origin.shown ready.origin.once
        (List.Sublist.refl _) ready.origin.fresh
    have outside : ∀ k ∈ i :: lower, k ∉ g.place.node :: g.inside := fun k mem =>
      ready.apart k (part.subset mem)
    have listing₁ : m₁.tree.entries? i = some entries := by
      have here₁ := merged.grows.same i n (outside i List.mem_cons_self) here
      exact (Tree.entries?_of_node? here₁).trans listed
    have below₁ := below.transport merged.grows fun k mem => outside k (List.mem_cons_of_mem _ mem)
    -- the test for planted links was made for the old folder, which has the same path
    have descends := (performs_descend ready₁ (merged.grows.grows.child? found) listing₁ below₁ once
      part short (merged.path ▸ short') (made ▸ opens) enters).finding fun between m₂ inside =>
        inside.underway merged cwd made (made ▸ opens)
    rw [merged.path, made] at descends
    have present : ∀ k ∈ i :: lower, m''.tree.isDirectory k = true := fun k mem =>
      ready.origin.shown.isDirectory k (part.subset mem)
    refine Performs.bind (descends.mono fun r m₂ ends => Ends.after merged cwd present ends) ?_ ?_
    · rintro _ m₂ ⟨g₂, entered₂, same, rest⟩
      cases same
      exact ⟨⟨g₂, entered₂, rfl, rest⟩, rfl⟩
    · rintro e m₂ ⟨_, _, bad, _⟩
      cases bad

/-! ## Walks -/

/-- Whether a walk over the names of a forest merges it. -/
def Lists (w : Walk) (home : Nat) (descend : String → String → List Identity → Program WalkState)
    (F : Forest) : Prop :=
  ∀ (m : Machine) (f g : Folder) (entered : List Identity) (report : CloneReport), f.forest = F →
    Ready w home m.tree m.current f g entered →
    (cloneNames w descend f.path g.path F.names (report, entered)).Performs
      (Underway w.copying F m.tree m.current g)
      (Ends m.tree m.current g f.inside entered
        (w.copying.merge f.path g.path F (g.forest, report))) m

variable {descend : String → String → List Identity → Program WalkState} {rest : Forest}
  {more : List (String × Nat)} {above inside : List Nat}

/-- After the first entry the walk goes on with the rest. -/
theorem performs_rest (ready : Ready w home m.tree m.current f g entered)
    (split : f.inside = above ++ inside) (sub : more ⊆ f.entries)
    (onward : Shows m.tree (some home) more rest inside) (once : rest.Distinct)
    {p : Program WalkState} {F : Forest} (whole : s.1 = w.copying.fill F g.forest)
    (first : p.Performs (Underway w.copying F m.tree m.current g)
      (Ends m.tree m.current g above entered s) m)
    (lists : Lists w home descend rest) :
    (p.bind (cloneNames w descend f.path g.path rest.names)).Performs
      (Underway w.copying (F.append rest) m.tree m.current g)
      (Ends m.tree m.current g (above ++ inside) entered
        (w.copying.merge f.path g.path rest s)) m := by
  have part : inside.Sublist f.inside := by
    rw [split]
    exact List.sublist_append_right above inside
  refine Ends.bind (first.finding fun _ _ => .append) onward.isDirectory
    fun m' g' entered' cwd forest merged known => ?_
  -- the walk over the first entry has entered only what is in it, and identities tell directories
  -- apart
  have fresh : ∀ i ∈ inside, ∀ x ∈ entered', m.tree.identity? i ≠ some x := by
    intro i mem x old told
    rcases known x old with old | ⟨k, mem', told'⟩
    · exact ready.origin.fresh i (part.subset mem) x old told
    · have distinct := ready.origin.told
      rw [split, List.map_append] at distinct
      refine (List.nodup_append.mp distinct).2.2 _ (List.mem_map_of_mem mem') _
        (List.mem_map_of_mem mem) (told'.trans told.symm)
  have next : Ready w home m'.tree m'.current (f.holding more rest inside) g' entered' := by
    rw [cwd]
    exact ready.next merged sub onward once part fresh
  have ends := lists m' _ g' entered' s.2 rfl next
  rw [merged.path, forest] at ends
  exact ends.finding fun _ _ => .after merged cwd (forest.trans whole)

/-- The hook gets control before an entry, which does not matter. -/
theorem performs_cloneNames_cons {found : Bool → Machine → Prop} {source dest : String}
    {names : List String} {state : WalkState} {post : Except Fault WalkState → Machine → Prop}
    (own : Path.IsName name) (finds : found false m)
    (onward : ∀ m', SameFiles m m' →
      ((cloneEntry w descend name (Path.join source name) (Path.join dest name) state).bind
        (cloneNames w descend source dest names)).Performs found post m') :
    (cloneNames w descend source dest (name :: names) state).Performs found post m := by
  rw [cloneNames]
  refine performs_bind (q := SameFiles m) (performs_pause finds fun m' same => ⟨rfl, same⟩)
    fun m' same => ?_
  simp only [own.ne_dot, own.ne_dots, decide_false, Bool.or_self]
  exact onward m' same

/-- A directory that lists itself and its parent is walked as one that does not. -/
theorem performs_cloneNames_listed {found : Bool → Machine → Prop} {source dest : String}
    {entries : List (String × Nat)} (dots : Bool) {state : WalkState}
    {post : Except Fault WalkState → Machine → Prop}
    (finds : ∀ m', SameFiles m m' → found false m')
    (onward : ∀ m', SameFiles m m' →
      (cloneNames w descend source dest (entries.map Prod.fst) state).Performs found post m') :
    (cloneNames w descend source dest (listedNames entries dots) state).Performs found post m := by
  cases dots with
  | false => exact onward m (.refl m)
  | true =>
    change (cloneNames w descend source dest
      ("." :: ".." :: entries.map Prod.fst) state).Performs found post m
    rw [cloneNames]
    refine performs_bind (q := SameFiles m)
      (performs_pause (finds m (.refl m)) fun m' same => ⟨rfl, same⟩) fun m' same => ?_
    rw [if_pos (by simp), cloneNames]
    refine performs_bind (q := SameFiles m)
      (performs_pause (finds m' same) fun m'' same' => ⟨rfl, same.trans same'⟩) fun m'' same' => ?_
    rw [if_pos (by simp)]
    exact onward m'' same'

theorem performs_cloneDirectory {F : Forest} {depth : Nat}
    (lists : Lists w home (cloneDirectory w depth) F) :
    Enters w home (cloneDirectory w (depth + 1)) F := by
  rintro m f g entered rfl ready listed told
  obtain ⟨leads, dir⟩ := Tree.directoryAt_eq_ok_iff.mp ready.origin.leads
  obtain ⟨n, here, entries⟩ := Option.bind_eq_some_iff.mp listed
  obtain ⟨dots, body⟩ : ∃ dots, n.body = .directory f.entries dots := by
    unfold Node.entries? at entries
    cases body : n.body <;> simp_all
  have known := Tree.identity?_of_node? here
  refine performs_attempt (a := (n.status, listedNames f.entries dots)) (q := fun m' => m' = m)
    (.of_does
      (Meets.surely (q := fun m' => m' = m) (does_stat leads here ⟨rfl, rfl⟩) fun m' same => ?_)
      ((quiet_lookParts.stat _).bind fun _ =>
        (quiet_call rfl (fun _ => rfl) .ofExcept : (list _).Quiet).bind fun _ => .done _))
    fun m' same => ?_
  · subst same
    exact Meets.surely (q := fun m'' => m'' = m') (does_list leads here body ⟨rfl, rfl⟩)
      fun m'' same => ⟨rfl, same⟩
  · subst same
    have start : ∀ m'', SameFiles m' m'' →
        Underway w.copying f.forest m'.tree m'.current g false m'' := by
      intro m'' same
      have begun := Underway.start (m := m'') (c := w.copying) (F := f.forest) (g := g)
      rw [same.tree, same.current] at begun
      exact begun ready.regular ready.target
    refine performs_cloneNames_listed dots start fun m'' same => ?_
    rw [ready.origin.shown.names]
    -- the directory itself counts as entered now; nothing below it has its identity
    have fresh : ∀ i ∈ f.inside, ∀ x ∈ n.status.identity :: entered,
        m'.tree.identity? i ≠ some x := by
      intro i mem x old same
      rcases List.mem_cons.mp old with rfl | old
      · exact told (List.mem_map.mpr ⟨i, mem, same.trans known.symm⟩)
      · exact ready.origin.fresh i mem x old same
    have ready' : Ready w home m'.tree m'.current f g (n.status.identity :: entered) :=
      ⟨ready.regular, { ready.origin with fresh }, ready.target, ready.apart⟩
    rw [← same.tree, ← same.current] at ready' ⊢
    have told' : ∀ x ∈ n.status.identity :: entered, x ∈ entered ∨
        ∃ i ∈ [f.place.node], m''.tree.identity? i = some x := by
      intro x mem
      rcases List.mem_cons.mp mem with rfl | old
      · rw [same.tree]
        exact .inr ⟨_, List.mem_singleton_self _, known⟩
      · exact .inl old
    exact (lists m'' f g _ _ rfl ready').mono fun r m₁ ends => Ends.widen told' ends

/-- The walk over a forest, entry by entry and directory by directory. -/
theorem performs_cloneNames (positive : 1 ≤ w.cloner.chunkSize) {F : Forest} {depth : Nat}
    (deep : F.depth ≤ depth) (enough : F.longest < w.cloner.limits.pieces) :
    Lists w home (cloneDirectory w depth) F := by
  induction F generalizing depth with
  | nil =>
    rintro m ⟨source, a, entries, _, inside⟩ g entered report rfl ready
    exact ⟨Ends.same ready.regular ready.target inside rfl rfl, rfl⟩
  | leaf name a body rest ih =>
    rintro m ⟨source, place, entries, _, inside⟩ g entered report rfl ready
    obtain ⟨out, once⟩ := ready.origin.once
    have shown := ready.origin.shown
    cases shown with
    | leaf here attributes fits onward =>
      have found := ready.origin.named _ List.mem_cons_self
      refine performs_cloneNames_cons (ready.regular.isName found)
        (.start ready.regular ready.target) fun m' same => ?_
      -- the hook has come before the entry and left the files alone
      rw [← same.tree, ← same.current] at ready ⊢
      rw [← same.tree] at here onward found
      refine performs_rest (F := .leaf name a body .nil) ready (show _ = [] ++ _ from rfl)
        (List.subset_cons_self _ _) onward once (w.copying.mergeLeaf_fst _ _ report)
        (performs_cloneEntry_leaf ready found here attributes fits positive ?_ _) (ih deep ?_)
      · rintro content rfl
        exact Nat.lt_of_le_of_lt (Nat.le_max_left _ rest.longest) enough
      · exact Nat.lt_of_le_of_lt (Forest.longest_le_leaf name a body rest) enough
  | directory name a inner rest ih ih' =>
    rintro m ⟨source, place, entries, _, inside⟩ g entered report rfl ready
    obtain ⟨out, once, once'⟩ := ready.origin.once
    have shown := ready.origin.shown
    cases shown with
    | @directory _ i _ _ _ more _ _ lower inside here attributes listed below onward =>
      have found := ready.origin.named _ List.mem_cons_self
      refine performs_cloneNames_cons (ready.regular.isName found)
        (.start ready.regular ready.target) fun m' same => ?_
      rw [← same.tree, ← same.current] at ready ⊢
      rw [← same.tree] at here below onward found
      have deep' := Nat.max_le.mp deep
      have enough' := Nat.max_lt.mp enough
      -- there is a level left for a forest that has a directory
      obtain ⟨depth, rfl⟩ := Nat.exists_eq_succ_of_ne_zero (Nat.ne_zero_of_lt deep'.1)
      have enters : Enters w home (cloneDirectory w (depth + 1)) inner :=
        performs_cloneDirectory (ih (Nat.le_of_lt_succ deep'.1) enough'.1)
      exact performs_rest (F := .directory name a inner .nil) ready
        (show _ = i :: lower ++ inside from rfl) (List.subset_cons_self _ _) onward once'
        (w.copying.merge_fst source g.path (.directory name a inner .nil) (g.forest, report))
        (performs_cloneEntry_directory ready found here attributes listed below once
          (List.sublist_append_left (i :: lower) inside) enters)
        (ih' deep'.2 enough'.2)

/-! ## Clones -/

/-- What a copy of one folder into another comes to. -/
def mergedFolders (uid gid : Int) (f g : Folder) : Copying.State :=
  ({ uid, gid, sourceTop := f.path, destTop := g.path } : Copying).merge f.path g.path f.forest
    (g.forest, { outcome := .ok (some f.path) })

/-- The walk from one folder to another one with a known identity. -/
def walkBetween (c : Cloner) (f g : Folder) (root : Identity) : Walk where
  cloner := c
  sourceTop := f.path
  destTop := g.path
  destRoot := some root

/-- The copying from one folder to another one for an owner. -/
def copyingBetween (uid gid : Int) (f g : Folder) : Copying where
  uid := uid
  gid := gid
  sourceTop := f.path
  destTop := g.path

theorem mergedFolders_fst (uid gid : Int) (f g : Folder) :
    (mergedFolders uid gid f g).1 = (copyingBetween uid gid f g).fill f.forest g.forest :=
  Copying.merge_fst _ _ _ _ _

/-- The copying depends on the path of a folder only. -/
theorem copyingBetween_eq {uid gid : Int} {g' : Folder} (path : g'.path = g.path) :
    copyingBetween uid gid f g' = copyingBetween uid gid f g := by
  rw [copyingBetween, path, copyingBetween]

/-- Whether a machine is ready for the clone of one folder into another. -/
structure Starts (c : Cloner) (f g : Folder) (m : Machine) : Prop where
  ready : ∃ n, m.tree.node? g.place.node = some n ∧
    Ready (walkBetween c f g n.status.identity) g.place.node m.tree m.current f g []
  listed : m.tree.entries? f.place.node = some f.entries
  own : m.tree.identity? f.place.node ∉ f.inside.map m.tree.identity?
  first : f.place.node ∉ g.place.node :: g.inside

namespace Starts

theorem of_on (c : Cloner) (regular : m.tree.Regular) (plain : m.tree.Unaliased)
    (origin : f.On (some g.place.node) m) (target : g.On none m)
    (first : f.place.node ∉ g.place.node :: g.inside) (out : g.place.node ∉ f.inside) :
    Starts c f g m := by
  obtain ⟨_, dir⟩ := Tree.directoryAt_eq_ok_iff.mp target.leads
  obtain ⟨n, here, _⟩ := Tree.isDirectory_iff.mp dir
  obtain ⟨ready, own⟩ : Ready (walkBetween c f g n.status.identity) _ m.tree m.current f g [] ∧ _ :=
    Ready.start regular plain origin target first out here rfl
  exact ⟨⟨n, here, ready⟩, origin.listed, own, first⟩

/-- A machine is still ready when something has come of the destination. -/
theorem after {c : Cloner} {g' : Folder} (h : Starts c f g m) (merged : Merges m.tree m'.tree g g')
    (cwd : m'.current = m.current) : Starts c f g' m' := by
  obtain ⟨n, here, ready⟩ := h.ready
  obtain ⟨n', here', _, _, _, told, _⟩ := merged.grows.node? here
  have dir := Tree.isDirectory_of_entries? h.listed
  have same : ∀ i ∈ f.inside, m'.tree.identity? i = m.tree.identity? i := fun i mem =>
    merged.grows.identity?_of_isDirectory (ready.origin.shown.isDirectory i mem)
  refine ⟨⟨n', merged.place ▸ here', ?_⟩, ?_, ?_, ?_⟩
  · rw [told, merged.place, cwd]
    have again : Ready (walkBetween c f g n.status.identity) g.place.node m'.tree m.current f g' [] :=
      ready.next merged (List.Subset.refl _) ready.origin.shown ready.origin.once
        (List.Sublist.refl _) ready.origin.fresh
    unfold walkBetween at again ⊢
    rw [merged.path]
    exact again
  · obtain ⟨own, there, listed⟩ := Option.bind_eq_some_iff.mp h.listed
    exact (Tree.entries?_of_node? (merged.grows.same _ own h.first there)).trans listed
  · rw [merged.grows.identity?_of_isDirectory dir, List.map_congr_left same]
    exact h.own
  · rw [merged.place]
    intro mem
    rcases List.mem_cons.mp mem with bad | mem
    · exact h.first (bad ▸ List.mem_cons_self)
    · rcases merged.new _ mem with old | none
      · exact h.first (List.mem_cons_of_mem _ old)
      · exact Tree.node?_ne_none_of_isDirectory dir none

end Starts

/-- A clone merges, and wherever the hook gets control the merge can be taken up again. -/
theorem performs_clone {c : Cloner} (positive : 1 ≤ c.chunkSize) (starts : Starts c f g m)
    (deep : f.forest.depth < c.limits.depth) (enough : f.forest.longest < c.limits.pieces) :
    (clone c f.path g.path).Performs
      (Underway (copyingBetween c.uid c.gid f g) f.forest m.tree m.current g)
      (fun r m' => r = .ok (mergedFolders c.uid c.gid f g).2 ∧
        ∃ g', g'.forest = (mergedFolders c.uid c.gid f g).1 ∧ m'.current = m.current ∧
          Merges m.tree m'.tree g g') m := by
  obtain ⟨n, here, ready⟩ := starts.ready
  obtain ⟨leads, _⟩ := Tree.directoryAt_eq_ok_iff.mp ready.target.leads
  obtain ⟨depth, limit⟩ := Nat.exists_eq_succ_of_ne_zero (Nat.ne_zero_of_lt deep)
  refine performs_attempt (q := fun m' => m' = m) (.of_does (does_stat leads here ⟨rfl, rfl⟩)
    (quiet_lookParts.stat _)) fun m' same => ?_
  subst same
  refine Performs.bind (p := cloneDirectory (walkBetween c f g n.status.identity) c.limits.depth
    f.path g.path []) (q := Ends m'.tree m'.current g (f.place.node :: f.inside) []
    (mergedFolders c.uid c.gid f g)) ?_ ?_ ?_
  · rw [limit]
    exact performs_cloneDirectory
      (performs_cloneNames positive (Nat.le_of_lt_succ (limit ▸ deep)) enough)
      m' f g [] rfl ready starts.listed starts.own
  · rintro _ m'' ⟨g', entered, same, forest, cwd, merged, _⟩
    cases same
    exact ⟨⟨rfl, g', forest, cwd, merged⟩, rfl⟩
  · rintro e m'' ⟨_, _, bad, _⟩
    cases bad

theorem one_le_chunkSize (uid gid : Int) {chunkSize : Option Int}
    (positive : ∀ size ∈ chunkSize, 0 ≤ size) (limits : Limits) :
    1 ≤ (Cloner.make uid gid chunkSize limits).chunkSize := by
  unfold Cloner.make
  dsimp only
  split
  · decide
  · decide
  · next n other =>
    have := positive n rfl
    have : n ≠ 0 := fun zero => other (by rw [zero])
    omega

/-- A clone merges. On a machine where creations fail exactly if the name is taken, nothing else
fails, and the hook changes no file, let the source and the destination be finite directories of a
tree without aliases, the source neither the destination nor inside of it. If the destination is
inside the source, the source is taken without it. Then the destination holds the merged forest
afterwards, the report is the one of the merge, and no directory has changed that was not in the
destination. The limits must be large enough for the source, whatever they are. -/
theorem cloneTree_merges {σ : Type} {world : Layer σ} {view : σ → Machine}
    (keeps : world.KeepsTo (Disturbed fun _ => True) view) {s : σ}
    (regular : (view s).tree.Regular) (plain : (view s).tree.Unaliased)
    (origin : f.On (some g.place.node) (view s)) (target : g.On none (view s))
    (first : f.place.node ∉ g.place.node :: g.inside) (out : g.place.node ∉ f.inside)
    (uid gid : Int) {chunkSize : Option Int} (positive : ∀ size ∈ chunkSize, 0 ≤ size)
    {limits : Limits} (deep : f.forest.depth < limits.depth)
    (enough : f.forest.longest < limits.pieces)
    (fair : ∀ x ∈ (cloneTree f.path g.path uid gid chunkSize limits).trace world s,
      x.call.Unhindered x.reply) :
    let ends := (cloneTree f.path g.path uid gid chunkSize limits).run world s
    ends.1 = .ok (mergedFolders uid gid f g).2 ∧
      ∃ g' : Folder, g'.path = g.path ∧ g'.place = g.place ∧ g'.On none (view ends.2) ∧
        g'.forest = (mergedFolders uid gid f g).1 ∧
        GrowsIn (g.place.node :: g.inside) (view s).tree (view ends.2).tree := by
  obtain ⟨report, g', forest, cwd, merged⟩ := Meets.run_of_trace keeps fair
    (performs_clone (one_le_chunkSize uid gid positive limits)
      (.of_on (Cloner.make uid gid chunkSize limits) regular plain origin target first out)
      deep enough).does
  exact ⟨report, g', merged.path, merged.place, target.merges merged cwd, forest, merged.grows⟩

/-- The directory `/skel` of the sample without `/skel/d`. -/
def sampleSkeleton : Folder where
  path := "/skel"
  place := ⟨1, [0]⟩
  entries := [("d", 2), ("f", 3), ("l", 4)]
  forest :=
    .leaf "d" ⟨0o2750, some 0, some 0⟩ .hole <|
    .leaf "f" ⟨0o644, some 0, some 0⟩ (.file [104, 105]) <|
    .leaf "l" ⟨0o777, some 0, some 0⟩ (.link "/skel/f") .nil
  inside := []

/-- The directory `/skel/d` of the sample. -/
def sampleInner : Folder where
  path := "/skel/d"
  place := ⟨2, [1, 0]⟩
  entries := []
  forest := .nil
  inside := []

theorem sampleSkeleton_on : sampleSkeleton.On (some 2) sample where
  leads := by decide
  listed := by decide
  shown :=
    .leaf rfl (by decide) ⟨rfl, rfl⟩ <| .leaf rfl (by decide) rfl <|
      .leaf rfl (by decide) rfl .nil

theorem sampleInner_on : sampleInner.On none sample where
  leads := by decide
  listed := by decide
  shown := .nil

/-- A skeleton is copied into a directory of its own. -/
theorem cloneTree_merges_inside :
    mergedFolders 7 8 sampleSkeleton sampleInner =
      (.leaf "f" ⟨0o644, some 7, some 8⟩ (.file [104, 105]) <|
        .leaf "l" ⟨0o777, some 7, some 8⟩ (.link "/skel/d/f") .nil,
        { outcome := .ok (some "/skel")
          copied := ["/skel/d/f", "/skel/d/l"]
          skipped := ["/skel/d"] }) ∧
      let ends := (cloneTree sampleSkeleton.path sampleInner.path 7 8 none
        { depth := 1, pieces := 3 }).run Machine.layer sample
      ends.1 = .ok (mergedFolders 7 8 sampleSkeleton sampleInner).2 ∧
        ∃ g' : Folder, g'.path = sampleInner.path ∧ g'.place = sampleInner.place ∧
          g'.On none ends.2 ∧ g'.forest = (mergedFolders 7 8 sampleSkeleton sampleInner).1 ∧
          GrowsIn [2] sample.tree ends.2.tree := by
  have fair : ∀ x ∈ (cloneTree sampleSkeleton.path sampleInner.path 7 8 none
      { depth := 1, pieces := 3 }).trace Machine.layer sample, x.call.Unhindered x.reply := by
    decide +kernel
  exact ⟨by decide +kernel, cloneTree_merges (layer_keepsTo _) sample_regular sample_unaliased
    sampleSkeleton_on sampleInner_on (by decide) (by decide) 7 8 (by simp) (by decide) (by decide)
    fair⟩

end Program

end HomeProvision
