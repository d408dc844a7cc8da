import HomeProvision.Proofs.Approach

/-!
# Whose a new home is

The last segment of a path is made for the user, and every other one for the administrator. On the
way to a home that was not there before, a directory that is made is the last one that has a name,
so that the names lead to nothing but an empty directory with the owner and the mode of the segment
that has made it (`Tree.LeadsFresh`).

Which segment that is depends on how the path is spelled. Slashes do not count. But `.` at the end
is a segment of its own, and the home is made by the segment before it, as if it were a directory
above the home (`homeAttributes`). `ensurePath_owns` says so for all absolute paths without `..`.

A path with `..` may come through the home before its end, and then the home is the administrator's,
too. It may even lead back to what was there before. Nothing else can happen
(`ensurePath_owns_any`).
-/

namespace HomeProvision

open Machine.Tree

namespace Machine

variable {m m' : Machine} {t : Tree} {names : List String} {directory name path : String}
  {a : Attributes}

/-- Whether names lead from the root to nothing but an empty directory with certain attributes. -/
def Tree.LeadsFresh (t : Tree) (names : List String) (a : Attributes) : Prop :=
  ∀ q, t.walk true linkLimit .root ⟨names, false⟩ = .ok q →
    ∃ n, t.node? q.node = some n ∧ n.entries? = some [] ∧ a.Fits n

theorem Tree.LeadsFresh.leadsBare (h : t.LeadsFresh names a) : t.LeadsBare names := by
  intro q leads
  obtain ⟨n, here, bare, _⟩ := h q ((walk_directory t _ _ _ false q).mp leads).1
  unfold Tree.entries?
  rw [here]
  exact bare

theorem Tree.LeadsFresh.snoc (h : t.LeadsFresh names a) (own : Path.IsName name) (b : Attributes) :
    t.LeadsFresh (names ++ [name]) b :=
  fun _ leads => absurd leads (h.leadsBare.ends own)

theorem Tree.LeadsFresh.snoc_dot (h : t.LeadsFresh names a) : t.LeadsFresh (names ++ ["."]) a := by
  intro q leads
  obtain ⟨r, first⟩ := walk_snoc_ok leads
  obtain ⟨dir, left, _, same⟩ := walk_append_ok (List.cons_ne_nil "." []) first
  rw [same, walk_eq, walkWith_cons _ dir, if_pos rfl, walkWith_nil, Bool.false_and,
    if_neg Bool.false_ne_true] at leads
  cases leads
  exact h q ((walk_directory t _ _ _ false q).mp first).1

/-- An absolute path leads where its components lead from the root. -/
theorem Tree.walk_of_resolve {current : String} {q : Place} (absolute : Path.isAbsolute path = true)
    (leads : t.resolve current true path = .ok q) :
    t.walk true linkLimit .root ⟨Path.components path, false⟩ = .ok q := by
  obtain ⟨_, _, leads⟩ := bind_eq_ok.mp leads
  obtain ⟨p, begins, leads⟩ := bind_eq_ok.mp leads
  unfold Tree.start at begins
  rw [if_pos absolute] at begins
  cases begins
  unfold Route.ofPath at leads
  cases slash : Path.endsInSlash path with
  | false => rw [slash] at leads; exact leads
  | true =>
    rw [slash] at leads
    exact ((walk_directory t _ _ _ false q).mp leads).1

end Machine

namespace Program

open Machine

variable {start f m m' : Machine} {path directory name : String} {names : List String}
  {a : Attributes}

theorem Founded.leadsFresh (h : Founded m directory name a.Fits m')
    (absolute : Path.isAbsolute directory = true) :
    m'.tree.LeadsFresh (Path.components directory ++ [name]) a := by
  obtain ⟨q, n, v, placed, body, fits⟩ := h
  have noLink : n.target? = none := by simp [Node.target?, body]
  have walked := walk_of_resolve
    ((Path.isAbsolute_join v.full v.own.toIsComponent).trans absolute)
    (placed.leads v (.inl noLink))
  rw [Path.components_join v.full v.own.toIsComponent] at walked
  intro p leads
  cases walked.symm.trans leads
  exact ⟨n, placed.here v, by simp [Node.entries?, body], fits⟩

theorem Founded.own {fits : Node → Prop} (h : Founded m directory name fits m') :
    Path.IsName name := by
  obtain ⟨_, _, v, _⟩ := h
  exact v.own

theorem Founded.adds {tree : Tree} (h : Founded m directory name a.Fits m')
    (before : tree.Adds a.Fits m.tree) : tree.Adds a.Fits m'.tree := by
  obtain ⟨q, n, v, placed, _, fits⟩ := h
  rw [placed.tree]
  refine before.create (lt_of_isDirectory (isDirectory_of_directoryAt v.leads)) fits
    fun n f fit => ?_
  simpa [Attributes.Fits] using fit

theorem isComponent_of_own (own : Path.IsName name ∨ name = ".") : Path.IsComponent name := by
  rcases own with own | rfl
  · exact own.toIsComponent
  · exact ⟨by decide, by decide⟩

/-- Whether nothing has changed, or names lead to nothing but a new directory with certain
attributes. -/
def Arrived (start : Machine) (names : List String) (a : Attributes) (m : Machine) : Prop :=
  SameTree start m ∨ m.tree.LeadsFresh names a

theorem Arrived.same (h : Arrived start names a m) (same : SameTree m m') :
    Arrived start names a m' :=
  h.imp (fun kept => kept.trans same) fun fresh => by rw [same.tree]; exact fresh

/-! ## Segments -/

section

variable (other : ∀ name, (Path.components path).getLast? = some name → ¬ Path.IsName name)
include other

/-- No directory is made under what is no name. -/
theorem mkdir_leaves_other (mode : Int) :
    (mkdir path mode).Leaves f fun out => ∃ e, out = .error e := by
  intro m same
  refine untroubled_call rfl (untroubled_changed (fun m' done => ?_) fun e _ => ⟨same, e, rfl⟩)
  obtain ⟨s, made⟩ := mkdir_ok done
  obtain ⟨_, _, _, _, _, _, split, _⟩ := spot_eq_ok made.spot
  exact absurd made.name (other s.name (by rw [split, List.getLast?_concat]))

theorem createDirectory_leaves_other (mode : Int) :
    (createDirectory path mode).Leaves f fun out => out ≠ .ok none := by
  have noted : ∀ level event details (result : StepResult),
      (log level event details >>= fun _ => pure (some result) : Program (Option StepResult)).Leaves
        f fun out => out ≠ .ok none :=
    fun _ _ _ _ => (Leaves.log _ _ _).surely (.done (by simp))
  intro m same
  refine Meets.attempt (mkdir_leaves_other other mode m same) (fun _ _ bad => ?_)
    (fun e m' reached => ?_) fun _ _ _ reached => ⟨reached.1, by simp⟩
  · obtain ⟨_, _, bad⟩ := bad
    cases bad
  · dsimp only
    split
    · exact noted _ _ _ _ m' reached.1
    · exact noted _ _ _ _ m' reached.1

theorem ensureDirectory_leaves_other (uid gid mode : Int) :
    (ensureDirectory path uid gid mode).Leaves f fun _ => True := by
  have masked : (withClearMask (createDirectory path mode)).Leaves f fun out => out ≠ .ok none :=
    (Leaves.umask 0).bind (fun mask _ => (createDirectory_leaves_other other mode).ensuring
      (.call rfl rfl fun _ _ => .done rfl)) fun _ _ => by simp
  have noted : ∀ level event details (result : StepResult),
      (log level event details >>= fun _ => pure result : Program StepResult).Leaves f
        fun _ => True :=
    fun _ _ _ _ => (Leaves.log _ _ _).surely (.done trivial)
  intro m same
  refine Meets.attempt (Leaves.stat path m same) (fun _ m' reached => ?_) (fun e m' reached => ?_)
    fun _ _ _ reached => ⟨reached.1, trivial⟩
  · exact noted _ _ _ _ m' reached.1
  · dsimp only
    split
    · refine masked.bind (fun r other => ?_) (fun _ _ => trivial) m' reached.1
      cases r with
      | none => exact absurd rfl other
      | some result => exact .done trivial
    · exact noted _ _ _ _ m' reached.1

end

/-- A segment is made as it was asked for, or nothing changes. -/
theorem passSegment_founds (full : directory ≠ "") (own : Path.IsComponent name)
    (uid gid mode : Int) (m : Machine) :
    (passSegment (Path.join directory name) uid gid mode).Meets Giving (fun _ _ => True)
      (fun out m' => ∀ u, out = .ok u → SameTree m m' ∨ Founded m directory name
        (Attributes.given uid gid (grantedBits mode 0o1777)).Fits m') m := by
  have within : ∀ c m r m', Giving c m r m' → Untroubled c m r m' := fun _ _ _ _ step => step.1
  have made : (ensureDirectory (Path.join directory name) uid gid mode).Meets Giving
      (fun _ _ => True) (fun out m' => ∀ result, out = .ok result → SameTree m m' ∨
        Founded m directory name (Attributes.given uid gid (grantedBits mode 0o1777)).Fits m')
      m := by
    by_cases named : Path.IsName name
    · refine (ensureDirectory_gives full named uid gid mode).mono fun _ m' reached result done => ?_
      rcases reached result done with ⟨_, founded⟩ | ⟨same, _⟩
      · exact .inr founded
      · exact .inl same
    · have other : ∀ last, (Path.components (Path.join directory name)).getLast? = some last →
          ¬ Path.IsName last := by
        intro last same
        rw [Path.components_join full own, List.getLast?_concat] at same
        exact Option.some.inj same ▸ named
      exact (Meets.granted (ensureDirectory_leaves_other other uid gid mode m (.refl m))
        within).mono fun _ _ reached _ _ => .inl reached.1
  refine made.onward fun result m₁ reached => ?_
  refine (Meets.granted (finishSegment_leaves _ result m₁ (.refl m₁)) within).mono
    fun _ m₂ still _ _ => ?_
  exact (reached result rfl).imp (fun same => same.trans still.1) fun founded =>
    founded.after still.1

theorem passSegment_arrives (full : directory ≠ "") (absolute : Path.isAbsolute directory = true)
    (own : Path.IsName name ∨ name = ".") (h : Arrived start (Path.components directory) a m)
    (uid gid mode : Int) :
    (passSegment (Path.join directory name) uid gid mode).Meets Giving (fun _ _ => True)
      (fun out m' => ∀ u, out = .ok u → Arrived start (Path.components directory ++ [name])
        (if name = "." then a else .given uid gid (grantedBits mode 0o1777)) m') m := by
  refine (passSegment_founds full (isComponent_of_own own) uid gid mode m).mono
    fun _ m' reached u done => ?_
  rcases reached u done with same | founded
  · refine Arrived.same (h.imp_right fun fresh => ?_) same
    rcases own with own | rfl
    · exact fresh.snoc own _
    · rw [if_pos rfl]
      exact fresh.snoc_dot
  · rw [if_neg founded.own.ne_dot]
    exact .inr (founded.leadsFresh absolute)

/-- What a directory above a home gets. -/
def aboveAttributes (intermediateMode : Int) : Attributes :=
  .given administrator administrator (grantedBits intermediateMode 0o1777)

/-- What a new home gets: what its last segment is made with, or what the one before it is made with
if the last one is the name that every directory has for itself. -/
def homeAttributes (names : List String) (uid gid intermediateMode finalMode : Int) : Attributes :=
  if names.getLast? = some "." then
    aboveAttributes intermediateMode
  else .given uid gid (grantedBits finalMode 0o1777)

theorem walkSegments_arrives (uid gid intermediateMode finalMode : Int)
    (own : ∀ name ∈ names, Path.IsName name ∨ name = ".") (full : directory ≠ "")
    (absolute : Path.isAbsolute directory = true)
    (h : Arrived start (Path.components directory)
      (aboveAttributes intermediateMode) m) :
    (walkSegments uid gid intermediateMode finalMode (Path.descend directory names)).Meets Giving
      (fun _ _ => True)
      (fun out m' => ∀ u, out = .ok u → names ≠ [] →
        Arrived start (Path.components directory ++ names) (homeAttributes
          (Path.components directory ++ names) uid gid intermediateMode finalMode) m') m := by
  refine walkSegments_reaches
    (fun names => Arrived start names (aboveAttributes intermediateMode))
    (fun names => Arrived start names (homeAttributes names uid gid intermediateMode finalMode))
    (fun _ => isComponent_of_own)
    (fun full absolute own h => ?_) (fun full absolute own h => ?_) own full absolute h
  · refine (passSegment_arrives full absolute own h _ _ _).mono fun _ m' reached u done => ?_
    have reached := reached u done
    split at reached <;> exact reached
  · refine (passSegment_arrives full absolute own h uid gid finalMode).mono
      fun _ m' reached u done => ?_
    unfold homeAttributes
    rw [List.getLast?_concat]
    simpa only [Option.some.injEq] using reached u done

/-- The way along any names: the last segment is made for the user, or all that is new is the
administrator's. -/
theorem walkSegments_adds {tree : Tree} (uid gid intermediateMode finalMode : Int)
    (component : ∀ name ∈ names, Path.IsComponent name) (full : directory ≠ "")
    (absolute : Path.isAbsolute directory = true)
    (h : tree.Adds (aboveAttributes intermediateMode).Fits m.tree) :
    (walkSegments uid gid intermediateMode finalMode (Path.descend directory names)).Meets Giving
      (fun _ _ => True)
      (fun out m' => ∀ u, out = .ok u → names ≠ [] →
        m'.tree.LeadsFresh (Path.components directory ++ names)
          (.given uid gid (grantedBits finalMode 0o1777)) ∨
        tree.Adds (aboveAttributes intermediateMode).Fits m'.tree) m := by
  refine walkSegments_reaches
    (fun _ m => tree.Adds (aboveAttributes intermediateMode).Fits m.tree)
    (fun names m => m.tree.LeadsFresh names (.given uid gid (grantedBits finalMode 0o1777)) ∨
      tree.Adds (aboveAttributes intermediateMode).Fits m.tree)
    (fun _ component => component) (fun full _ component h => ?_)
    (fun full absolute component h => ?_) component full absolute h
  · refine (passSegment_founds full component _ _ _ _).mono fun _ m' reached u done => ?_
    rcases reached u done with same | founded
    · exact same.tree ▸ h
    · exact founded.adds h
  · refine (passSegment_founds full component _ _ _ _).mono fun _ m' reached u done => ?_
    rcases reached u done with same | founded
    · exact .inr (same.tree ▸ h)
    · exact .inl (founded.leadsFresh absolute)

/-! ## Homes -/

/-- Whether a path leads to an empty directory with certain attributes. -/
def OwnedHome (path : String) (a : Attributes) (m : Machine) : Prop :=
  ∃ i n, m.find true path = .ok (i, n) ∧ n.entries? = some [] ∧ a.Fits n

theorem OwnedHome.same (h : OwnedHome path a m) (same : SameTree m m') : OwnedHome path a m' := by
  unfold OwnedHome
  rw [same.find]
  exact h

theorem owned_of_leadsFresh {i : Nat} {n : Node}
    (h : m.tree.LeadsFresh (Path.components path) a) (absolute : Path.isAbsolute path = true)
    (found : m.find true path = .ok (i, n)) : OwnedHome path a m := by
  obtain ⟨⟨above, leads⟩, here⟩ := find_ok found
  obtain ⟨n', here', bare, fits⟩ := h _ (walk_of_resolve absolute leads)
  cases here.symm.trans here'
  exact ⟨i, n, found, bare, fits⟩

/-- What is there in the end and was not there at the start is what was made. -/
theorem Arrived.owned {status : Status} (h : Arrived start (Path.components path) a m)
    (absolute : Path.isAbsolute path = true)
    (absent : ∀ status, start.statusOf true path ≠ .ok status)
    (looked : m.statusOf true path = .ok status) : OwnedHome path a m := by
  rcases h with same | fresh
  · exact absurd (same.statusOf.symm.trans looked) (absent status)
  · obtain ⟨⟨i, n⟩, found, _⟩ := bind_eq_ok.mp looked
    exact owned_of_leadsFresh fresh absolute found

/-- A home that was not there before gets what its path makes of it. -/
theorem ensurePath_founds (absolute : Path.isAbsolute path = true)
    (ordinary : ∀ name ∈ Path.components path, Path.IsName name ∨ name = ".")
    (absent : ∀ status, m.statusOf true path ≠ .ok status) (user : String)
    (uid gid intermediateMode finalMode : Int) :
    (ensurePath path user uid gid intermediateMode finalMode).Meets Giving (fun _ _ => True)
      (fun out m' => ∀ result, out = .ok result → result.success = true → OwnedHome path
        (homeAttributes (Path.components path) uid gid intermediateMode finalMode) m') m := by
  have within : ∀ c m r m', Giving c m r m' → Untroubled c m r m' := fun _ _ _ _ step => step.1
  refine ensurePath_succeeds (SameTree m)
    (((exists?_looks path m).granted within).mono fun _ m₁ reached there same => ?_)
    (log_keeps within (fun _ _ same kept => kept.trans same) .debug)
    (fun m₂ same => walkSegments_arrives uid gid intermediateMode finalMode ordinary (by decide)
      (by decide) (.inl same))
    (fun more m₃ arrived => ((exists?_looks path m₃).granted within).mono
      fun _ m₄ reached good => ?_)
    (log_keeps within (fun _ _ same owned => owned.same same) .debug)
  · refine ⟨fun good => ?_, fun _ => reached.1⟩
    subst same good
    obtain ⟨status, looked⟩ := reached.2 rfl
    exact absurd (reached.1.statusOf.symm.trans looked) (absent status)
  · obtain ⟨status, looked⟩ := reached.2 good
    exact (Arrived.same (arrived (components_of_ancestors more)) reached.1).owned absolute absent
      looked

/-- A home that was not there before is an empty directory. It is its user's, with the mode that was
asked for, unless its path ends in `.`, and then it is the administrator's, with the mode for
directories above a home. -/
theorem ensurePath_owns {σ : Type} {world : Layer σ} {view : σ → Machine}
    (keeps : world.KeepsTo Untroubled view) {s s' : σ} (absolute : Path.isAbsolute path = true)
    (ordinary : ∀ name ∈ Path.components path, Path.IsName name ∨ name = ".")
    (absent : ∀ status, (view s).statusOf true path ≠ .ok status) {user : String}
    {uid gid intermediateMode finalMode : Int} {result : StepResult}
    (given : ∀ x ∈ (ensurePath path user uid gid intermediateMode finalMode).trace world s,
      GivesFreely x.call x.reply)
    (ends : (ensurePath path user uid gid intermediateMode finalMode).run world s =
      (.ok result, s')) (good : result.success = true) :
    OwnedHome path (homeAttributes (Path.components path) uid gid intermediateMode finalMode)
      (view s') := by
  have owned := Meets.run_of_trace keeps given
    (ensurePath_founds absolute ordinary absent user uid gid intermediateMode finalMode)
  rw [ends] at owned
  exact owned result rfl good

/-- Two spellings of one path. Slashes change nothing, and with `.` at the end the home is the
administrator's. -/
theorem ensurePath_owns_spellings :
    let make (path : String) := (ensurePath path "alice" 7 7 0o711 0o700).run layer sample
    (make "/home//alice/").1 = .ok (.ok (some "/home//alice/")) ∧
      OwnedHome "/home//alice/" (.given 7 7 0o700) (make "/home//alice/").2 ∧
      (make "/home/alice/.").1 = .ok (.ok (some "/home/alice/.")) ∧
      OwnedHome "/home/alice/." (.given 0 0 0o711) (make "/home/alice/.").2 := by
  intro make
  have absent : ∀ path ∈ ["/home//alice/", "/home/alice/."], ∀ status,
      sample.statusOf true path ≠ .ok status := by
    intro path mem status
    have missing : ∀ path ∈ ["/home//alice/", "/home/alice/."],
        (sample.statusOf true path).toOption = none := by decide
    intro looked
    have missing := missing path mem
    rw [looked] at missing
    cases missing
  have slashes : (make "/home//alice/").1 = .ok (.ok (some "/home//alice/")) := by decide +kernel
  have dot : (make "/home/alice/.").1 = .ok (.ok (some "/home/alice/.")) := by decide +kernel
  have users : homeAttributes (Path.components "/home//alice/") 7 7 0o711 0o700 =
      .given 7 7 0o700 := by decide +kernel
  have administrators : homeAttributes (Path.components "/home/alice/.") 7 7 0o711 0o700 =
      .given 0 0 0o711 := by decide +kernel
  have given : ∀ path ∈ ["/home//alice/", "/home/alice/."],
      ∀ x ∈ (ensurePath path "alice" 7 7 0o711 0o700).trace layer sample,
        givesAway x.call = true → x.call.fault? x.reply = none := by decide +kernel
  have run : ∀ path, (make path).1 = .ok (.ok (some path)) →
      make path = (.ok (.ok (some path)), (make path).2) := fun path done => Prod.ext done rfl
  refine ⟨slashes, ?_, dot, ?_⟩
  · rw [← users]
    exact ensurePath_owns layer_untroubled (by decide) (by decide) (absent _ (by decide))
      (given _ (by decide)) (run _ slashes) rfl
  · rw [← administrators]
    exact ensurePath_owns layer_untroubled (by decide) (by decide) (absent _ (by decide))
      (given _ (by decide)) (run _ dot) rfl

/-! ## Any path -/

/-- What becomes of a home on any path: it is new and its user's, or it was in a tree before or has
the attributes of a directory above a home. -/
def PassedHome (start : Tree) (path : String) (users above : Attributes) (m : Machine) : Prop :=
  OwnedHome path users m ∨
    ∃ i n, m.find true path = .ok (i, n) ∧ (start.node? i = none → above.Fits n)

theorem PassedHome.same {start : Tree} {users above : Attributes}
    (h : PassedHome start path users above m) (same : SameTree m m') :
    PassedHome start path users above m' := by
  refine h.imp (fun owned => owned.same same) fun passed => ?_
  rw [same.find]
  exact passed

theorem ensurePath_passes (absolute : Path.isAbsolute path = true) (user : String)
    (uid gid intermediateMode finalMode : Int) (m : Machine) :
    (ensurePath path user uid gid intermediateMode finalMode).Meets Giving (fun _ _ => True)
      (fun out m' => ∀ result, out = .ok result → result.success = true →
        PassedHome m.tree path (.given uid gid (grantedBits finalMode 0o1777))
          (aboveAttributes intermediateMode) m') m := by
  have within : ∀ c m r m', Giving c m r m' → Untroubled c m r m' := fun _ _ _ _ step => step.1
  have unchanged : ∀ m', SameTree m m' →
      m.tree.Adds (aboveAttributes intermediateMode).Fits m'.tree :=
    fun m' same => by rw [same.tree]; exact .refl _ _
  have passed : ∀ m', m.tree.Adds (aboveAttributes intermediateMode).Fits m'.tree →
      (∃ status, m'.statusOf true path = .ok status) →
      PassedHome m.tree path (.given uid gid (grantedBits finalMode 0o1777))
        (aboveAttributes intermediateMode) m' := by
    intro m' adds looked
    obtain ⟨status, looked⟩ := looked
    obtain ⟨⟨i, n⟩, found, _⟩ := bind_eq_ok.mp looked
    exact .inr ⟨i, n, found, adds i n (find_ok found).2⟩
  refine ensurePath_succeeds (SameTree m)
    (((exists?_looks path m).granted within).mono fun _ m₁ reached there same => ?_)
    (log_keeps within (fun _ _ same kept => kept.trans same) .debug)
    (fun m₂ same => walkSegments_adds uid gid intermediateMode finalMode
      (fun _ => Path.isComponent_of_mem) (by decide) (by decide) (unchanged m₂ same))
    (fun more m₃ arrived => ((exists?_looks path m₃).granted within).mono
      fun _ m₄ reached good => ?_)
    (log_keeps within (fun _ _ same home => home.same same) .debug)
  · refine ⟨fun good => passed m₁ (unchanged m₁ reached.1) (reached.2 ?_),
      fun _ => reached.1⟩
    rw [same, good]
  · obtain ⟨status, looked⟩ := reached.2 good
    have arrived := arrived (components_of_ancestors more)
    rw [← reached.1.tree] at arrived
    rcases arrived with fresh | adds
    · obtain ⟨⟨i, n⟩, found, _⟩ := bind_eq_ok.mp looked
      exact .inl (owned_of_leadsFresh fresh absolute found)
    · exact passed m₄ adds ⟨status, looked⟩

/-- Whatever is on the way to a home, and however often the way goes back: the home is new and its
user's, or it was there before, or it is the administrator's with the mode for directories above a
home. -/
theorem ensurePath_owns_any {σ : Type} {world : Layer σ} {view : σ → Machine}
    (keeps : world.KeepsTo Untroubled view) {s s' : σ} (absolute : Path.isAbsolute path = true)
    {user : String} {uid gid intermediateMode finalMode : Int} {result : StepResult}
    (given : ∀ x ∈ (ensurePath path user uid gid intermediateMode finalMode).trace world s,
      GivesFreely x.call x.reply)
    (ends : (ensurePath path user uid gid intermediateMode finalMode).run world s =
      (.ok result, s')) (good : result.success = true) :
    PassedHome (view s).tree path (.given uid gid (grantedBits finalMode 0o1777))
      (aboveAttributes intermediateMode) (view s') := by
  have passed := Meets.run_of_trace keeps given
    (ensurePath_passes absolute user uid gid intermediateMode finalMode (view s))
  rw [ends] at passed
  exact passed result rfl good

/-- On a way that comes through the home before its end, the home is the administrator's. -/
theorem ensurePath_owns_any_back :
    let path := "/home/alice/../alice"
    let home := (ensurePath path "alice" 7 7 0o711 0o700).run layer sample
    home.1 = .ok (.ok (some path)) ∧
      PassedHome sample.tree path (.given 7 7 0o700) (.given 0 0 0o711) home.2 ∧
      (home.2.find true path).toOption.map (·.2.mode) = some 0o711 := by
  intro path home
  have ends : home.1 = .ok (.ok (some path)) := by decide +kernel
  have run : home = (.ok (.ok (some path)), home.2) := Prod.ext ends rfl
  have given : ∀ x ∈ (ensurePath path "alice" 7 7 0o711 0o700).trace layer sample,
      givesAway x.call = true → x.call.fault? x.reply = none := by decide +kernel
  have users : Attributes.given 7 7 (grantedBits 0o700 0o1777) = .given 7 7 0o700 := by
    decide +kernel
  have above : aboveAttributes 0o711 = .given 0 0 0o711 := by decide +kernel
  refine ⟨ends, ?_, by decide +kernel⟩
  rw [← users, ← above]
  exact ensurePath_owns_any layer_untroubled (by decide) given run rfl

end Program

end HomeProvision
