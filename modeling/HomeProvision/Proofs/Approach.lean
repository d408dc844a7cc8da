import HomeProvision.Proofs.Repeated

/-!
# What a new home is

A home that was not there before is empty once it is made sure of, and nothing has changed if it was
there. On the way to it, a directory that is made is the last one that has a name: the next one is
made in it, or nothing is made at all any more. So after each step of the way either nothing has
changed, or the names so far lead from the root to an empty directory or to none
(`Tree.LeadsBare`). `walkSegments_reaches` takes such a fact from one segment to the whole way.
-/

namespace HomeProvision

open Machine.Tree

namespace Machine

variable {m m' : Machine} {t : Tree} {names : List String} {directory name path : String}

/-- Whether names lead from the root to an empty directory, if they lead to a directory. -/
def Tree.LeadsBare (t : Tree) (names : List String) : Prop :=
  ∀ q, t.walk true linkLimit .root ⟨names, true⟩ = .ok q → t.entries? q.node = some []

/-- No name leads on from an empty directory. -/
theorem Tree.LeadsBare.ends (h : t.LeadsBare names) (own : Path.IsName name) {directory : Bool}
    {q : Place} : t.walk true linkLimit .root ⟨names ++ [name], directory⟩ ≠ .ok q := by
  intro leads
  obtain ⟨r, first⟩ := walk_snoc_ok leads
  have free : t.child? r.node name = none := by simp [child?, h r first]
  by_cases short : name.utf8ByteSize ≤ nameLimit
  · rw [walk_snoc_none own short first free] at leads
    cases leads
  · rw [walk_snoc_long own (not_le.mp short) first] at leads
    cases leads

theorem Tree.LeadsBare.snoc (h : t.LeadsBare names) (own : Path.IsName name) :
    t.LeadsBare (names ++ [name]) :=
  fun _ leads => absurd leads (h.ends own)

/-- An absolute path leads where its components lead from the root. -/
theorem Tree.walk_of_directoryAt {current : String} {q : Place}
    (absolute : Path.isAbsolute path = true) (leads : t.directoryAt current path = .ok q) :
    t.walk true linkLimit .root ⟨Path.components path, true⟩ = .ok q := by
  obtain ⟨_, _, leads⟩ := bind_eq_ok.mp leads
  unfold Tree.start at leads
  rw [if_pos absolute] at leads
  exact leads

theorem Tree.LeadsBare.homeAt {d : Nat} (h : m.tree.LeadsBare (Path.components path))
    (absolute : Path.isAbsolute path = true) (here : Program.homeAt m path = some d) :
    m.tree.entries? d = some [] := by
  unfold Program.homeAt at here
  cases leads : m.tree.directoryAt m.current path with
  | error e => rw [leads] at here; cases here
  | ok q =>
    rw [leads] at here
    cases here
    exact h q (walk_of_directoryAt absolute leads)

theorem Made.leadsBare (h : m.Made directory name) (full : directory ≠ "")
    (own : Path.IsName name) (absolute : Path.isAbsolute directory = true) :
    m.tree.LeadsBare (Path.components directory ++ [name]) := by
  obtain ⟨q, i, leads, short, child, bare⟩ := h
  have there := directoryAt_join full own short.1 short.2 leads child (isDirectory_of_entries? bare)
  have walked := walk_of_directoryAt
    ((Path.isAbsolute_join full own.toIsComponent).trans absolute) there
  rw [Path.components_join full own.toIsComponent] at walked
  intro p leads'
  cases walked.symm.trans leads'
  exact bare

/-- Whether a path leads to something. -/
def Present (m : Machine) (path : String) : Prop :=
  ∃ status, m.statusOf true path = .ok status

theorem SameTree.present (same : SameTree m m') : m'.Present path ↔ m.Present path := by
  unfold Present
  rw [same.statusOf]

end Machine

namespace Program

open Machine

variable {α : Type} {start m m' f : Machine} {path directory name : String} {status : Status}

/-- Whether nothing has changed, or names lead to nothing but an empty directory. -/
def Approached (start : Machine) (names : List String) (m : Machine) : Prop :=
  SameTree start m ∨ m.tree.LeadsBare names

theorem Approached.same {names : List String} (h : Approached start names m)
    (same : SameTree m m') : Approached start names m' :=
  h.imp (fun kept => kept.trans same) fun bare => by rw [same.tree]; exact bare

theorem finishSegment_leaves (segment : String) (result : StepResult) :
    (finishSegment segment result).Leaves f (· = .ok ()) := by
  unfold finishSegment
  dsimp only
  split
  · exact (Leaves.log _ _ _).surely Leaves.pause
  · exact Leaves.pause

/-! ## The way -/

theorem components_of_ancestors (more : Path.ancestors path ≠ []) : Path.components path ≠ [] := by
  intro none
  unfold Path.ancestors at more
  rw [none] at more
  exact more rfl

/-- One segment of the way. -/
def passSegment (segment : String) (uid gid mode : Int) : Program Unit :=
  (ensureDirectory segment uid gid mode).bind fun result => finishSegment segment result

theorem walkSegments_cons (uid gid intermediateMode finalMode : Int) (segment next : String)
    (more : List String) :
    walkSegments uid gid intermediateMode finalMode (segment :: next :: more) =
      (passSegment segment administrator administrator intermediateMode).bind fun _ =>
        walkSegments uid gid intermediateMode finalMode (next :: more) :=
  (bind_assoc _ _ _).symm

/-- The way from a directory, name by name: what holds above a segment holds below it, and what the
last segment makes of it holds in the end. -/
theorem walkSegments_reaches {rule : Rule Machine} {fits : String → Prop}
    (above home : List String → Machine → Prop) {uid gid intermediateMode finalMode : Int}
    (component : ∀ name, fits name → Path.IsComponent name)
    (passes : ∀ {directory name : String} {m : Machine}, directory ≠ "" →
      Path.isAbsolute directory = true → fits name → above (Path.components directory) m →
      (passSegment (Path.join directory name) administrator administrator intermediateMode).Meets
        rule (fun _ _ => True)
        (fun out m' => ∀ u, out = .ok u → above (Path.components directory ++ [name]) m') m)
    (ends : ∀ {directory name : String} {m : Machine}, directory ≠ "" →
      Path.isAbsolute directory = true → fits name → above (Path.components directory) m →
      (passSegment (Path.join directory name) uid gid finalMode).Meets rule (fun _ _ => True)
        (fun out m' => ∀ u, out = .ok u → home (Path.components directory ++ [name]) m') m)
    {names : List String} (own : ∀ name ∈ names, fits name) (full : directory ≠ "")
    (absolute : Path.isAbsolute directory = true) (h : above (Path.components directory) m) :
    (walkSegments uid gid intermediateMode finalMode (Path.descend directory names)).Meets rule
      (fun _ _ => True)
      (fun out m' => ∀ u, out = .ok u → names ≠ [] → home (Path.components directory ++ names) m')
      m := by
  induction names generalizing directory m with
  | nil => exact fun _ _ none => absurd rfl none
  | cons name rest ih =>
    have first := own name List.mem_cons_self
    cases rest with
    | nil => exact (ends full absolute first h).mono fun _ m' reached u done _ => reached u done
    | cons next more =>
      have fit := component name first
      change Meets _ _ (walkSegments uid gid intermediateMode finalMode (Path.join directory name ::
        Path.join (Path.join directory name) next :: Path.descend _ more)) _ _
      rw [walkSegments_cons]
      refine (passes full absolute first h).onward fun u m' reached => ?_
      have reached := reached u rfl
      rw [← Path.components_join full fit] at reached
      refine (ih (fun n mem => own n (List.mem_cons_of_mem _ mem)) (Path.join_ne_empty fit)
        ((Path.isAbsolute_join full fit).trans absolute) reached).mono
        fun _ m'' walked v done _ => ?_
      have walked := walked v done (List.cons_ne_nil next more)
      rw [Path.components_join full fit, List.append_assoc] at walked
      exact walked

theorem passSegment_approaches (full : directory ≠ "") (absolute : Path.isAbsolute directory = true)
    (own : Path.IsName name) (h : Approached start (Path.components directory) m)
    (uid gid mode : Int) :
    (passSegment (Path.join directory name) uid gid mode).Meets Untroubled (fun _ _ => True)
      (fun out m' => ∀ u, out = .ok u →
        Approached start (Path.components directory ++ [name]) m') m := by
  refine (ensureDirectory_tried full own uid gid mode).onward fun result m₁ tried => ?_
  refine (finishSegment_leaves _ result m₁ (.refl m₁)).mono fun _ m₂ reached _ _ =>
    Approached.same ?_ reached.1
  rcases tried result rfl with ⟨_, made⟩ | ⟨same, _⟩
  · exact .inr (made.leadsBare full own absolute)
  · exact Approached.same (h.imp_right fun bare => bare.snoc own) same

/-! ## Homes -/

/-- A look at a path tells whether it leads to something. -/
theorem exists?_tells (path : String) :
    (exists? path).Leaves m fun out => ∀ there, out = .ok there →
      (there = true ↔ m.Present path) := by
  intro m₁ same
  refine Meets.attempt (Leaves.stat path m₁ same) (fun status _ reached => ⟨reached.1, ?_⟩)
    (fun e _ reached => ⟨reached.1, ?_⟩) fun _ _ _ reached => ⟨reached.1, fun _ bad => by cases bad⟩
  · intro there told
    cases told
    exact iff_of_true rfl ⟨status, reached.2.symm⟩
  · intro there told
    cases told
    refine iff_of_false Bool.false_ne_true ?_
    rintro ⟨status, found⟩
    cases reached.2.trans found

theorem exists?_looks (path : String) (m : Machine) :
    (exists? path).Meets Untroubled (fun _ _ => True)
      (fun out m' => SameTree m m' ∧
        (out = .ok true → ∃ status, m'.statusOf true path = .ok status)) m := by
  refine (exists?_tells path m (.refl m)).mono fun out m' looked => ⟨looked.1, fun found => ?_⟩
  exact looked.1.present.mpr ((looked.2 true found).mp rfl)

theorem exists?_leaves (looked : f.statusOf true path = .ok status) :
    (exists? path).Leaves f (· = .ok true) :=
  ((Leaves.stat path).mono fun _ same => same.trans looked).attempted (.done rfl)

/-- Whether a home is there, as it was or empty. -/
structure Readied (start : Machine) (path : String) (m : Machine) : Prop where
  looks : ∃ status, m.statusOf true path = .ok status
  approached : Approached start (Path.components path) m

theorem Readied.same (h : Readied start path m) (same : SameTree m m') :
    Readied start path m' where
  looks := h.looks.imp fun _ looked => same.statusOf.trans looked
  approached := h.approached.same same

/-- A home that was made sure of is as it was or empty. -/
theorem ensurePath_readies
    (ordinary : ∀ name ∈ Path.components path, Path.IsName name) (user : String)
    (uid gid intermediateMode finalMode : Int) (m : Machine) :
    (ensurePath path user uid gid intermediateMode finalMode).Meets Untroubled (fun _ _ => True)
      (fun out m' => ∀ result, out = .ok result → result.success = true → Readied m path m') m := by
  refine ensurePath_succeeds (SameTree m)
    ((exists?_looks path m).mono fun _ m₁ reached there same => ?_)
    (log_keeps (fun _ _ _ _ step => step) (fun _ _ same kept => kept.trans same) .debug)
    (fun m₂ same => walkSegments_reaches (Approached m) (Approached m)
      (fun _ own => own.toIsComponent)
      (fun full absolute own h => passSegment_approaches full absolute own h _ _ _)
      (fun full absolute own h => passSegment_approaches full absolute own h _ _ _)
      ordinary (by decide) (by decide) (.inl same))
    (fun more m₃ approached => (exists?_looks path m₃).mono fun _ m₄ reached good => ?_)
    (log_keeps (fun _ _ _ _ step => step) (fun _ _ same ready => ready.same same) .debug)
  · subst same
    exact ⟨fun good => ⟨reached.2 (congrArg _ good), .inl reached.1⟩, fun _ => reached.1⟩
  · exact ⟨reached.2 good, (approached (components_of_ancestors more)).same reached.1⟩

theorem ensurePath_leaves (looked : f.statusOf true path = .ok status) (user : String)
    (uid gid intermediateMode finalMode : Int) :
    (ensurePath path user uid gid intermediateMode finalMode).Leaves f
      (· = .ok (.ok (some path))) :=
  (exists?_leaves looked).surely (.done rfl)

end Program

end HomeProvision
