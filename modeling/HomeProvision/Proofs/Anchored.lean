import HomeProvision.Proofs.Approach
import HomeProvision.Proofs.Descent
import HomeProvision.Proofs.Established

/-!
# Where the way to a home leads

The walk to a home starts at the root, whatever its path says, while the looks before and after it
take the path as it is written. So two places are spoken of: the one that the path leads to, and the
goal of the walk, the last directory on the way that it makes.

* Making sure of a path succeeds exactly if the path itself leads to something in the end
  (`ensurePath_tells`).
* Where the path is followed from the root, because it starts there or because the root is the
  current directory, it leads to the goal, and a slash at its end asks for a directory there
  (`present_iff_goal`).
* From any other directory a path that does not start at the root leads elsewhere: the walk makes
  its goal, and the look does not find it (`ensurePath_tells_elsewhere`).
-/

namespace HomeProvision

namespace Path

variable {current path goal : String} {parts : List String}

/-- Whether a path is the plain spelling, from the root on, of where another one leads to there. -/
structure IsGoal (path goal : String) : Prop where
  full : goal ≠ ""
  components : components goal = components path
  absolute : isAbsolute goal = true
  plain : endsInSlash goal = false

/-- The last path on a way has the components of the way. -/
theorem getLast?_descend (full : current ≠ "") (fit : ∀ part ∈ parts, IsComponent part)
    (last : (descend current parts).getLast? = some goal) :
    goal ≠ "" ∧ components goal = components current ++ parts ∧
      isAbsolute goal = isAbsolute current ∧ endsInSlash goal = false := by
  induction parts generalizing current with
  | nil => cases last
  | cons part rest ih =>
    obtain ⟨own, others⟩ := List.forall_mem_cons.mp fit
    have split := components_join full own
    have start := isAbsolute_join full own
    cases rest with
    | nil =>
      cases last
      exact ⟨join_ne_empty own, split, start, endsInSlash_join own⟩
    | cons next more =>
      have last : (descend (join current part) (next :: more)).getLast? = some goal := last
      obtain ⟨named, whole, same, bare⟩ := ih (join_ne_empty own) others last
      rw [split, List.append_assoc] at whole
      exact ⟨named, whole, same.trans start, bare⟩

theorem isGoal_of_last (last : (ancestors path).getLast? = some goal) : IsGoal path goal := by
  obtain ⟨full, whole, absolute, plain⟩ :=
    getLast?_descend (by decide) (fun _ mem => isComponent_of_mem mem) last
  exact ⟨full, whole, absolute, plain⟩

theorem checkText_descend (start : Machine.checkText current = .ok ())
    (own : ∀ part ∈ parts, Machine.checkText part = .ok ()) :
    ∀ step ∈ descend current parts, Machine.checkText step = .ok () := by
  induction parts generalizing current with
  | nil => exact fun _ mem => absurd mem List.not_mem_nil
  | cons part rest ih =>
    obtain ⟨first, others⟩ := List.forall_mem_cons.mp own
    have next := Machine.checkText_join start first
    exact List.forall_mem_cons.mpr ⟨next, ih next others⟩

/-- The directories on a way have no characters but those of its path and the slash. -/
theorem checkText_ancestors (text : Machine.checkText path = .ok ()) :
    ∀ step ∈ ancestors path, Machine.checkText step = .ok () := by
  refine checkText_descend (by decide) fun part mem => Machine.checkText_eq_ok.mpr fun inside => ?_
  exact Machine.checkText_eq_ok.mp text (mem_of_mem_components mem inside)

end Path

namespace Machine

variable {m m' : Machine} {t : Tree} {current path goal : String} {q : Place}

/-- Whether a path leads to a directory. -/
def LeadsToDirectory (m : Machine) (path : String) : Prop :=
  ∃ q, m.tree.directoryAt m.current path = .ok q

theorem present_iff (text : checkText path = .ok ()) :
    m.Present path ↔
      ∃ q, m.tree.resolve m.current true path = .ok q ∧ m.tree.node? q.node ≠ none := by
  constructor
  · rintro ⟨status, looked⟩
    obtain ⟨⟨i, n⟩, found, _⟩ := bind_eq_ok.mp looked
    obtain ⟨⟨above, leads⟩, here⟩ := find_ok found
    exact ⟨⟨i, above⟩, leads, by rw [here]; simp⟩
  · rintro ⟨q, leads, there⟩
    obtain ⟨n, here⟩ := Option.ne_none_iff_exists'.mp there
    refine ⟨n.status, ?_⟩
    rw [statusOf_eq, find_eq_ok text leads here]
    rfl

theorem Undisturbed.untroubled {c : Call} {r : c.Reply} (step : Undisturbed c m r m') :
    Untroubled c m r m' :=
  ⟨step.disturbed, fun foreign => by
    cases step with
    | answered => cases c <;> first | rfl | cases foreign
    | paused => rfl⟩

/-! ## Walks from the root -/

/-- Whether the walk for a path starts at the root. -/
def StartsAtRoot (current path : String) : Prop :=
  Path.isAbsolute path = true ∨ current = "/"

theorem Tree.checkPath_eq_ok (full : path ≠ "") (short : path.utf8ByteSize < pathLimit) :
    Tree.checkPath path = .ok () := by
  unfold Tree.checkPath
  rw [if_neg full, if_neg (Nat.not_le.mpr short)]

/-- A path that is followed from the root leads where its components lead from there. -/
theorem Tree.resolve_eq_walk (starts : StartsAtRoot current path)
    (valid : Tree.checkPath path = .ok ()) (some : Path.components path ≠ []) :
    t.resolve current true path = t.walk true linkLimit .root (Route.ofPath path) := by
  by_cases absolute : Path.isAbsolute path = true
  · unfold Tree.resolve Tree.start
    rw [valid, if_pos absolute]
    rfl
  · obtain rfl := starts.resolve_left absolute
    have root : t.resolveFrom .root true "/" =
        if t.isDirectory Tree.root then .ok .root else .error .notDirectory := by
      change t.walk true linkLimit .root ⟨[], true⟩ = _
      rw [Tree.walk_eq, Tree.walkWith_nil]
      cases dir : t.isDirectory Tree.root <;> simp [Place.root, dir]
    unfold Tree.resolve Tree.start
    rw [valid, if_neg absolute, root]
    cases dir : t.isDirectory Tree.root with
    | true => rfl
    | false =>
      -- no path leads anywhere from a root that is no directory
      obtain ⟨name, rest, split⟩ := List.exists_cons_of_ne_nil some
      unfold Route.ofPath
      rw [Tree.walk_eq, split, Tree.walkWith_outside _ dir]
      rfl

section

variable (h : Path.IsGoal path goal) (starts : StartsAtRoot m.current path)
  (valid : Tree.checkPath path = .ok ()) (valid' : Tree.checkPath goal = .ok ())
  (some : Path.components path ≠ [])
include h starts valid valid' some

/-- A path leads to its goal, and with a slash at its end only if that is a directory. -/
theorem resolve_iff_goal :
    m.tree.resolve m.current true path = .ok q ↔
      m.tree.resolve m.current true goal = .ok q ∧
        (Path.endsInSlash path = true → m.tree.isDirectory q.node = true) := by
  have own : Path.components goal ≠ [] := h.components ▸ some
  rw [Tree.resolve_eq_walk starts valid some, Tree.resolve_eq_walk (.inl h.absolute) valid' own]
  unfold Route.ofPath
  rw [h.components, h.plain]
  cases Path.endsInSlash path with
  | false => simp
  | true => simpa using Tree.walk_directory m.tree linkLimit .root (Path.components path) false q

theorem present_iff_goal (text : checkText path = .ok ()) (text' : checkText goal = .ok ()) :
    m.Present path ↔
      m.Present goal ∧ (Path.endsInSlash path = true → m.LeadsToDirectory goal) := by
  rw [present_iff text, present_iff text']
  constructor
  · rintro ⟨q, leads, there⟩
    obtain ⟨leads, directory⟩ := (resolve_iff_goal h starts valid valid' some).mp leads
    exact ⟨⟨q, leads, there⟩, fun slash =>
      ⟨q, Tree.directoryAt_eq_ok_iff.mpr ⟨leads, directory slash⟩⟩⟩
  · rintro ⟨⟨q, leads, there⟩, directory⟩
    refine ⟨q, (resolve_iff_goal h starts valid valid' some).mpr ⟨leads, fun slash => ?_⟩, there⟩
    obtain ⟨q', leads'⟩ := directory slash
    obtain ⟨leads', dir⟩ := Tree.directoryAt_eq_ok_iff.mp leads'
    cases leads.symm.trans leads'
    exact dir

end

end Machine

namespace Program

open Machine

variable {m : Machine} {path goal : String}

/-- What is said of a path with components in the end is what is true of it then. -/
theorem ensurePath_meets (some : Path.ancestors path ≠ []) (user : String)
    (uid gid intermediateMode finalMode : Int) (m : Machine) :
    (ensurePath path user uid gid intermediateMode finalMode).Meets Untroubled (fun _ _ => True)
      (fun out m' => ∀ result, out = .ok result → (result.success = true ↔ m'.Present path)) m := by
  refine (exists?_tells path m (.refl m)).onward fun there m₁ looked => ?_
  have told := looked.2 there rfl
  dsimp only
  split
  · next here =>
    intro result done
    cases done
    exact iff_of_true rfl (looked.1.present.mpr (told.mp here))
  refine (Leaves.log _ _ _ m₁ (.refl m₁)).onward fun _ m₂ _ => ?_
  -- whatever the walk does, the look after it counts
  have walked : (walkSegments uid gid intermediateMode finalMode (Path.ancestors path)).Meets
      Untroubled (fun _ _ => True) (fun _ _ => True) m₂ :=
    (meets_anything _ m₂).of_guarded fun _ _ _ _ _ step => step.1
  refine walked.onward fun _ m₃ _ => ?_
  split
  · next none => exact absurd (List.isEmpty_iff.mp none) some
  refine (exists?_tells path m₃ (.refl m₃)).onward fun there m₄ looked => ?_
  have told := looked.2 there rfl
  split
  · next here =>
    refine (Leaves.log _ _ _ m₄ (.refl m₄)).onward fun _ m₅ noted result done => ?_
    cases done
    exact iff_of_true rfl ((looked.1.trans noted.1).present.mpr (told.mp here))
  · next gone =>
    intro result done
    cases done
    exact iff_of_false Bool.false_ne_true fun found => gone (told.mpr (looked.1.present.mp found))

/-! ## Coming back -/

theorem onTree_regular : OnTree fun m => m.tree.Regular where
  regular := fun _ regular => regular
  same := fun _ _ tree _ regular => tree ▸ regular

section

variable {user segment : String} {uid gid mode intermediateMode finalMode : Int}

theorem exists?_settles (text : checkText path = .ok ()) :
    (exists? path).Settles fun m => m.tree.Regular := by
  refine .of_keeps ((Keeps.attempt ?_).bind fun looked => ?_) (exists?_handles path)
  · exact onTree_regular.keeps (c := .stat path) rfl text .ofExcept
  · cases looked <;> exact .done _

theorem ensureDirectory_settles_regular (text : checkText path = .ok ())
    (owner : checkId false uid = .ok () ∧ checkId true gid = .ok ())
    (valid : checkModeArgument mode = .ok ()) :
    (ensureDirectory path uid gid mode).Settles fun m => m.tree.Regular := by
  have calls : DirectoryCalls Steady sound (fun m => m.tree.Regular) (fun m => m.tree.Regular)
      path uid gid mode :=
    { note := onTree_regular.note
      stat := onTree_regular.keeps (c := .stat path) rfl text .ofExcept
      umask := fun mask => onTree_regular.keeps (c := .umask mask) rfl trivial .ofExcept
      umaskNew := fun mask => onTree_regular.keeps (c := .umask mask) rfl trivial .ofExcept
      mkdir := fun m regular => by
        refine steady_call rfl ⟨⟨text, valid⟩, regular⟩ fun orderly =>
          steady_changed orderly (fun m' done => ?_) fun e => ⟨regular, fun _ bad => by cases bad⟩
        obtain ⟨s, made⟩ := mkdir_ok done
        have kept := Regular.created regular (directoryBits_lt m _) rfl made
        exact ⟨kept, fun _ _ => kept⟩
      chown := fun m regular => by
        refine steady_call rfl ⟨⟨text, owner⟩, regular⟩ fun orderly =>
          steady_changed orderly (fun m' done => ?_) fun e => regular
        obtain ⟨i, _, _, changed⟩ := chown_ok done
        exact Regular.changed regular changed
      leave := fun _ => id }
  exact .of_keeps calls.ensureDirectory (ensureDirectory_handles _ _ _ _)

theorem finishSegment_settles (result : StepResult) :
    (finishSegment segment result).Settles fun m => m.tree.Regular := by
  unfold finishSegment
  dsimp only
  split
  · exact (onTree_regular.log _ _ _).bind fun _ => onTree_regular.pause
  · exact onTree_regular.pause

section

variable (owner : checkId false uid = .ok () ∧ checkId true gid = .ok ())
  (modes : checkModeArgument intermediateMode = .ok () ∧ checkModeArgument finalMode = .ok ())
include owner modes

theorem walkSegments_settles {segments : List String}
    (texts : ∀ segment ∈ segments, checkText segment = .ok ()) :
    (walkSegments uid gid intermediateMode finalMode segments).Settles fun m => m.tree.Regular := by
  induction segments with
  | nil => exact .done _
  | cons segment rest ih =>
    obtain ⟨text, others⟩ := List.forall_mem_cons.mp texts
    cases rest with
    | nil =>
      exact (ensureDirectory_settles_regular text owner modes.2).bind finishSegment_settles
    | cons next more =>
      exact (ensureDirectory_settles_regular text (by decide) modes.1).bind fun result =>
        (finishSegment_settles result).bind fun _ => ih others

theorem ensurePath_settles (text : checkText path = .ok ()) (user : String) :
    (ensurePath path user uid gid intermediateMode finalMode).Settles fun m => m.tree.Regular := by
  have finish : ∀ there : Bool, (if there = true then do
        log .debug "Home directory created" [("path", .text path), ("user", .text user)]
        return .ok (some path)
      else return .failure .path path ("home directory for " ++ user ++ " was not created") :
      Program StepResult).Settles fun m => m.tree.Regular := by
    intro there
    split
    · exact (onTree_regular.log _ _ _).bind fun _ => .done _
    · exact .done _
  refine (exists?_settles text).bind fun there => ?_
  dsimp only
  split
  · exact .done _
  refine (onTree_regular.log _ _ _).bind fun _ =>
    (walkSegments_settles owner modes (Path.checkText_ancestors text)).bind fun _ => ?_
  split
  · exact finish false
  · exact (exists?_settles text).bind finish

end

end

/-! ## Runs -/

/-- Making sure of a path comes back, with a success exactly if the path leads to something in the
end. If the path is followed from the root, this is the goal of the walk. -/
theorem ensurePath_tells {σ : Type} {world : Layer σ} {view : σ → Machine}
    (keeps : world.KeepsTo Undisturbed view) {s : σ} (regular : (view s).tree.Regular)
    {uid gid intermediateMode finalMode : Int} (text : checkText path = .ok ())
    (owner : checkId false uid = .ok () ∧ checkId true gid = .ok ())
    (modes : checkModeArgument intermediateMode = .ok () ∧ checkModeArgument finalMode = .ok ())
    (user : String) (last : (Path.ancestors path).getLast? = some goal) :
    let ends := (ensurePath path user uid gid intermediateMode finalMode).run world s
    ∃ result, ends.1 = .ok result ∧
      (result.success = true ↔ (view ends.2).Present path) ∧
      (StartsAtRoot (view s).current path → path.utf8ByteSize < pathLimit →
        goal.utf8ByteSize < pathLimit →
        (result.success = true ↔ (view ends.2).Present goal ∧
          (Path.endsInSlash path = true → (view ends.2).LeadsToDirectory goal))) := by
  intro ends
  have more : Path.ancestors path ≠ [] := fun none => by rw [none] at last; cases last
  obtain ⟨⟨result, done⟩, _⟩ := Meets.run keeps
    (ensurePath_settles owner modes text user (view s) regular).undisturbed
  have stays : ∀ c m r m', Untroubled c m r m' → m.current = (view s).current →
      m'.current = (view s).current := fun _ _ _ _ step same => step.since.current.trans same
  have meets := (ensurePath_meets more user uid gid intermediateMode finalMode (view s)).along
    stays rfl
  obtain ⟨told, current⟩ := Meets.run keeps
    (meets.of_guarded fun _ _ _ _ _ step => step.untroubled)
  have told := told result done
  refine ⟨result, done, told, fun starts short short' => told.trans ?_⟩
  have some := components_of_ancestors more
  have h := Path.isGoal_of_last last
  have full : path ≠ "" := fun empty => some (by rw [empty]; rfl)
  rw [← current] at starts
  exact present_iff_goal h starts (Tree.checkPath_eq_ok full short)
    (Tree.checkPath_eq_ok h.full short') some text
    (Path.checkText_ancestors text goal (List.mem_of_getLast? last))

/-- In another directory than the root the walk makes `/home/alice`, and the look after it looks for
`home/alice` there. With a slash in front both speak of the same place. -/
theorem ensurePath_tells_elsewhere :
    let visitor := { sample with current := "/skel" }
    let make (path : String) := (ensurePath path "alice" 7 7 0o711 0o700).run layer visitor
    (make "home/alice").1 =
        .ok (.failure .path "home/alice" "home directory for alice was not created") ∧
      ¬ (make "home/alice").2.Present "home/alice" ∧
      (make "home/alice").2.Present "/home/alice" ∧
      (make "/home/alice/").1 = .ok (.ok (some "/home/alice/")) ∧
      (make "/home/alice/").2.LeadsToDirectory "/home/alice" := by
  intro visitor make
  have texts : ∀ path ∈ ["home/alice", "/home/alice/"], checkText path = .ok () := by decide
  have lasts : ∀ path ∈ ["home/alice", "/home/alice/"],
      (Path.ancestors path).getLast? = some "/home/alice" := by decide
  have tells : ∀ path ∈ ["home/alice", "/home/alice/"], ∃ result, (make path).1 = .ok result ∧
      (result.success = true ↔ (make path).2.Present path) ∧
      (StartsAtRoot "/skel" path → path.utf8ByteSize < pathLimit →
        "/home/alice".utf8ByteSize < pathLimit →
        (result.success = true ↔ (make path).2.Present "/home/alice" ∧
          (Path.endsInSlash path = true → (make path).2.LeadsToDirectory "/home/alice"))) :=
    fun path mem => ensurePath_tells layer_undisturbed (s := visitor) sample_regular
      (texts path mem) (by decide) (by decide) "alice" (lasts path mem)
  have failed : (make "home/alice").1 =
      .ok (.failure .path "home/alice" "home directory for alice was not created") := by
    decide +kernel
  have made : (make "/home/alice/").1 = .ok (.ok (some "/home/alice/")) := by decide +kernel
  refine ⟨failed, fun present => ?_, ?_, made, ?_⟩
  · obtain ⟨result, done, told, _⟩ := tells "home/alice" (by decide)
    cases failed.symm.trans done
    cases told.mpr present
  · have looked : ((make "home/alice").2.statusOf true "/home/alice").isOk = true := by
      decide +kernel
    unfold Present
    cases out : (make "home/alice").2.statusOf true "/home/alice" with
    | ok status => exact ⟨status, rfl⟩
    | error f => rw [out] at looked; cases looked
  · obtain ⟨result, done, _, told⟩ := tells "/home/alice/" (by decide)
    cases made.symm.trans done
    exact ((told (.inl (by decide)) (by decide) (by decide)).mp rfl).2 (by decide)

end Program

end HomeProvision
