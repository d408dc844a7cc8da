import HomeProvision.Proofs.Anchored
import HomeProvision.Proofs.Whole

/-!
# The way to a home

Where a path leads up to a directory and goes on with a name that is free there (`LeadsUpTo`), making
sure of it makes what is missing and nothing else: one directory in the other (`erectAll`), those above
the home for the administrator and the home for its user (`wantedOn`). How many are made is up to the
path, and so everything here is by induction on its names: those that are there are passed with nothing
done, through links if need be, and from the first one that is missing on each is made in the one
before.

A part of what is missing may have been made before. Then the path leads up to the last one that was
made, and the rest of them is made there (`LeadsUpTo.erectAll`).

A path has to be one that the file system can hold (`IsOrdinary`). A name that is too long for a
directory is refused (`ensurePath_run_long`).
-/

namespace HomeProvision

/-! ## How long the paths on a way are -/

namespace Path

/-- How many bytes components take, each after a slash. -/
def joinedSize : List String → Nat
  | [] => 0
  | part :: rest => part.utf8ByteSize + 1 + joinedSize rest

theorem joinedSize_pieces (cs : List Char) :
    joinedSize ((pieces cs).map String.ofList) = (String.ofList cs).utf8ByteSize + 1 := by
  induction cs with
  | nil => rfl
  | cons c rest ih =>
    unfold pieces
    split
    · next slash =>
      subst slash
      simp only [List.map_cons, joinedSize] at ih ⊢
      rw [ih, String.ofList_cons, String.utf8ByteSize_append, String.utf8ByteSize_singleton]
      simp only [String.ofList_nil, String.utf8ByteSize_empty]
      rw [show '/'.utf8Size = 1 by decide]
      omega
    · split
      · next none => exact absurd none (pieces_ne_nil rest)
      · next piece more split =>
        rw [split] at ih
        simp only [List.map_cons, joinedSize] at ih ⊢
        rw [String.ofList_cons, String.ofList_cons, String.utf8ByteSize_append,
          String.utf8ByteSize_append]
        omega

theorem joinedSize_filter (keep : List Char → Bool) (pieces : List (List Char)) :
    joinedSize ((pieces.filter keep).map String.ofList) ≤ joinedSize (pieces.map String.ofList) := by
  induction pieces with
  | nil => exact Nat.le_refl _
  | cons piece more ih =>
    rw [List.filter_cons]
    split
    · exact Nat.add_le_add_left ih _
    · exact Nat.le_trans ih (Nat.le_add_left _ _)

variable {path current : String} {parts : List String}

/-- The components of an absolute path, each after a slash, are no longer than the path. -/
theorem joinedSize_components (absolute : isAbsolute path = true) :
    joinedSize (components path) ≤ path.utf8ByteSize := by
  obtain ⟨rest, spelled⟩ : ∃ rest, path.toList = '/' :: rest := by
    unfold isAbsolute at absolute
    cases cs : path.toList with
    | nil => simp [cs] at absolute
    | cons c rest => exact ⟨rest, by simpa [cs] using absolute⟩
  have whole : path = String.ofList ('/' :: rest) := by rw [← spelled, String.ofList_toList]
  -- the piece in front of the first slash is empty
  have behind : components path = ((pieces rest).filter (!·.isEmpty)).map String.ofList := by
    unfold components
    rw [spelled]
    simp [pieces]
  rw [behind, whole, String.ofList_cons, String.utf8ByteSize_append, String.utf8ByteSize_singleton,
    show '/'.utf8Size = 1 by decide, Nat.add_comm 1, ← joinedSize_pieces]
  exact joinedSize_filter _ _

theorem utf8ByteSize_join_le (directory name : String) (own : IsComponent name) :
    (join directory name).utf8ByteSize ≤ directory.utf8ByteSize + (name.utf8ByteSize + 1) := by
  rw [join_component own]
  split
  · rw [String.utf8ByteSize_append]
    omega
  · rw [String.utf8ByteSize_append, String.utf8ByteSize_append,
      show "/".utf8ByteSize = 1 by decide]
    omega

theorem utf8ByteSize_descend (fit : ∀ part ∈ parts, IsComponent part) :
    ∀ step ∈ descend current parts,
      step.utf8ByteSize ≤ current.utf8ByteSize + joinedSize parts := by
  induction parts generalizing current with
  | nil => exact fun _ mem => absurd mem List.not_mem_nil
  | cons part rest ih =>
    obtain ⟨own, others⟩ := List.forall_mem_cons.mp fit
    have first := utf8ByteSize_join_le current part own
    have whole : joinedSize (part :: rest) = part.utf8ByteSize + 1 + joinedSize rest := rfl
    intro step mem
    rcases List.mem_cons.mp mem with rfl | mem
    · omega
    · have later := ih others step mem
      omega

theorem descend_ne_empty (fit : ∀ part ∈ parts, IsComponent part) :
    ∀ step ∈ descend current parts, step ≠ "" := by
  induction parts generalizing current with
  | nil => exact fun _ mem => absurd mem List.not_mem_nil
  | cons part rest ih =>
    obtain ⟨own, others⟩ := List.forall_mem_cons.mp fit
    exact List.forall_mem_cons.mpr ⟨join_ne_empty own, ih others⟩

/-- The directories on the way to an absolute path are no longer than the path. -/
theorem utf8ByteSize_ancestors (absolute : isAbsolute path = true) :
    ∀ step ∈ ancestors path, step.utf8ByteSize ≤ path.utf8ByteSize := by
  have fits := joinedSize_components absolute
  have fit : ∀ part ∈ components path, IsComponent part := fun _ mem => isComponent_of_mem mem
  unfold ancestors
  cases split : components path with
  | nil => exact fun _ mem => absurd mem List.not_mem_nil
  | cons part rest =>
    rw [split] at fits fit
    obtain ⟨own, others⟩ := List.forall_mem_cons.mp fit
    have first : (join "/" part).utf8ByteSize = part.utf8ByteSize + 1 := by
      rw [join_component own, if_pos (by decide), String.utf8ByteSize_append, Nat.add_comm]
      rfl
    have whole : joinedSize (part :: rest) = part.utf8ByteSize + 1 + joinedSize rest := rfl
    intro step mem
    rcases List.mem_cons.mp mem with rfl | mem
    · omega
    · have later := utf8ByteSize_descend others step mem
      omega

end Path

/-! ## New directories -/

/-- A directory that is wanted in another one. -/
structure Wanted where
  name : String
  uid : Int
  gid : Int
  mode : Int

section

variable (uid gid intermediateMode finalMode : Int)

/-- What is wanted of the next directory on a way: the last one is the user's, and those above it are
the administrator's. -/
def wantedNext (name : String) (rest : List String) : Wanted :=
  if rest.isEmpty then ⟨name, uid, gid, finalMode⟩
  else ⟨name, Program.administrator, Program.administrator, intermediateMode⟩

/-- The directories that are wanted on the rest of a way. -/
def wantedOn : List String → List Wanted
  | [] => []
  | name :: rest => wantedNext uid gid intermediateMode finalMode name rest :: wantedOn rest

theorem wantedNext_name (name : String) (rest : List String) :
    (wantedNext uid gid intermediateMode finalMode name rest).name = name := by
  unfold wantedNext
  split <;> rfl

theorem length_wantedOn (missing : List String) :
    (wantedOn uid gid intermediateMode finalMode missing).length = missing.length := by
  induction missing with
  | nil => rfl
  | cons name rest ih => exact congrArg (· + 1) ih

theorem wantedOn_drop (missing : List String) (made : Nat) :
    (wantedOn uid gid intermediateMode finalMode missing).drop made =
      wantedOn uid gid intermediateMode finalMode (missing.drop made) := by
  induction missing generalizing made with
  | nil => rw [wantedOn, List.drop_nil, List.drop_nil, wantedOn]
  | cons name rest ih =>
    cases made with
    | zero => rfl
    | succ made => exact ih made

end

namespace Machine

/-- The machine with one more directory in another one. Only the administrator gives it away. -/
def erect (m : Machine) (above : Nat) (w : Wanted) : Machine :=
  m.withDirectory above w.name
    (handedOver (m.effectiveUid ≠ 0) w.uid w.gid (m.newDirectory above w.mode))

/-- The machine with more directories, each in the one before. -/
def erectAll : Machine → (above : Nat) → List Wanted → Machine
  | m, _, [] => m
  | m, above, w :: rest => (m.erect above w).erectAll m.tree.nextPlace rest

end Machine

open Machine

theorem layer_falters (spared : Call → Prop) : layer.KeepsTo (Faltering spared) id :=
  fun c m => .answered c m

variable {m : Machine} {directory : String} {q : Place} {w : Wanted}

theorem Vacancy.createdDirectory (v : Vacancy m.tree m.current directory w.name q) :
    CreatedDirectory m (Path.join directory w.name) w.mode ⟨q.node, w.name⟩ :=
  ⟨Tree.spot_join v.full v.own v.short.1 v.short.2 v.leads, v.own, v.free, rfl, rfl, rfl⟩

namespace Program

/-! ## Runs on a machine -/

theorem run_mkdir {m m' : Machine} {path : String} {mode : Int}
    (made : m.mkdir path mode = .ok m') : (mkdir path mode).run layer m = (.ok (), m') := by
  change (ofExcept (m.changed (m.mkdir path mode)).1).run layer (m.changed (m.mkdir path mode)).2 = _
  rw [made]
  rfl

theorem run_stat (path : String) (m : Machine) :
    (stat path).run layer m = (m.statusOf true path, m) :=
  run_ofExcept layer _ m

theorem run_chown (path : String) (uid gid : Int) (m : Machine) :
    (chown path uid gid).run layer m = m.changed (m.chown true path uid gid) :=
  run_ofExcept layer _ _

section

variable (v : Vacancy m.tree m.current directory w.name q)
  (text : checkText (Path.join directory w.name) = .ok ()) (fits : m.mask < 0o1000)
  (owner : checkId false w.uid = .ok () ∧ checkId true w.gid = .ok ())
  (valid : checkModeArgument w.mode = .ok ())
include v text

include valid in
theorem createDirectory_erects (clear : m.mask = 0) :
    (createDirectory (Path.join directory w.name) w.mode).run layer m =
      (.ok none, m.withDirectory q.node w.name (m.newDirectory q.node w.mode)) := by
  have made : m.mkdir (Path.join directory w.name) w.mode =
      .ok (m.withDirectory q.node w.name (m.newDirectory q.node w.mode)) := by
    have same : m = { m with mask := 0 } := by rw [← clear]
    have bits : m.directoryBits w.mode = grantedBits w.mode 0o1777 := by
      rw [same]
      exact directoryBits_unmasked m w.mode
    unfold Machine.mkdir
    rw [text, valid]
    refine (createAt_free v.leads v.short v.free v.full v.own (.one _) (m.directoryBits w.mode)
      (.directory [] false)).trans ?_
    rw [bits]
    rfl
  have tried : (attempt (mkdir (Path.join directory w.name) w.mode)).run layer m =
      (.ok (.ok ()), m.withDirectory q.node w.name (m.newDirectory q.node w.mode)) := by
    rw [run_attempt, run_mkdir made]
  exact run_bind_ok tried

include fits valid in
theorem withClearMask_erects :
    (withClearMask (createDirectory (Path.join directory w.name) w.mode)).run layer m =
      (.ok none, m.withDirectory q.node w.name (m.newDirectory q.node w.mode)) := by
  have cleared : (umask 0).run layer m = (.ok (m.mask : Int), { m with mask := 0 }) := rfl
  refine (run_bind_ok cleared).trans ?_
  have vacant : Vacancy ({ m with mask := 0 } : Machine).tree m.current directory w.name q := v
  have tried := createDirectory_erects (m := { m with mask := 0 }) vacant text valid rfl
  have restored (m' : Machine) : (umask m.mask >>= fun _ => pure () : Program Unit).run layer m' =
      (.ok (), { m' with mask := m.mask }) := by
    change (Except.ok (), ({ m' with mask := grantedBits (m.mask : Int) 0o777 } : Machine)) = _
    rw [Program.Holding.grantedBits_mask fits]
  refine (run_ensuring layer (restored _)).trans ?_
  rw [tried]
  rfl

include owner in
theorem chown_erects :
    ∃ out, (attempt (chown (Path.join directory w.name) w.uid w.gid)).run layer
        (m.withDirectory q.node w.name (m.newDirectory q.node w.mode)) =
      (.ok out, m.erect q.node w) := by
  rw [run_attempt, run_chown, v.createdDirectory.chown text, owner.1, owner.2]
  unfold erect handedOver
  by_cases other : m.effectiveUid ≠ 0
  · refine ⟨.error (.numbered .notPermitted (.one (Path.join directory w.name))), ?_⟩
    rw [if_pos other, if_pos (decide_eq_true other)]
    rfl
  · refine ⟨.ok (), ?_⟩
    rw [if_neg other, if_neg (by simpa using other)]
    rfl

include fits owner valid

/-- Making a directory that is missing. -/
theorem makeDirectory_erects :
    (makeDirectory (Path.join directory w.name) w.uid w.gid w.mode).run layer m =
      (.ok (.ok (some (Path.join directory w.name))), m.erect q.node w) := by
  refine (run_bind_ok (withClearMask_erects v text fits valid)).trans ?_
  obtain ⟨out, handed⟩ := chown_erects v text owner
  refine (run_bind_ok handed).trans ?_
  cases out <;> rfl

theorem ensureDirectory_erects :
    (ensureDirectory (Path.join directory w.name) w.uid w.gid w.mode).run layer m =
      (.ok (.ok (some (Path.join directory w.name))), m.erect q.node w) := by
  have looked : (attempt (stat (Path.join directory w.name))).run layer m =
      (.ok (.error (.numbered .noEntry (.one (Path.join directory w.name)))), m) := by
    have missing := Free.statusOf v.full v.own ⟨q, v.leads, v.short, v.free⟩ text true
    rw [run_attempt, run_stat, missing]
    rfl
  exact (run_bind_ok looked).trans (makeDirectory_erects v text fits owner valid)

end

/-! ## The way -/

variable {uid gid intermediateMode finalMode : Int}

theorem finishSegment_run (segment : String) (result : StepResult) (m : Machine) :
    (finishSegment segment result).run layer m = (.ok (), m) := by
  unfold finishSegment
  dsimp only
  split <;> rfl

/-- The next segment of a way, and then the rest. -/
theorem walkSegments_descend (directory name : String) (rest : List String) :
    let w := wantedNext uid gid intermediateMode finalMode name rest
    walkSegments uid gid intermediateMode finalMode (Path.descend directory (name :: rest)) =
      (passSegment (Path.join directory name) w.uid w.gid w.mode).bind fun _ =>
        walkSegments uid gid intermediateMode finalMode
          (Path.descend (Path.join directory name) rest) := by
  cases rest with
  | nil => exact (bind_done _).symm
  | cons next more => exact walkSegments_cons uid gid intermediateMode finalMode _ _ _

theorem passSegment_run {segment : String} {result : StepResult} {mode : Int} {m m' : Machine}
    (made : (ensureDirectory segment uid gid mode).run layer m = (.ok result, m')) :
    (passSegment segment uid gid mode).run layer m = (.ok (), m') :=
  (run_bind_ok made).trans (finishSegment_run segment result m')

end Program

namespace Machine

theorem Tree.walk_front {t : Tree} {links : Nat} {p q : Place} {first last : List String}
    (leads : t.walk true links p ⟨first ++ last, true⟩ = .ok q) :
    ∃ r, t.walk true links p ⟨first, true⟩ = .ok r := by
  cases reached : t.walk true links p ⟨first, true⟩ with
  | ok r => exact ⟨r, rfl⟩
  | error e =>
    rcases List.eq_nil_or_concat last with rfl | ⟨_, _, rfl⟩
    · rw [List.append_nil, reached] at leads
      cases leads
    · rw [walk_append_error (by simp) reached] at leads
      cases leads

/-- Beyond a name that is missing there is nothing. -/
theorem Tree.walk_append_none {t : Tree} {follow directory : Bool} {links : Nat} {p q : Place}
    {name : String} {first more : List String} (own : Path.IsName name)
    (short : name.utf8ByteSize ≤ nameLimit) (leads : t.walk true links p ⟨first, true⟩ = .ok q)
    (free : t.child? q.node name = none) :
    t.walk follow links p ⟨first ++ name :: more, directory⟩ = .error .noEntry := by
  rw [List.append_cons]
  rcases List.eq_nil_or_concat more with rfl | ⟨_, _, rfl⟩
  · rw [List.append_nil]
    exact walk_snoc_none own short leads free
  · exact walk_append_error (by simp) (walk_snoc_none own short leads free)

/-- An absolute path leads to the directory that its components lead to from the root. -/
theorem Tree.directoryAt_absolute {t : Tree} {current path : String}
    (absolute : Path.isAbsolute path = true) (valid : Tree.checkPath path = .ok ()) :
    t.directoryAt current path = t.walk true linkLimit .root ⟨Path.components path, true⟩ := by
  unfold Tree.directoryAt Tree.start
  rw [valid, if_pos absolute]
  rfl

theorem present_of_directoryAt {m : Machine} {path : String} {q : Place}
    (text : checkText path = .ok ()) (leads : m.tree.directoryAt m.current path = .ok q) :
    m.Present path := by
  obtain ⟨leads, dir⟩ := Tree.directoryAt_eq_ok_iff.mp leads
  exact (present_iff text).mpr ⟨q, leads, Tree.node?_ne_none_of_isDirectory dir⟩

end Machine

/-- Names that can be looked up and created one below the other. -/
structure Passable (directory : String) (names : List String) : Prop where
  own : ∀ name ∈ names, Path.IsName name ∧ name.utf8ByteSize ≤ nameLimit
  steps : ∀ step ∈ Path.descend directory names,
    checkText step = .ok () ∧ Tree.checkPath step = .ok ()

theorem Passable.tail {name : String} {rest : List String} (h : Passable directory (name :: rest)) :
    Passable (Path.join directory name) rest where
  own := fun n mem => h.own n (List.mem_cons_of_mem _ mem)
  steps := fun step mem => h.steps step (List.mem_cons_of_mem _ mem)

section

variable {name : String} {rest : List String} (h : Passable directory (name :: rest))
include h

theorem Passable.isName : Path.IsName name :=
  (h.own name List.mem_cons_self).1

theorem Passable.text : checkText (Path.join directory name) = .ok () :=
  (h.steps _ List.mem_cons_self).1

theorem Passable.short : ShortBelow directory name :=
  ⟨(h.steps _ List.mem_cons_self).2, (h.own name List.mem_cons_self).2⟩

end

namespace Machine

variable {i : Nat} (dir : m.tree.isDirectory i = true)
include dir

/-- A new directory is empty. -/
theorem erect_entries : (m.erect i w).tree.entries? m.tree.nextPlace = some [] := by
  refine (Tree.entries?_of_node? (Tree.node?_create_new (Tree.lt_of_isDirectory dir))).trans ?_
  unfold handedOver
  split <;> rfl

theorem erect_free (next : String) : (m.erect i w).tree.child? m.tree.nextPlace next = none := by
  simp [Tree.child?, erect_entries dir]

variable (free : m.tree.child? i w.name = none)
include free

theorem erect_grows : m.tree.Grows (m.erect i w).tree :=
  Tree.Grows.create (Tree.lt_of_isDirectory dir) free

theorem erect_child : (m.erect i w).tree.child? i w.name = some m.tree.nextPlace :=
  Tree.child?_create_new dir free

end Machine

/-- The next directory on a way is reached. -/
theorem Vacancy.erect (v : Vacancy m.tree m.current directory w.name q) :
    (m.erect q.node w).tree.directoryAt (m.erect q.node w).current (Path.join directory w.name) =
      .ok (q.step m.tree.nextPlace) := by
  have dir := Tree.isDirectory_of_directoryAt v.leads
  exact Tree.directoryAt_join v.full v.own v.short.1 v.short.2
    ((erect_grows dir v.free).directoryAt v.leads) (erect_child dir v.free)
    (Tree.isDirectory_of_entries? (erect_entries dir))

namespace Program

variable {uid gid intermediateMode finalMode : Int} {missing : List String}

theorem wantedNext_proper (owner : checkId false uid = .ok () ∧ checkId true gid = .ok ())
    (modes : checkModeArgument intermediateMode = .ok () ∧ checkModeArgument finalMode = .ok ())
    (name : String) (rest : List String) :
    let w := wantedNext uid gid intermediateMode finalMode name rest
    (checkId false w.uid = .ok () ∧ checkId true w.gid = .ok ()) ∧
      checkModeArgument w.mode = .ok () := by
  intro w
  unfold w wantedNext
  split
  · exact ⟨owner, modes.2⟩
  · exact ⟨⟨rfl, rfl⟩, modes.1⟩

section

variable (fits : m.mask < 0o1000)
  (owner : checkId false uid = .ok () ∧ checkId true gid = .ok ())
  (modes : checkModeArgument intermediateMode = .ok () ∧ checkModeArgument finalMode = .ok ())
include fits owner modes

/-- What is missing on a way is made. -/
theorem walkSegments_erects (leads : m.tree.directoryAt m.current directory = .ok q)
    (free : ∀ name ∈ missing.head?, m.tree.child? q.node name = none)
    (passable : Passable directory missing) :
    (walkSegments uid gid intermediateMode finalMode (Path.descend directory missing)).run layer m =
      (.ok (), m.erectAll q.node (wantedOn uid gid intermediateMode finalMode missing)) := by
  induction missing generalizing m directory q with
  | nil => rfl
  | cons name rest ih =>
    have named := wantedNext_name uid gid intermediateMode finalMode name rest
    obtain ⟨given, valid⟩ := wantedNext_proper owner modes name rest
    rw [walkSegments_descend]
    generalize wanted : wantedNext uid gid intermediateMode finalMode name rest = w at *
    subst named
    have v : Vacancy m.tree m.current directory w.name q :=
      ⟨Tree.nonempty_of_directoryAt leads, passable.isName, passable.short, leads, free w.name rfl⟩
    have made := passSegment_run (ensureDirectory_erects v passable.text fits given valid)
    refine (run_bind_ok made).trans ?_
    have dir := Tree.isDirectory_of_directoryAt leads
    rw [ih (m := m.erect q.node w) fits v.erect (fun next _ => erect_free dir next) passable.tail]
    rw [wantedOn, wanted]
    rfl

/-- What is there on a way is left as it is, and what is missing is made. -/
theorem walkSegments_lays {above : List String} (absolute : Path.isAbsolute directory = true)
    (valid : Tree.checkPath directory = .ok ())
    (leads : m.tree.walk true linkLimit .root ⟨Path.components directory ++ above, true⟩ = .ok q)
    (free : ∀ name ∈ missing.head?, m.tree.child? q.node name = none)
    (passable : Passable directory (above ++ missing)) :
    (walkSegments uid gid intermediateMode finalMode
        (Path.descend directory (above ++ missing))).run layer m =
      (.ok (), m.erectAll q.node (wantedOn uid gid intermediateMode finalMode missing)) := by
  induction above generalizing directory with
  | nil =>
    rw [List.append_nil] at leads
    exact walkSegments_erects fits owner modes
      ((Tree.directoryAt_absolute absolute valid).trans leads) free passable
  | cons name rest ih =>
    have fit := passable.isName.toIsComponent
    have full := Tree.nonempty_of_checkPath valid
    have split : Path.components directory ++ name :: rest =
        Path.components (Path.join directory name) ++ rest := by
      rw [Path.components_join full fit, List.append_assoc, List.singleton_append]
    have absolute' := (Path.isAbsolute_join full fit).trans absolute
    rw [split] at leads
    obtain ⟨r, reached⟩ := Tree.walk_front leads
    have found := ensureDirectory_found (present_of_directoryAt passable.text
      ((Tree.directoryAt_absolute absolute' passable.short.1).trans reached))
    rw [List.cons_append, walkSegments_descend]
    refine (run_bind_ok (passSegment_run (found _ _ _))).trans ?_
    exact ih absolute' passable.short.1 leads passable.tail

end

end Program

/-! ## How far a path leads -/

/-- A path from the root on, of names that a file system can hold. -/
structure IsOrdinary (path : String) : Prop where
  absolute : Path.isAbsolute path = true
  names : ∀ name ∈ Path.components path, Path.IsName name ∧ name.utf8ByteSize ≤ nameLimit
  short : path.utf8ByteSize < pathLimit
  text : checkText path = .ok ()

theorem IsOrdinary.passable {path : String} (h : IsOrdinary path) :
    Passable "/" (Path.components path) where
  own := h.names
  steps := by
    intro step mem
    have full := Path.descend_ne_empty (fun _ mem => Path.isComponent_of_mem mem) step mem
    have size := Path.utf8ByteSize_ancestors h.absolute step mem
    exact ⟨Path.checkText_ancestors h.text step mem,
      Tree.checkPath_eq_ok full (Nat.lt_of_le_of_lt size h.short)⟩

namespace Machine

/-- How far a path leads: its first names lead to a directory, and the next one is free there. -/
structure LeadsUpTo (m : Machine) (path : String) (above : List String) (q : Place)
    (missing : List String) : Prop where
  split : Path.components path = above ++ missing
  leads : m.tree.walk true linkLimit .root ⟨above, true⟩ = .ok q
  free : ∀ name ∈ missing.head?, m.tree.child? q.node name = none

variable {path : String} {above missing rest : List String} {name : String}

/-- A path leads one directory further when this is made. -/
theorem LeadsUpTo.erect (h : m.LeadsUpTo path above q (w.name :: rest)) (own : Path.IsName w.name)
    (short : w.name.utf8ByteSize ≤ nameLimit) :
    (m.erect q.node w).LeadsUpTo path (above ++ [w.name]) (q.step m.tree.nextPlace) rest := by
  have dir := ((Tree.walk_directory m.tree _ _ _ true q).mp h.leads).2
  have free := h.free w.name rfl
  refine ⟨by rw [h.split, List.append_assoc, List.singleton_append], ?_,
    fun next _ => erect_free dir next⟩
  have new := Tree.isDirectory_of_entries? (erect_entries (w := w) dir)
  have noLink := Tree.target?_of_isDirectory new
  refine (Tree.walk_directory _ _ _ _ false _).mpr ⟨?_, new⟩
  exact Tree.walk_snoc_some own short
    ((erect_grows dir free).walk (Tree.node?_ne_none_of_isDirectory dir) h.leads)
    (erect_child dir free) (.inl noLink)

@[simp]
theorem erectAll_nil (i : Nat) : m.erectAll i [] = m :=
  rfl

/-- Directories that are made one in the other change no node but the one that the first is in. -/
theorem node?_erectAll {i k : Nat} {n : Node} (dir : m.tree.isDirectory i = true) (other : k ≠ i)
    (here : m.tree.node? k = some n) (ws : List Wanted) :
    (m.erectAll i ws).tree.node? k = some n := by
  induction ws generalizing m i with
  | nil => exact here
  | cons w rest ih =>
    have old := Tree.lt_of_node? here
    refine ih (Tree.isDirectory_of_entries? (erect_entries dir)) (Nat.ne_of_lt old) ?_
    exact (Tree.node?_create_old (Tree.lt_of_isDirectory dir) other old).trans here

theorem erectAll_mask (i : Nat) (ws : List Wanted) : (m.erectAll i ws).mask = m.mask := by
  induction ws generalizing m i with
  | nil => rfl
  | cons w rest ih => exact ih _

section

variable (uid gid intermediateMode finalMode : Int)

/-- A path leads further by as many directories as are made of the missing ones. The rest of them is
missing then, and whatever is made further is made in the last one. -/
theorem LeadsUpTo.erectAll (h : m.LeadsUpTo path above q missing)
    (names : ∀ name ∈ missing, Path.IsName name ∧ name.utf8ByteSize ≤ nameLimit) (made : Nat) :
    let few := (wantedOn uid gid intermediateMode finalMode missing).take made
    ∃ q', (m.erectAll q.node few).LeadsUpTo path (above ++ missing.take made) q'
        (missing.drop made) ∧
      ∀ more, (m.erectAll q.node few).erectAll q'.node more = m.erectAll q.node (few ++ more) := by
  induction missing generalizing m above q made with
  | nil => exact ⟨q, by simpa [wantedOn] using h, fun more => by simp [wantedOn]⟩
  | cons name rest ih =>
    cases made with
    | zero => exact ⟨q, by simpa using h, fun _ => rfl⟩
    | succ made =>
      obtain ⟨own, others⟩ := List.forall_mem_cons.mp names
      intro few
      have named : (wantedNext uid gid intermediateMode finalMode name rest).name = name :=
        wantedNext_name uid gid intermediateMode finalMode name rest
      rw [← named] at h own
      obtain ⟨q', further, whole⟩ := ih (h.erect own.1 own.2) others made
      refine ⟨q', ?_, whole⟩
      rw [List.append_assoc, List.singleton_append, named] at further
      exact further

theorem LeadsUpTo.erected (h : m.LeadsUpTo path above q missing)
    (names : ∀ name ∈ missing, Path.IsName name ∧ name.utf8ByteSize ≤ nameLimit) :
    ∃ q', (m.erectAll q.node (wantedOn uid gid intermediateMode finalMode missing)).LeadsUpTo path
      (above ++ missing) q' [] := by
  obtain ⟨q', further, _⟩ := h.erectAll uid gid intermediateMode finalMode names missing.length
  rw [List.drop_length, List.take_length, ← length_wantedOn uid gid intermediateMode finalMode,
    List.take_length] at further
  exact ⟨q', further⟩

end

end Machine

namespace Program

variable {path : String} {above missing : List String} {uid gid intermediateMode finalMode : Int}

theorem exists?_run {there : Bool} (text : checkText path = .ok ())
    (looked : there = true ↔ m.Present path) : (exists? path).run layer m = (.ok there, m) := by
  cases status : m.statusOf true path with
  | ok found =>
    have tried : (attempt (stat path)).run layer m = (.ok (.ok found), m) := by
      rw [run_attempt, run_stat, status]
    rw [looked.mpr ⟨found, status⟩]
    exact run_bind_ok tried
  | error f =>
    have orderly : FailsOrderly (m.statusOf true path) := (find_orderly text).bind fun _ => .ok _
    obtain ⟨e, rfl⟩ := orderly f status
    have tried : (attempt (stat path)).run layer m = (.ok (.error e), m) := by
      rw [run_attempt, run_stat, status]
    cases there with
    | false => exact run_bind_ok tried
    | true =>
      obtain ⟨found, here⟩ := looked.mp rfl
      cases status.symm.trans here

theorem ensurePath_run_found (found : m.Present path) (text : checkText path = .ok ()) (user : String)
    (uid gid intermediateMode finalMode : Int) :
    (ensurePath path user uid gid intermediateMode finalMode).run layer m =
      (.ok (.ok (some path)), m) :=
  run_bind_ok (exists?_run text (iff_of_true rfl found))

/-- A path whose directories are all there is there. -/
theorem present_of_leadsUpTo (h : m.LeadsUpTo path above q []) (ordinary : IsOrdinary path)
    (valid : Tree.checkPath path = .ok ()) : m.Present path := by
  have leads := h.leads
  rw [← List.append_nil above, ← h.split] at leads
  exact present_of_directoryAt ordinary.text
    ((Tree.directoryAt_absolute ordinary.absolute valid).trans leads)

/-- A path one of whose directories is missing is not there. -/
theorem not_present_of_leadsUpTo {name : String} {rest : List String}
    (h : m.LeadsUpTo path above q (name :: rest)) (ordinary : IsOrdinary path)
    (valid : Tree.checkPath path = .ok ()) : ¬ m.Present path := by
  intro found
  obtain ⟨p, leads, _⟩ := (present_iff ordinary.text).mp found
  have own := ordinary.names name (by rw [h.split]; simp)
  rw [Tree.resolve_eq_walk (.inl ordinary.absolute) valid (by rw [h.split]; simp)] at leads
  unfold Route.ofPath at leads
  rw [h.split, Tree.walk_append_none own.1 own.2 h.leads (h.free name rfl)] at leads
  cases leads

/-- The directories that are missing on the way to a path are made. -/
theorem ensurePath_run (h : m.LeadsUpTo path above q missing) (ordinary : IsOrdinary path)
    (fits : m.mask < 0o1000) (owner : checkId false uid = .ok () ∧ checkId true gid = .ok ())
    (modes : checkModeArgument intermediateMode = .ok () ∧ checkModeArgument finalMode = .ok ())
    (user : String) :
    (ensurePath path user uid gid intermediateMode finalMode).run layer m =
      (.ok (.ok (some path)),
        m.erectAll q.node (wantedOn uid gid intermediateMode finalMode missing)) := by
  have valid : Tree.checkPath path = .ok () :=
    Tree.checkPath_eq_ok (fun empty => by cases empty; exact absurd ordinary.absolute (by decide))
      ordinary.short
  cases missing with
  | nil => exact ensurePath_run_found (present_of_leadsUpTo h ordinary valid) ordinary.text _ _ _ _ _
  | cons name rest =>
    have absent := not_present_of_leadsUpTo h ordinary valid
    have looked : (exists? path).run layer m = (.ok false, m) :=
      exists?_run ordinary.text (iff_of_false Bool.false_ne_true absent)
    refine (run_bind_ok looked).trans ?_
    have noted : (log .debug "Creating home directory"
        [("path", .text path), ("user", .text user)]).run layer m = (.ok (), m) := rfl
    refine (run_bind_ok noted).trans ?_
    -- the way starts at the root, of which there are no components
    have root : Path.isAbsolute "/" = true ∧ Tree.checkPath "/" = .ok () := by decide
    have passable := ordinary.passable
    rw [h.split] at passable
    have laid := walkSegments_lays fits owner modes root.1 root.2 h.leads h.free passable
    rw [← h.split] at laid
    refine (run_bind_ok laid).trans ?_
    have some : (Path.ancestors path).isEmpty = false := by
      unfold Path.ancestors
      rw [h.split]
      cases above <;> rfl
    obtain ⟨q', further⟩ := h.erected uid gid intermediateMode finalMode fun n mem =>
      ordinary.names n (by rw [h.split]; exact List.mem_append_right _ mem)
    have there := present_of_leadsUpTo further ordinary valid
    rw [some]
    exact run_bind_ok (exists?_run ordinary.text (iff_of_true rfl there))

/-- In a world that answers as a machine does, and never fails, a program runs as on the machine. -/
theorem run_answered {α σ : Type} {world : Layer σ} {view : σ → Machine}
    (keeps : world.KeepsTo (Faltering fun _ => True) view) (p : Program α) (s : σ) :
    (p.run world s).1 = (p.run layer (view s)).1 ∧
      view (p.run world s).2 = (p.run layer (view s)).2 := by
  induction p generalizing s with
  | done a => exact ⟨rfl, rfl⟩
  | raise f => exact ⟨rfl, rfl⟩
  | call c next ih =>
    obtain ⟨reply, after⟩ := (keeps c s).spares trivial
    have rest := ih (world.reply c s).1 (world.reply c s).2
    rw [reply, after] at rest
    simp only [run]
    rw [reply]
    exact rest

/-- Making sure of a path makes exactly the directories that are missing on the way to it. -/
theorem ensurePath_erects {σ : Type} {world : Layer σ} {view : σ → Machine}
    (keeps : world.KeepsTo (Faltering fun _ => True) view) {s : σ} (fits : (view s).mask < 0o1000)
    (ordinary : IsOrdinary path) (owner : checkId false uid = .ok () ∧ checkId true gid = .ok ())
    (modes : checkModeArgument intermediateMode = .ok () ∧ checkModeArgument finalMode = .ok ())
    (user : String) :
    let before := view s
    let ends := (ensurePath path user uid gid intermediateMode finalMode).run world s
    (∀ above q missing, before.LeadsUpTo path above q missing →
      ends.1 = .ok (.ok (some path)) ∧
        view ends.2 = before.erectAll q.node
          (wantedOn uid gid intermediateMode finalMode missing) ∧
        ∀ k n, before.tree.node? k = some n → k ≠ q.node → (view ends.2).tree.node? k = some n) ∧
    (before.Present path → ends.1 = .ok (.ok (some path)) ∧ view ends.2 = before) := by
  intro before ends
  obtain ⟨result, after⟩ := run_answered keeps
    (ensurePath path user uid gid intermediateMode finalMode) s
  refine ⟨fun above q missing h => ?_, fun found => ?_⟩
  · have ran := ensurePath_run h ordinary fits owner modes user
    rw [ran] at result after
    refine ⟨result, after, fun k n here other => ?_⟩
    rw [show view ends.2 = _ from after]
    exact node?_erectAll ((Tree.walk_directory _ _ _ _ true q).mp h.leads).2 other here _
  · have ran := ensurePath_run_found found ordinary.text user uid gid intermediateMode finalMode
    rw [ran] at result after
    exact ⟨result, after⟩

/-- Two directories are missing on the way to a path, and none on the way to another one. -/
theorem ensurePath_erects_documents :
    let make (path : String) := (ensurePath path "alice" 7 7 0o711 0o1700).run layer sample
    make "//home/alice//docs/" = (.ok (.ok (some "//home/alice//docs/")),
        sample.erectAll 5 [⟨"alice", 0, 0, 0o711⟩, ⟨"docs", 7, 7, 0o1700⟩]) ∧
      make "/skel/l" = (.ok (.ok (some "/skel/l")), sample) := by
  intro make
  have missing : IsOrdinary "//home/alice//docs/" := ⟨by decide, by decide, by decide, by decide⟩
  have found : IsOrdinary "/skel/l" := ⟨by decide, by decide, by decide, by decide⟩
  have owner : checkId false 7 = .ok () ∧ checkId true 7 = .ok () := by decide
  have modes : checkModeArgument 0o711 = .ok () ∧ checkModeArgument 0o1700 = .ok () := by decide
  have erects {path : String} (ordinary : IsOrdinary path) :=
    ensurePath_erects (layer_falters _) (s := sample) (by decide) ordinary owner modes "alice"
  constructor
  · obtain ⟨result, same, _⟩ := (erects missing).1 ["home"] ⟨5, [0]⟩ ["alice", "docs"]
      ⟨by decide, by decide +kernel, by decide +kernel⟩
    exact Prod.ext result same
  · obtain ⟨result, same⟩ := (erects found).2 ⟨_, rfl⟩
    exact Prod.ext result same

/-- A name that is too long for a directory is refused, and nothing is made of it. -/
theorem ensurePath_run_long {name : String} (own : Path.IsName name)
    (long : nameLimit < name.utf8ByteSize)
    (valid : Tree.checkPath (Path.join "/" name) = .ok ()) (root : m.tree.isDirectory 0 = true)
    (user : String) (uid gid intermediateMode finalMode : Int) :
    (ensurePath (Path.join "/" name) user uid gid intermediateMode finalMode).run layer m =
      (.ok (.failure .path (Path.join "/" name)
        ("home directory for " ++ user ++ " was not created")), m) := by
  have text : checkText (Path.join "/" name) = .ok () :=
    checkText_join (by decide) (checkText_eq_ok.mpr own.noNul)
  have bare : Path.components "/" = [] := by decide
  have leads : m.tree.directoryAt m.current "/" = .ok .root := by
    have root : m.tree.isDirectory Place.root.node = true := root
    rw [Tree.directoryAt_absolute (by decide) (by decide), bare, Tree.walk_eq, Tree.walkWith_nil, root]
    rfl
  have refusal : m.statusOf true (Path.join "/" name) =
      .error (refused (Path.join "/" name) .nameTooLong) := by
    have nowhere : m.tree.resolve m.current true (Path.join "/" name) = .error .nameTooLong :=
      Tree.resolve_join_long (by decide) own valid long leads
    rw [statusOf_eq]
    unfold find Machine.resolve
    rw [text, nowhere]
    rfl
  have absent : (exists? (Path.join "/" name)).run layer m = (.ok false, m) := by
    refine exists?_run text (iff_of_false Bool.false_ne_true ?_)
    rintro ⟨_, found⟩
    cases refusal.symm.trans found
  have looked : (attempt (stat (Path.join "/" name))).run layer m =
      (.ok (.error (.numbered .nameTooLong (.one (Path.join "/" name)))), m) := by
    rw [run_attempt, run_stat, refusal]
    rfl
  have failed : (ensureDirectory (Path.join "/" name) uid gid finalMode).run layer m =
      (.ok (.failure .stat (Path.join "/" name)
        (SystemError.numbered .nameTooLong (.one (Path.join "/" name))).message), m) :=
    run_bind_ok looked
  have alone : Path.ancestors (Path.join "/" name) = [Path.join "/" name] := by
    unfold Path.ancestors
    rw [Path.components_join (by decide) own.toIsComponent, bare]
    rfl
  refine (run_bind_ok absent).trans ?_
  have noted : (log .debug "Creating home directory"
      [("path", .text (Path.join "/" name)), ("user", .text user)]).run layer m = (.ok (), m) := rfl
  refine (run_bind_ok noted).trans ?_
  rw [alone]
  refine (run_bind_ok (passSegment_run failed)).trans ?_
  exact run_bind_ok absent

end Program

/-- A name that is one byte longer than a directory can hold. -/
def overlong : String :=
  String.ofList (List.replicate 256 'a')

theorem overlong_long : nameLimit < overlong.utf8ByteSize := by
  decide +kernel

theorem overlong_own : Path.IsName overlong := by
  have spelled : overlong.toList = List.replicate 256 'a' := String.toList_ofList
  have other {s : String} (short : s.toList ≠ List.replicate 256 'a') : overlong ≠ s :=
    fun same => short (same ▸ spelled)
  refine Path.isName_iff.mpr ⟨other (by decide), ?_, other (by decide), other (by decide), ?_⟩
  · rw [spelled]
    decide
  · rw [spelled]
    decide

theorem overlong_valid : Tree.checkPath (Path.join "/" overlong) = .ok () := by
  refine Tree.checkPath_eq_ok (Path.join_ne_empty overlong_own.toIsComponent) ?_
  refine Nat.lt_of_le_of_lt (Path.utf8ByteSize_join_le "/" _ overlong_own.toIsComponent) ?_
  decide +kernel

theorem overlong_leads : sample.LeadsUpTo (Path.join "/" overlong) [] .root [overlong] := by
  have root : Path.components "/" = [] := by decide
  refine ⟨?_, by decide, fun name first => ?_⟩
  · rw [Path.components_join (by decide) overlong_own.toIsComponent, root]
  · rw [← Option.mem_some_iff.mp first]
    decide +kernel

namespace Program

/-- A name that no directory can hold is not made, and a process that is not the administrator keeps
what it makes. -/
theorem ensurePath_erects_unlike :
    let home := Path.join "/" overlong
    let other : Machine := { sample with effectiveUid := 1000 }
    (Path.IsName overlong ∧ sample.LeadsUpTo home [] .root [overlong] ∧
      (ensurePath home "alice" 7 7 0o711 0o700).run layer sample =
        (.ok (.failure .path home "home directory for alice was not created"), sample)) ∧
      other.LeadsUpTo "/home/alice" ["home"] ⟨5, [0]⟩ ["alice"] ∧
        (((ensurePath "/home/alice" "alice" 7 7 0o711 0o700).run layer other).2.tree.node? 6).map
          Node.uid = some 1000 := by
  intro home other
  refine ⟨⟨overlong_own, overlong_leads, ?_⟩, ?_, ?_⟩
  · exact ensurePath_run_long overlong_own overlong_long overlong_valid (by decide) _ _ _ _ _
  · exact ⟨by decide, by decide +kernel, by decide +kernel⟩
  · decide +kernel

end Program

end HomeProvision
