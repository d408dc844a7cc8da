import HomeProvision.Proofs.Erected

/-!
# The way to a home is taken up again

Whatever fails while the way to a home is made, except for owners and the mask, a first part of what is
missing has been made then, and the rest has not (`Begun`). No order of the segments is needed for
this, nor anything about what has failed before: making sure of any segment leaves the machine as it is
unless the segment is the next one that is missing.

The path leads up to the last directory that was made. So a second try makes the rest of them, and
what it leaves is what one try without failures would have left (`ensurePath_restarts`).
-/

namespace HomeProvision.Program

open Machine

variable {α : Type} {spared : Call → Prop} {m m' : Machine} {q : Place} {path : String}
  {above missing : List String} {uid gid intermediateMode finalMode : Int}

/-! ## A part of the way -/

/-- Calls that do not fail: those that set the mask and those that give something away. -/
abbrev Unfailing (c : Call) : Prop :=
  c.isUmask = true ∨ givesAway c = true

/-- Whether a first part of what is missing has been made. -/
def Begun (m : Machine) (above : Nat) (ws : List Wanted) (m' : Machine) : Prop :=
  ∃ made, m' = m.erectAll above (ws.take made)

theorem Begun.start (m : Machine) (i : Nat) (ws : List Wanted) : Begun m i ws m :=
  ⟨0, rfl⟩

/-- Calls that change nothing keep what is true of the machine, whether they fail or not. -/
theorem still_faltering {c : Call} {next : c.Reply → Program α} {invariant : Machine → Prop}
    (still : ∀ m : Machine, (m.reply c).2 = m)
    (onward : ∀ r, (next r).Keeps (Faltering spared) (fun _ _ => True) invariant) :
    (call c next).Keeps (Faltering spared) (fun _ _ => True) invariant := by
  refine fun m kept => ⟨trivial, fun r m' step => ?_⟩
  cases step with
  | answered => exact onward _ _ ((still m).symm ▸ kept)
  | failed => exact onward r m kept

section

variable {invariant : Machine → Prop}

theorem log_faltering (level : Level) (event : String) (details : List (String × Detail)) :
    (log level event details).Keeps (Faltering spared) (fun _ _ => True) invariant :=
  still_faltering (fun _ => rfl) fun _ => .done _

theorem exists?_faltering (path : String) :
    (exists? path).Keeps (Faltering spared) (fun _ _ => True) invariant := by
  refine Keeps.bind (Keeps.attempt (still_faltering (fun _ => rfl) fun r => .ofExcept r)) fun looked => ?_
  cases looked <;> exact .done _

theorem finishSegment_faltering (segment : String) (result : StepResult) :
    (finishSegment segment result).Keeps (Faltering spared) (fun _ _ => True) invariant := by
  have paused : pause.Keeps (Faltering spared) (fun _ _ => True) invariant :=
    still_faltering (fun _ => rfl) fun r => .ofExcept r
  unfold finishSegment
  split
  · exact (log_faltering _ _ _).bind fun _ => paused
  · exact paused

end

/-- Making sure of a directory leaves the machine as it is, or makes one where none is. -/
theorem ensureDirectory_begins {directory : String} {w : Wanted}
    (safe : ∀ c, Unfailing c → spared c) (fits : m.mask < 0o1000) (full : directory ≠ "")
    (own : Path.IsName w.name) (short : ShortBelow directory w.name)
    (owner : checkId false w.uid = .ok () ∧ checkId true w.gid = .ok ()) :
    (ensureDirectory (Path.join directory w.name) w.uid w.gid w.mode).Meets (Faltering spared)
      (fun _ _ => True)
      (fun _ m' => m' = m ∨ ∃ p, m.tree.directoryAt m.current directory = .ok p ∧
        m.tree.child? p.node w.name = none ∧ m' = m.erect p.node w) m := by
  have whole : (ensureDirectory (Path.join directory w.name) w.uid w.gid w.mode).Meets
      (Counting spared) clearly
      (AllOrNothing spared m (Path.join directory w.name) w.uid w.gid w.mode) (m, {}) :=
    ensureDirectory_counted (fun _ => safe _ (.inl rfl)) fits
  refine (whole.uncounted.guarded fun _ _ _ => trivial).mono fun out m' ends => ?_
  obtain ⟨n, ends⟩ := ends
  cases ends with
  | nothing => exact .inl rfl
  | @all s refused text made well told =>
    refine .inr ?_
    cases there : m.tree.directoryAt m.current directory with
    | error e => cases (Tree.spot_join_error full own short.1 there).symm.trans made.spot
    | ok p =>
      cases (Tree.spot_join full own short.1 short.2 there).symm.trans made.spot
      have refusal : refused = decide (m.effectiveUid ≠ 0) :=
        Bool.eq_iff_iff.mpr ((told (safe _ (.inr rfl)) owner.1 owner.2).trans decide_eq_true_iff.symm)
      exact ⟨p, rfl, made.free, by rw [refusal]; rfl⟩

/-! ## Segments -/

section

variable (h : m.LeadsUpTo path above q missing)
  (names : ∀ name ∈ Path.components path, Path.IsName name ∧ name.utf8ByteSize ≤ nameLimit)
include h names

/-- A directory on the way in which the next segment is missing is the last one that is there. -/
theorem last_of_missing {directory name : String} {rest : List String} {p : Place}
    (absolute : Path.isAbsolute directory = true) (valid : Tree.checkPath directory = .ok ())
    (split : Path.components path = Path.components directory ++ name :: rest)
    (leads : m.tree.directoryAt m.current directory = .ok p)
    (free : m.tree.child? p.node name = none) : p = q ∧ missing = name :: rest := by
  rw [Tree.directoryAt_absolute absolute valid] at leads
  rcases List.append_eq_append_iff.mp (h.split.symm.trans split) with
    ⟨more, deeper, same⟩ | ⟨more, deeper, same⟩
  · cases more with
    | nil =>
      rw [List.append_nil] at deeper
      rw [deeper, h.leads] at leads
      cases leads
      exact ⟨rfl, same⟩
    | cons next more =>
      -- the directory lies beyond the first name that is missing
      have own := names next (by rw [h.split, same]; simp)
      rw [deeper, Tree.walk_append_none own.1 own.2 h.leads (h.free next (by rw [same]; rfl))] at leads
      cases leads
  · cases more with
    | nil =>
      rw [List.append_nil] at deeper
      rw [← deeper, h.leads] at leads
      cases leads
      exact ⟨rfl, same.symm⟩
    | cons next more =>
      -- the segment is there already
      cases same
      have own := names name (by rw [split]; simp)
      have there := h.leads
      rw [deeper, Tree.walk_append_none own.1 own.2 leads free] at there
      cases there

variable (safe : ∀ c, Unfailing c → spared c) (fits : m.mask < 0o1000)
  (owner : checkId false uid = .ok () ∧ checkId true gid = .ok ())
  (modes : checkModeArgument intermediateMode = .ok () ∧ checkModeArgument finalMode = .ok ())
include safe fits owner modes

/-- Making sure of a segment makes the next directory that is missing, or nothing. -/
theorem ensureDirectory_begun {directory name : String} {rest : List String}
    (absolute : Path.isAbsolute directory = true) (valid : Tree.checkPath directory = .ok ())
    (short : Tree.checkPath (Path.join directory name) = .ok ())
    (split : Path.components path = Path.components directory ++ name :: rest) :
    let w := wantedNext uid gid intermediateMode finalMode name rest
    (ensureDirectory (Path.join directory name) w.uid w.gid w.mode).Keeps (Faltering spared)
      (fun _ _ => True)
      (Begun m q.node (wantedOn uid gid intermediateMode finalMode missing)) := by
  rintro w _ ⟨made, rfl⟩
  have named : w.name = name := wantedNext_name uid gid intermediateMode finalMode name rest
  have own := names name (by rw [split]; simp)
  have absent : ∀ n ∈ missing, Path.IsName n ∧ n.utf8ByteSize ≤ nameLimit := fun n mem =>
    names n (by rw [h.split]; exact List.mem_append_right _ mem)
  obtain ⟨q', further, onward⟩ := h.erectAll uid gid intermediateMode finalMode absent made
  have step := ensureDirectory_begins (m := m.erectAll q.node
    ((wantedOn uid gid intermediateMode finalMode missing).take made)) (w := w) safe
    (by rw [erectAll_mask]; exact fits) (Tree.nonempty_of_checkPath valid) (named ▸ own.1)
    (named ▸ ⟨short, own.2⟩) (wantedNext_proper owner modes name rest).1
  rw [named] at step
  refine step.mono fun out m' ends => ?_
  rcases ends with rfl | ⟨p, leads, free, rfl⟩
  · exact ⟨made, rfl⟩
  · obtain ⟨rfl, same⟩ := last_of_missing further names absolute valid split leads free
    refine ⟨made + 1, ?_⟩
    have next : (wantedOn uid gid intermediateMode finalMode missing).take (made + 1) =
        (wantedOn uid gid intermediateMode finalMode missing).take made ++ [w] := by
      rw [List.take_add, wantedOn_drop, same]
      rfl
    rw [next]
    exact onward [w]

/-- The walk makes a first part of what is missing, wherever it begins and whatever fails. -/
theorem walkSegments_begun {directory : String} {rest : List String}
    (absolute : Path.isAbsolute directory = true) (valid : Tree.checkPath directory = .ok ())
    (split : Path.components path = Path.components directory ++ rest)
    (passable : Passable directory rest) :
    (walkSegments uid gid intermediateMode finalMode (Path.descend directory rest)).Keeps
      (Faltering spared) (fun _ _ => True)
      (Begun m q.node (wantedOn uid gid intermediateMode finalMode missing)) := by
  induction rest generalizing directory with
  | nil => exact .done ()
  | cons name rest ih =>
    have fit := passable.isName.toIsComponent
    have full := Tree.nonempty_of_checkPath valid
    rw [walkSegments_descend]
    have made := ensureDirectory_begun h names safe fits owner modes absolute valid passable.short.1
      split
    refine (made.bind fun result => finishSegment_faltering _ result).bind fun _ => ?_
    refine ih ((Path.isAbsolute_join full fit).trans absolute) passable.short.1 ?_ passable.tail
    rw [Path.components_join full fit, split, List.append_assoc, List.singleton_append]

end

/-- However a try to make a path ends, a first part of what is missing has been made. -/
theorem ensurePath_begun (safe : ∀ c, Unfailing c → spared c) (fits : m.mask < 0o1000)
    (h : m.LeadsUpTo path above q missing) (ordinary : IsOrdinary path)
    (owner : checkId false uid = .ok () ∧ checkId true gid = .ok ())
    (modes : checkModeArgument intermediateMode = .ok () ∧ checkModeArgument finalMode = .ok ())
    (user : String) :
    (ensurePath path user uid gid intermediateMode finalMode).Keeps (Faltering spared)
      (fun _ _ => True)
      (Begun m q.node (wantedOn uid gid intermediateMode finalMode missing)) := by
  refine (exists?_faltering path).bind fun there => ?_
  split
  · exact .done _
  · refine (log_faltering _ _ _).bind fun _ => ?_
    have root : Path.isAbsolute "/" = true ∧ Tree.checkPath "/" = .ok () := by decide
    have walked := walkSegments_begun h ordinary.names safe fits owner modes root.1 root.2 rfl
      ordinary.passable
    refine walked.bind fun _ => ?_
    have concluded (there : Bool) : (if there then do
          log .debug "Home directory created" [("path", .text path), ("user", .text user)]
          return .ok (some path)
        else return .failure .path path ("home directory for " ++ user ++ " was not created") :
          Program StepResult).Keeps (Faltering spared) (fun _ _ => True)
          (Begun m q.node (wantedOn uid gid intermediateMode finalMode missing)) := by
      split
      · exact (log_faltering _ _ _).bind fun _ => .done _
      · exact .done _
    dsimp only
    split
    · exact concluded false
    · exact (exists?_faltering path).bind concluded

/-- A try to make a path that was disturbed has made a first part of what is missing. The next one
makes the rest, and leaves what one undisturbed try leaves. -/
theorem ensurePath_restarts {σ : Type} {world : Layer σ} {view : σ → Machine}
    (keeps : world.KeepsTo (Faltering Unfailing) view) {s : σ} (fits : (view s).mask < 0o1000)
    (h : (view s).LeadsUpTo path above q missing) (ordinary : IsOrdinary path)
    (owner : checkId false uid = .ok () ∧ checkId true gid = .ok ())
    (modes : checkModeArgument intermediateMode = .ok () ∧ checkModeArgument finalMode = .ok ())
    (user : String) :
    let make := ensurePath path user uid gid intermediateMode finalMode
    let first := make.run world s
    let second := make.run layer (view first.2)
    let whole := wantedOn uid gid intermediateMode finalMode missing
    (∃ made, view first.2 = (view s).erectAll q.node (whole.take made)) ∧
      second.1 = .ok (.ok (some path)) ∧ second.2 = (make.run layer (view s)).2 ∧
      second.2 = (view s).erectAll q.node whole := by
  intro make first second whole
  have absent : ∀ name ∈ missing, Path.IsName name ∧ name.utf8ByteSize ≤ nameLimit := fun n mem =>
    ordinary.names n (by rw [h.split]; exact List.mem_append_right _ mem)
  have begun := ensurePath_begun (fun _ unfailing => unfailing) fits h ordinary owner modes user
  obtain ⟨made, same⟩ := (begun _ (.start _ _ _)).run keeps
  obtain ⟨q', further, onward⟩ := h.erectAll uid gid intermediateMode finalMode absent made
  rw [← same] at further onward
  have fits' : (view first.2).mask < 0o1000 := by
    rw [show view first.2 = _ from same, erectAll_mask]
    exact fits
  have again := ensurePath_run further ordinary fits' owner modes user
  have once := ensurePath_run h ordinary fits owner modes user
  rw [← wantedOn_drop, onward, List.take_append_drop] at again
  refine ⟨⟨made, same⟩, congrArg Prod.fst again, ?_, congrArg Prod.snd again⟩
  rw [show make.run layer (view s) = _ from once]
  exact congrArg Prod.snd again

/-- A first try is sent down the wrong way, since nothing is said to be at a directory that is there,
and the hook gives it up when one of two directories has been made. -/
theorem ensurePath_restarts_documents :
    let disturbed := failing fun c m =>
      match c with
      | .stat "/home" => some (refused "/home" .noEntry)
      | .pause => if m.tree.nodes.length = 7 then some (.thrown .runtime "stop") else none
      | _ => none
    let make := ensurePath "/home/alice/docs" "alice" 7 7 0o711 0o700
    let first := make.run disturbed sample
    first.1 = .error (.thrown .runtime "stop") ∧
      first.2 = sample.erectAll 5 [⟨"alice", 0, 0, 0o711⟩] ∧
      make.run layer first.2 = (.ok (.ok (some "/home/alice/docs")),
        sample.erectAll 5 [⟨"alice", 0, 0, 0o711⟩, ⟨"docs", 7, 7, 0o700⟩]) := by
  intro disturbed make first
  have keeps : disturbed.KeepsTo (Faltering Unfailing) id :=
    failing_falters fun c _ _ struck unfailing => by
      cases c <;> rcases unfailing with bad | bad <;> cases bad <;> cases struck
  have ordinary : IsOrdinary "/home/alice/docs" := ⟨by decide, by decide, by decide, by decide⟩
  have leads : sample.LeadsUpTo "/home/alice/docs" ["home"] ⟨5, [0]⟩ ["alice", "docs"] :=
    ⟨by decide, by decide +kernel, by decide +kernel⟩
  obtain ⟨_, result, _, whole⟩ := ensurePath_restarts keeps (s := sample) (by decide) leads ordinary
    (by decide : checkId false 7 = .ok () ∧ checkId true 7 = .ok ())
    (by decide : checkModeArgument 0o711 = .ok () ∧ checkModeArgument 0o700 = .ok ()) "alice"
  exact ⟨by decide +kernel, by decide +kernel, Prod.ext result whole⟩

/-- A name that no directory can hold is not made by a second try either. -/
theorem ensurePath_restarts_not :
    let home := Path.join "/" overlong
    let make := ensurePath home "alice" 7 7 0o711 0o700
    let first := make.run layer sample
    Path.IsName overlong ∧ sample.LeadsUpTo home [] .root [overlong] ∧
      first.2 = sample ∧
      make.run layer first.2 =
        (.ok (.failure .path home "home directory for alice was not created"), sample) := by
  have refusal : (ensurePath (Path.join "/" overlong) "alice" 7 7 0o711 0o700).run layer sample =
      (.ok (.failure .path (Path.join "/" overlong) "home directory for alice was not created"),
        sample) :=
    ensurePath_run_long overlong_own overlong_long overlong_valid (by decide) _ _ _ _ _
  dsimp only
  rw [refusal]
  exact ⟨overlong_own, overlong_leads, rfl, refusal⟩

end HomeProvision.Program
