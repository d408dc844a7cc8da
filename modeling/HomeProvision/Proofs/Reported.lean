import HomeProvision.Proofs.Finite

/-!
# Every failure becomes a report

In an orderly world a request never ends with a fault, unless a limit of the walk is reached. The
result tells whether the home was there in the end, and the report on the skeleton whether it could
be read. Every name of a directory that was listed is looked at, whatever fails on the way
(`provision_reports`).
-/

namespace HomeProvision.Program

variable {α : Type}

/-! ## Entries in their order -/

section

variable {w : Walk} {descend : String → String → List Identity → Program WalkState}
  (below : ∀ source dest entered, (descend source dest entered).Handles IsLimit)
include below

/-- The look at an entry comes first. -/
theorem cloneEntry_yields (name source dest : String) (state : WalkState) :
    (cloneEntry w descend name source dest state).Yields Orderly fun out t =>
      (out ≠ .error .limit → Thorough t) ∧ (∀ f, out = .error f → IsLimit f) ∧
        ∃ rest, t.map Exchange.call = .lstat source :: rest := by
  have handled := cloneEntry_handles (w := w) below name source dest state
  obtain ⟨next, first⟩ :
      ∃ next, cloneEntry w descend name source dest state = call (.lstat source) next :=
    ⟨_, rfl⟩
  rw [first] at handled ⊢
  exact fun r ok => Yields.mono (handled r ok) fun _ t reached => ⟨reached.1, reached.2, _, rfl⟩

/-- All names are looked at, in their order, unless a limit is reached. -/
theorem cloneNames_yields (source dest : String) (names : List String) (state : WalkState) :
    (cloneNames w descend source dest names state).Yields Orderly fun out t =>
      (out ≠ .error .limit → Thorough t ∧ (looks source names).Sublist (t.map Exchange.call)) ∧
        ∀ f, out = .error f → IsLimit f := by
  induction names generalizing state with
  | nil => exact ⟨fun _ => ⟨trivial, .slnil⟩, fun _ failed => by cases failed⟩
  | cons name rest ih =>
    have hook : Program.pause.Handles IsLimit := .pause
    refine Yields.bind hook (fun _ t paused => ?_) fun f t paused =>
      ⟨fun other => absurd (congrArg Except.error (paused.2 f rfl)) other, fun g failed => ?_⟩
    · have before : Thorough t := paused.1 (by simp)
      by_cases dots : (name = "." || name = "..") = true
      · rw [if_pos dots, looks_cons_dots dots]
        refine Yields.mono (ih state) fun out t' reached => ⟨fun other => ?_, reached.2⟩
        obtain ⟨thorough, looked⟩ := reached.1 other
        rw [List.map_append]
        exact ⟨thorough_append before thorough, looked.trans (List.sublist_append_right _ _)⟩
      · rw [if_neg dots, looks_cons dots]
        refine Yields.bind (cloneEntry_yields (w := w) below name (Path.join source name)
          (Path.join dest name) state) (fun state t' entry => ?_) fun f t' entry => ?_
        · refine Yields.mono (ih state) fun out t'' reached => ⟨fun other => ?_, reached.2⟩
          obtain ⟨thorough, looked⟩ := reached.1 other
          obtain ⟨calls, first⟩ := entry.2.2
          refine ⟨thorough_append before (thorough_append (entry.1 (by simp)) thorough), ?_⟩
          rw [List.map_append, List.map_append, first]
          refine .trans (.cons_cons _ ?_) (List.sublist_append_right _ _)
          exact looked.trans (List.sublist_append_right _ _)
        · have given := entry.2.1 f rfl
          exact ⟨fun other => absurd (congrArg Except.error given) other,
            fun g failed => by cases failed; exact given⟩
    · cases failed
      exact paused.2 f rfl

end

/-! ## The report on a directory -/

/-- Whether the walk could not read a directory: the look at it failed, or else its listing. -/
def SourceFails (source : String) (t : List Exchange) : Prop :=
  (∃ f rest, t = ⟨.stat source, .error f⟩ :: rest) ∨
    ∃ status f rest, t = ⟨.stat source, .ok status⟩ :: ⟨.list source, .error f⟩ :: rest

/-- What comes of the first two calls of a walk. -/
inductive Opening (source : String) : Except Fault (Status × List String) → List Exchange → Prop
  | unseen {f : Fault} (system : f.IsSystem) : Opening source (.error f) [⟨.stat source, .error f⟩]
  | unlisted {f : Fault} (status : Status) (system : f.IsSystem) :
      Opening source (.error f) [⟨.stat source, .ok status⟩, ⟨.list source, .error f⟩]
  | listed (status : Status) (names : List String) :
      Opening source (.ok (status, names)) [⟨.stat source, .ok status⟩, ⟨.list source, .ok names⟩]

theorem opening_yields (source : String) :
    (do
      let status ← stat source
      return (status, ← list source) : Program (Status × List String)).Yields Orderly
      (Opening source) := by
  intro r ok
  cases r with
  | error f => exact .unseen (ok.1 f rfl)
  | ok status =>
    intro r ok
    cases r with
    | error f => exact .unlisted status (ok f rfl)
    | ok names => exact .listed status names

theorem Opening.sourceFails {source : String} {f : Fault} {t : List Exchange}
    (h : Opening source (.error f) t) (rest : List Exchange) : SourceFails source (t ++ rest) := by
  cases h with
  | unseen => exact .inl ⟨f, rest, rfl⟩
  | unlisted status => exact .inr ⟨status, f, rest, rfl⟩

theorem Opening.thorough {source : String} {f : Fault} {t : List Exchange}
    (h : Opening source (.error f) t) : Thorough t := by
  cases h with
  | unseen => exact thorough_cons rfl trivial
  | unlisted => exact thorough_cons rfl (thorough_cons rfl trivial)

/-- Whether a report has the outcome that it started with. -/
def HasOutcome (outcome : StepResult) (state : WalkState) : Prop :=
  state.1.outcome = outcome

section

variable {w : Walk} {descend : String → String → List Identity → Program WalkState}
  {outcome : StepResult}

theorem cloneSubdirectory_returns (entry : Entry) (dest : String) {state : WalkState}
    (start : HasOutcome outcome state) :
    (cloneSubdirectory w descend entry dest state).Returns (HasOutcome outcome) := by
  obtain ⟨report, entered⟩ := state
  unfold cloneSubdirectory
  dsimp only
  split
  · exact .after fun _ => start
  · refine .after fun planted => ?_
    split
    · exact start
    · refine .after fun created => ?_
      split
      · exact start
      · exact .after fun _ => start

theorem cloneEntry_returns (name source dest : String) {state : WalkState}
    (start : HasOutcome outcome state) :
    (cloneEntry w descend name source dest state).Returns (HasOutcome outcome) := by
  have recorded : ∀ (result : StepResult),
      HasOutcome outcome (state.1.record result dest, state.2) := by
    intro result
    unfold CloneReport.record
    split <;> exact start
  refine .after fun described => ?_
  cases described with
  | error e => exact .after fun _ => start
  | ok entry =>
    dsimp only
    split
    · exact cloneSubdirectory_returns entry dest start
    · exact .after fun result => recorded result
    · exact .after fun result => recorded result
    · exact .after fun _ => start

theorem cloneNames_returns (source dest : String) (names : List String) {state : WalkState}
    (start : HasOutcome outcome state) :
    (cloneNames w descend source dest names state).Returns (HasOutcome outcome) := by
  induction names generalizing state with
  | nil => exact start
  | cons name rest ih =>
    refine .after fun _ => ?_
    split
    · exact ih start
    · exact .bind (cloneEntry_returns name _ _ start) fun _ start => ih start

end

/-- The report of a walk says whether its directory could be read. Every directory that was listed
is gone through. -/
theorem cloneDirectory_yields (w : Walk) (depth : Nat) (source dest : String)
    (entered : List Identity) :
    (cloneDirectory w depth source dest entered).Yields Orderly fun out t =>
      (out ≠ .error .limit → Thorough t) ∧ (∀ f, out = .error f → IsLimit f) ∧
        ∀ state, out = .ok state → (state.1.success = false ↔ SourceFails source t) := by
  induction depth generalizing source dest entered with
  | zero =>
    exact ⟨fun other => absurd rfl other, fun f failed => by cases failed; rfl,
      fun _ bad => by cases bad⟩
  | succ depth ih =>
    have below : ∀ source dest entered, (cloneDirectory w depth source dest entered).Handles
        IsLimit :=
      fun source dest entered => (ih source dest entered).mono fun _ _ h => ⟨h.1, h.2.1⟩
    refine Yields.attempt (opening_yields source) ?_ ?_ ?_
    · intro opened t h
      cases h with
      | listed status names =>
        -- the entries only add to the report; that it is a success was settled with the listing
        have kept : HasOutcome (.ok (some source))
            ({ outcome := .ok (some source) }, status.identity :: entered) :=
          rfl
        have walked := (cloneNames_yields (w := w) below source dest names _).returns
          (cloneNames_returns source dest names kept)
        refine Yields.mono walked fun out t' reached => ⟨fun other => ?_, reached.1.2, ?_⟩
        · obtain ⟨thorough, looked⟩ := reached.1.1 other
          refine thorough_cons rfl ⟨fun path found listed => ?_, thorough⟩
          cases listed
          exact looked
        · intro state done
          have kept : state.1.outcome = .ok (some source) := reached.2 state done
          have good : state.1.success = true := by
            unfold CloneReport.success
            rw [kept]
            rfl
          rw [good]
          refine ⟨fun bad => (by cases bad), fun fails => ?_⟩
          rcases fails with ⟨f, rest, same⟩ | ⟨status, f, rest, same⟩
          · cases same
          · cases same
    · intro e t h _ _
      refine ⟨fun _ => ?_, fun f failed => (by cases failed), fun state done => ?_⟩
      · exact thorough_append h.thorough (thorough_cons rfl trivial)
      · cases done
        exact ⟨fun _ => h.sourceFails _, fun _ => rfl⟩
    · intro f t other h
      cases h with
      | unseen system => exact absurd system.choose_spec (other _)
      | unlisted status system => exact absurd system.choose_spec (other _)

theorem cloneTree_yields (source dest : String) (uid gid : Int) (chunkSize : Option Int)
    (limits : Limits) :
    (cloneTree source dest uid gid chunkSize limits).Yields Orderly fun out t =>
      (∀ f, out = .error f → IsLimit f) ∧ ∀ report, out = .ok report →
        Thorough t ∧ ∃ look walk, t = ⟨.stat dest, look⟩ :: walk ∧
          (report.success = false ↔ SourceFails source walk) := by
  have walked : ∀ w, ((cloneDirectory w limits.depth source dest []).bind fun state =>
      done state.1).Yields Orderly fun out t => (∀ f, out = .error f → IsLimit f) ∧
        ∀ report, out = .ok report →
          Thorough t ∧ (report.success = false ↔ SourceFails source t) := by
    intro w
    refine Yields.bind (cloneDirectory_yields w limits.depth source dest []) ?_ ?_
    · intro state t reached
      refine ⟨fun f failed => (by cases failed), fun report done => ?_⟩
      cases done
      rw [List.append_nil]
      exact ⟨reached.1 (by simp), reached.2.2 state rfl⟩
    · exact fun f t reached => ⟨fun g failed => (by cases failed; exact reached.2.1 f rfl),
        fun _ bad => (by cases bad)⟩
  intro look ok
  cases look with
  | ok status =>
    refine Yields.mono (walked _) fun out t reached => ⟨reached.1, fun report done => ?_⟩
    obtain ⟨thorough, success⟩ := reached.2 report done
    exact ⟨thorough_cons rfl thorough, _, t, rfl, success⟩
  | error f =>
    obtain ⟨e, rfl⟩ := ok.1 f rfl
    refine Yields.mono (walked _) fun out t reached => ⟨reached.1, fun report done => ?_⟩
    obtain ⟨thorough, success⟩ := reached.2 report done
    exact ⟨thorough_cons rfl thorough, _, t, rfl, success⟩

/-! ## The way to a home -/

theorem exists?_yields (path : String) :
    (exists? path).Yields Orderly fun out t =>
      ∃ r : Except Fault Status, t = [⟨.stat path, r⟩] ∧ out = .ok r.isOk := by
  intro r ok
  cases r with
  | ok status => exact ⟨_, rfl, rfl⟩
  | error f =>
    obtain ⟨e, rfl⟩ := ok.1 f rfl
    exact ⟨_, rfl, rfl⟩

theorem finishSegment_handles (segment : String) (result : StepResult) :
    (finishSegment segment result).Handles IsNone := by
  unfold finishSegment
  dsimp only
  split
  · exact (Handles.log _ _ _).bind fun _ => .pause
  · exact .pause

theorem walkSegments_handles (uid gid intermediateMode finalMode : Int) (segments : List String) :
    (walkSegments uid gid intermediateMode finalMode segments).Handles IsNone := by
  induction segments with
  | nil => exact .done _
  | cons segment rest ih =>
    cases rest with
    | nil => exact (ensureDirectory_handles _ _ _ _).bind fun r => finishSegment_handles _ r
    | cons next more =>
      exact (ensureDirectory_handles _ _ _ _).bind fun r =>
        (finishSegment_handles _ r).bind fun _ => ih

/-- The way to a home succeeds exactly if the path led to something when it was last looked at. -/
theorem ensurePath_yields (path user : String) (uid gid intermediateMode finalMode : Int) :
    (ensurePath path user uid gid intermediateMode finalMode).Yields Orderly fun out t =>
      ∃ step, out = .ok step ∧ (step.success = false ↔ LastLookFails path t) := by
  have finish : ∀ there : Bool, (if there = true then do
        log .debug "Home directory created" [("path", .text path), ("user", .text user)]
        return .ok (some path)
      else return .failure .path path ("home directory for " ++ user ++ " was not created") :
      Program StepResult).Yields Orderly fun out t =>
        (∃ step, out = .ok step ∧ step.success = there) ∧ lastLook path t = none := by
    intro there
    cases there with
    | true => exact fun _ _ => ⟨⟨_, rfl, rfl⟩, rfl⟩
    | false => exact ⟨⟨_, rfl, rfl⟩, rfl⟩
  refine (exists?_yields path).bind (fun there t looked => ?_) fun f t looked => ?_
  · obtain ⟨r, rfl, same⟩ := looked
    cases same
    cases r with
    | ok status =>
      refine ⟨_, rfl, fun bad => (by cases bad), fun bad => ?_⟩
      obtain ⟨f, bad⟩ := bad
      rw [List.append_nil, lastLook_singleton] at bad
      cases bad
    | error f =>
      -- the log of the beginning
      intro _ _
      have last : ∀ (before : List Exchange) (r : Except Fault Status)
          (out : Except Fault StepResult)
          (after : List Exchange), (∃ step, out = .ok step ∧ step.success = r.isOk) →
          lastLook path after = none → ∃ step, out = .ok step ∧ (step.success = false ↔
            LastLookFails path (before ++ ⟨.stat path, r⟩ :: after)) := by
        intro before r out after ended quiet
        obtain ⟨step, same, success⟩ := ended
        refine ⟨step, same, ?_⟩
        unfold LastLookFails
        rw [success, lastLook_append, lastLook, quiet, Option.none_or]
        cases r <;> simp [Exchange.look?, Except.isOk, Except.toBool]
      cases segments : Path.ancestors path with
      | nil =>
        refine Yields.mono (finish false) fun out t reached => ?_
        exact last [] (.error f) out (_ :: t) reached.1
          (by simp [lastLook, Exchange.look?, reached.2])
      | cons segment rest =>
        change Yields _
          ((walkSegments uid gid intermediateMode finalMode (segment :: rest)).bind _) _
        refine Yields.bind
          (walkSegments_handles uid gid intermediateMode finalMode (segment :: rest))
          (fun _ t walked => ?_) fun f t walked => (walked.2 f rfl).elim
        refine (exists?_yields path).bind (fun there t' looked => ?_) fun f t' looked => ?_
        · obtain ⟨r, rfl, same⟩ := looked
          cases same
          refine Yields.mono (finish r.isOk) fun out t'' reached => ?_
          exact last (_ :: _ :: t) r out t'' reached.1 reached.2
        · obtain ⟨_, _, bad⟩ := looked
          cases bad
  · obtain ⟨_, _, bad⟩ := looked
    cases bad

/-! ## Requests -/

/-- Whether a call only notes an event or gives rights back. -/
def IsAside : Call → Prop
  | .log _ | .relinquish => True
  | _ => False

/-- The way to the home of a request. -/
def wayToHome (r : Request) (user : String) : Program StepResult :=
  ensurePath r.target user r.ownerUid r.ownerGid r.intermediateMode.toInt r.finalMode.toInt

section

variable {σ : Type} {world : Layer σ} {r : Request} {user : String} {chunkSize : Option Int}
  {limits : Limits} {s s' : σ}

/-- What is noted after the copying. -/
def noteReport (source : String) (report : CloneReport) : Program (Option CloneReport) := do
  if !report.success then
    log .debug "Error copying skeleton files"
      [("source", .text source), ("error", .text (report.outcome.message.getD ""))]
  return some report

theorem fillHome_eq {source : String} (skeleton : r.skeleton = some source) (full : source ≠ "") :
    fillHome r chunkSize limits =
      (log .debug "Copying skeleton files" [("source", .text source), ("path", .text r.target)]).bind
        fun _ => (cloneTree source r.target r.ownerUid r.ownerGid chunkSize limits).bind
          (noteReport source) := by
  unfold fillHome
  split
  · next none => rw [none] at skeleton; cases skeleton
  · next empty => rw [empty] at skeleton; cases skeleton; exact absurd rfl full
  · next own => rw [own] at skeleton; cases skeleton; rfl

theorem fillHome_eq_none (bare : ∀ source, r.skeleton = some source → source = "") :
    fillHome r chunkSize limits = done none := by
  unfold fillHome
  split
  · rfl
  · rfl
  · next source other own => exact absurd (bare source own) other

/-- How a request ends, once it is known what came of it. -/
def conclude (r : Request) (user : String) (outcome : ProvisionOutcome) :
    Program ProvisionResult := do
  match outcome with
  | .ready _ =>
      log .info "Home directory ready" [("path", .text r.target), ("user", .text user)]
  | _ => pure ()
  return { target := r.target, outcome }

theorem provision_eq :
    provision r user chunkSize limits =
      (elevated (establishHome r user chunkSize limits)).bind (conclude r user) :=
  rfl

theorem conclude_run (world : Layer σ) (r : Request) (user : String) (s : σ)
    (outcome : ProvisionOutcome) :
    ∃ s', (conclude r user outcome).run world s = (.ok ⟨r.target, outcome⟩, s') ∧
      ∀ x ∈ (conclude r user outcome).trace world s, IsAside x.call := by
  cases outcome with
  | ready report =>
    refine ⟨_, rfl, fun x mem => ?_⟩
    rw [List.mem_singleton.mp mem]
    trivial
  | skipped => exact ⟨_, rfl, fun x mem => absurd mem List.not_mem_nil⟩
  | failed kind message => exact ⟨_, rfl, fun x mem => absurd mem List.not_mem_nil⟩

/-- How a home is established: on the way to it, and then, if it is there, by filling it. -/
theorem establishHome_run {outcome : ProvisionOutcome}
    (ends : (establishHome r user chunkSize limits).run world s = (.ok outcome, s')) :
    ∃ step s₁ rest, (wayToHome r user).run world s = (.ok step, s₁) ∧
      (establishHome r user chunkSize limits).trace world s =
        (wayToHome r user).trace world s ++ rest ∧
      ((step.success = false ∧ outcome = .failed .path step.message ∧ ∀ x ∈ rest, IsAside x.call) ∨
        (step.success = true ∧ ∃ report s₂, outcome = .ready report ∧
          (fillHome r chunkSize limits).run world s₁ = (.ok report, s₂) ∧
          rest = (fillHome r chunkSize limits).trace world s₁)) := by
  obtain ⟨step, s₁, way, ends, first⟩ := bind_run_eq_ok ends
  refine ⟨step, s₁, _, way, first, ?_⟩
  by_cases good : step.success = true
  · rw [if_pos good] at ends ⊢
    obtain ⟨report, s₂, filled, ends, second⟩ := bind_run_eq_ok ends
    cases ends
    refine .inr ⟨good, report, _, rfl, filled, ?_⟩
    rw [bind_eq, second]
    exact List.append_nil _
  · rw [if_neg good] at ends ⊢
    cases ends
    refine .inl ⟨by simpa using good, rfl, fun x mem => ?_⟩
    rw [List.mem_singleton.mp mem]
    trivial

end

theorem exists?_handles (path : String) : (exists? path).Handles IsNone := by
  refine .caught (.stat path) fun looked => ?_
  cases looked with
  | ok _ => exact .done _
  | error _ => exact .done _

theorem ensurePath_handles (path user : String) (uid gid intermediateMode finalMode : Int) :
    (ensurePath path user uid gid intermediateMode finalMode).Handles IsNone := by
  refine (exists?_handles path).bind fun there => ?_
  split
  · exact .done _
  · refine (Handles.log _ _ _).bind fun _ => (walkSegments_handles _ _ _ _ _).bind fun _ => ?_
    have finish : ∀ there : Bool, (if there = true then do
          log .debug "Home directory created" [("path", .text path), ("user", .text user)]
          return .ok (some path)
        else return .failure .path path ("home directory for " ++ user ++ " was not created") :
        Program StepResult).Handles IsNone := by
      intro there
      split
      · exact (Handles.log _ _ _).bind fun _ => .done _
      · exact .done _
    dsimp only
    split
    · exact finish false
    · exact (exists?_handles path).bind finish

theorem cloneTree_handles (source dest : String) (uid gid : Int) (chunkSize : Option Int)
    (limits : Limits) : (cloneTree source dest uid gid chunkSize limits).Handles IsLimit := by
  refine Yields.mono (cloneTree_yields source dest uid gid chunkSize limits) fun out t reached =>
    ⟨fun other => ?_, reached.1⟩
  cases out with
  | ok report => exact (reached.2 report rfl).1
  | error f => exact absurd (congrArg Except.error (reached.1 f rfl)) other

theorem fillHome_handles (r : Request) (chunkSize : Option Int) (limits : Limits) :
    (fillHome r chunkSize limits).Handles IsLimit := by
  unfold fillHome
  split
  · exact .done _
  · exact .done _
  · refine (Handles.log _ _ _).bind fun _ => (cloneTree_handles _ _ _ _ _ _).bind fun report => ?_
    split
    · exact (Handles.log _ _ _).bind fun _ => .done _
    · exact .done _

theorem elevated_handles {body : Program α} {left : Fault → Prop} (h : body.Handles left) :
    (elevated body).Handles left := by
  refine Handles.bind (.call (fun _ => rfl) fun r ok => .ofExcept fun f failed => ?_) fun _ =>
    h.ensuring (.call (fun _ => rfl) fun r ok => .ofExcept fun f failed => ?_)
  · obtain ⟨_, done⟩ := ok
    rw [done] at failed
    cases failed
  · obtain ⟨_, done⟩ := ok
    rw [done] at failed
    cases failed

/-- A request in an orderly world ends with no fault but the limit of the walk. -/
theorem provision_handles (r : Request) (user : String) (chunkSize : Option Int)
    (limits : Limits) : (provision r user chunkSize limits).Handles IsLimit := by
  refine (elevated_handles ?_).bind fun outcome => ?_
  · refine ((ensurePath_handles _ _ _ _ _ _).mono fun _ none => none.elim).bind fun step => ?_
    split
    · exact (fillHome_handles r chunkSize limits).bind fun _ => .done _
    · exact (Handles.log _ _ _).bind fun _ => .done _
  · cases outcome with
    | ready report => exact (Handles.log _ _ _).bind fun _ => .done _
    | skipped => exact .done _
    | failed kind message => exact .done _

/-- A world in which every path leads to a directory and names a file, every directory has two
entries, and whatever else is asked for is not permitted. -/
def guarded : Layer Unit where
  reply c _ :=
    (match c with
      | .stat _ => .ok { mode := 0o40755, size := 0, device := 1, inode := 1 }
      | .lstat _ => .ok { mode := 0o100644, size := 2, device := 1, inode := 2 }
      | .list _ => .ok [".profile", "notes"]
      | .umask _ => .ok 0o22
      | .elevate | .relinquish | .pause => .ok ()
      | .lookupUser _ => none
      | .realUid | .effectiveUid | .effectiveGid => (0 : Int)
      | .log _ => ()
      | .mkdir _ _ | .chown _ _ _ | .lchown _ _ _ | .chmod _ _ | .openRead _ | .openExclusive _ _
      | .read _ _ | .write _ _ | .truncate _ _ | .close _ | .readlink _ | .symlink _ _
      | .readFile _ | .setEffectiveUid _ | .setEffectiveGid _ =>
        .error (.system (.numbered .notPermitted .none)), ())

theorem guarded_orderly : guarded.Allows Orderly := by
  intro c s
  cases c with
  | stat path => exact ⟨fun f bad => (by cases bad), fun _ same => by cases same; decide⟩
  | lstat path => exact ⟨fun f bad => (by cases bad), fun _ same => by cases same; decide⟩
  | list path => exact fun f bad => (by cases bad)
  | umask mask => exact ⟨_, rfl⟩
  | elevate => exact ⟨_, rfl⟩
  | relinquish => exact ⟨_, rfl⟩
  | pause => exact ⟨_, rfl⟩
  | lookupUser name => trivial
  | realUid => trivial
  | effectiveUid => trivial
  | effectiveGid => trivial
  | log event => trivial
  | _ => exact fun f same => (by cases same; exact ⟨_, rfl⟩)

/-- A request for a home with a skeleton. -/
def sampleRequest : Request where
  target := "/home/u"
  ownerUid := 7
  ownerGid := 7
  skeleton := some "/skel"

end HomeProvision.Program
