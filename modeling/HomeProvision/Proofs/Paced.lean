import HomeProvision.Proofs.Accounted
import HomeProvision.Proofs.Pauses

/-!
# The hook gets control where it should

The traces of programs are read against the points at which the hook should get control. What is done
for one entry makes no call of the hook but the one after each piece of a file (`Attends`), so that
the walk through a directory has one for every name besides (`cloneNames_tours`). No step along the
way to a home makes more than the one at its end (`walkSegments_steps`).

`work_pauses` puts this together for all runs in all worlds in which the hook does not fail itself.
-/

namespace HomeProvision

namespace Program

variable {α β σ : Type} {allowed : (c : Call) → c.Reply → Prop} {good : Call → Prop}

/-! ## The calls for an entry -/

/-- A program that makes good calls only has no others in its traces. -/
theorem Meets.calls {p : Program α} {s : Unit}
    (h : p.Meets (anyWith allowed) (fun c _ => good c) (fun _ _ => True) s) :
    p.Yields allowed fun _ t => ∀ x ∈ t, good x.call := by
  induction p generalizing s with
  | done a => exact fun _ mem => absurd mem List.not_mem_nil
  | raise f => exact fun _ mem => absurd mem List.not_mem_nil
  | call c next ih =>
    exact fun r ok => Yields.mono (ih r (h.2 r s ok)) fun _ t made =>
      List.forall_mem_cons.mpr ⟨h.1, made⟩

/-- What is shown of all traces, next to what is shown of those with replies that are allowed. -/
theorem Yields.and_all {p : Program α} {post post' : Except Fault α → List Exchange → Prop}
    (h : p.Yields allowed post) (h' : p.Yields (fun _ _ => True) post') :
    p.Yields allowed fun out t => post out t ∧ post' out t := by
  induction p generalizing post post' with
  | done a => exact ⟨h, h'⟩
  | raise f => exact ⟨h, h'⟩
  | call c next ih => exact fun r ok => ih r (h r ok) (h' r trivial)

variable {source dest : String}

theorem log_minds (level : Level) (event : String) (details : List (String × Detail)) :
    (log level event details).Makes allowed (Call.Minds source dest) :=
  .call ⟨rfl, rfl, rfl, touches_none rfl⟩ fun _ _ => .done _

theorem describeEntry_minds (name : String) :
    (describeEntry name source).Makes allowed (Call.Minds source dest) :=
  (describeEntry_makes name).mono fun c among => by
    rcases among with rfl | rfl <;> exact ⟨rfl, rfl, rfl, touches_source rfl rfl⟩

theorem isPlantedNonDirectory_minds :
    (isPlantedNonDirectory dest).Makes allowed (Call.Minds source dest) := by
  refine Keeps.attempted (Makes.call ⟨rfl, rfl, rfl, touches_path rfl⟩ fun _ _ => .ofExcept _)
    (fun status => .bind (.ofExcept _) fun mode => ?_) fun _ => .done _
  split
  · exact .done _
  · exact Makes.bind (log_minds _ _ _) fun _ => .done _

theorem ensureDirectory_minds (uid gid mode : Int) :
    (ensureDirectory dest uid gid mode).Makes allowed (Call.Minds source dest) := by
  have calls : DirectoryCalls (anyWith allowed) (fun c _ => c.Minds source dest) (fun _ => True)
      (fun _ => True) dest uid gid mode :=
    { note := log_minds
      stat := Makes.call ⟨rfl, rfl, rfl, touches_path rfl⟩ fun _ _ => .ofExcept _
      umask := fun _ => Makes.call ⟨rfl, rfl, rfl, touches_none rfl⟩ fun _ _ => .ofExcept _
      umaskNew := fun _ => Makes.call ⟨rfl, rfl, rfl, touches_none rfl⟩ fun _ _ => .ofExcept _
      mkdir := fun _ _ => ⟨⟨rfl, rfl, rfl, touches_path rfl⟩, fun _ _ _ =>
        meets_ofExcept.mpr ⟨trivial, fun _ _ => trivial⟩⟩
      chown := Makes.call ⟨rfl, rfl, rfl, touches_path rfl⟩ fun _ _ => .ofExcept _
      leave := fun _ _ => trivial }
  exact calls.ensureDirectory

theorem copySymlink_minds (c : Cloner) (sourceTop destTop : String) (target : Option String) :
    (copySymlink c sourceTop source destTop dest target).Makes allowed (Call.Minds source dest) := by
  have calls : ∀ uid gid target, LinkCalls (anyWith allowed) (fun c _ => c.Minds source dest)
      (fun _ => True) (fun _ => True) dest uid gid target := fun uid gid target =>
    { note := log_minds
      symlink := fun _ _ => ⟨⟨rfl, rfl, rfl, touches_path rfl⟩, fun _ _ _ =>
        meets_ofExcept.mpr ⟨trivial, fun _ _ => trivial⟩⟩
      lchown := Makes.call ⟨rfl, rfl, rfl, touches_path rfl⟩ fun _ _ => .ofExcept _
      leave := fun _ _ => trivial }
  refine keeps_copySymlink (fun _ => True) log_minds (fun _ _ => ?_)
    (fun target _ => (calls _ _ _).placeLink) fun _ _ => trivial
  exact ⟨⟨rfl, rfl, rfl, touches_source rfl rfl⟩, fun _ _ _ =>
    meets_ofExcept.mpr ⟨trivial, fun _ _ => trivial⟩⟩

theorem closeQuietly_minds (number : Int) (event path : String) :
    (closeQuietly number event path).Makes allowed (Call.Minds source dest) :=
  Keeps.attempted (Makes.call ⟨rfl, rfl, rfl, touches_none rfl⟩ fun _ _ => .ofExcept _)
    (fun _ => .done _) fun _ => log_minds _ _ _

theorem finishCalls_minds (mode : Int) :
    FinishCalls (anyWith allowed) (fun c _ => c.Minds source dest) (fun _ => True) dest mode where
  note := log_minds
  chown := fun _ _ => Makes.call ⟨rfl, rfl, rfl, touches_path rfl⟩ fun _ _ => .ofExcept _
  chmod := Makes.call ⟨rfl, rfl, rfl, touches_path rfl⟩ fun _ _ => .ofExcept _

/-! ## Copies of files -/

/-- Whether a program does nothing but what is done for an entry, with the hook in its places. -/
def Attends (source dest : String) (p : Program α) : Prop :=
  p.Yields Patient fun _ t => Handled source dest t

namespace Attends

theorem of_makes {p : Program α} (h : p.Makes Patient (Call.Minds source dest)) :
    p.Attends source dest :=
  Yields.mono (Meets.calls (h () trivial)) fun _ _ => Handled.of_minds

theorem bind_makes {p : Program α} {k : α → Program β} (first : p.Attends source dest)
    (onward : ∀ a, (k a).Makes Patient (Call.Minds source dest)) : (p.bind k).Attends source dest :=
  Yields.bind first (fun a _ handled => Yields.mono (Meets.calls (onward a () trivial)) fun _ _ =>
    handled.before) fun _ _ handled => handled

theorem makes_bind {p : Program α} {k : α → Program β}
    (first : p.Makes Patient (Call.Minds source dest)) (onward : ∀ a, (k a).Attends source dest) :
    (p.bind k).Attends source dest :=
  Yields.bind (Meets.calls (first () trivial)) (fun a _ minds => Yields.mono (onward a) fun _ _ =>
    Handled.after minds) fun _ _ => Handled.of_minds

theorem outcome {p : Program α} (h : p.Attends source dest) : p.outcome.Attends source dest :=
  Yields.mono (Yields.outcome h) fun _ _ ⟨_, _, handled⟩ => handled

theorem attempt {p : Program α} (h : p.Attends source dest) :
    (Program.attempt p).Attends source dest := by
  refine h.outcome.bind_makes fun r => ?_
  cases r with
  | ok a => exact .done _
  | error f => cases f <;> first | exact .done _ | exact .ofExcept (.error _)

theorem ensuring {body : Program α} {cleanup : Program Unit} (h : body.Attends source dest)
    (after : cleanup.Makes Patient (Call.Minds source dest)) :
    (Program.ensuring body cleanup).Attends source dest :=
  h.outcome.bind_makes fun r => .bind after fun _ => .ofExcept r

end Attends

/-- The hook gets control right after each piece that was written in full. -/
theorem copyPieces_attends (reading writing size : Int) (pieces : Nat) :
    (copyPieces reading writing size pieces).Attends source dest := by
  induction pieces with
  | zero => exact Handled.nil
  | succ pieces ih =>
    have reads : (read reading size).Makes Patient (Call.Minds source dest) :=
      Makes.call ⟨rfl, rfl, rfl, touches_none rfl⟩ fun _ _ => .ofExcept _
    refine Attends.makes_bind reads fun chunk => ?_
    split
    · exact .of_makes (.done _)
    · intro r _
      cases r with
      | error f => exact Handled.short rfl
      | ok written =>
        change Yields _ (if _ then _ else _) _
        split
        · next part => exact Handled.short (decide_eq_false part)
        · next full =>
          rintro _ rfl
          obtain rfl := not_not.mp full
          exact Yields.mono ih fun _ _ => Handled.piece

theorem stream_attends (c : Cloner) (reading writing : Int) :
    (stream c reading writing dest).Attends source dest := by
  refine (Attends.attempt ((copyPieces_attends reading writing c.chunkSize c.limits.pieces).bind_makes
    fun copied => ?_)).bind_makes fun result => ?_
  · cases copied with
    | none => exact .done _
    | some short => exact .bind (log_minds _ _ _) fun _ => .done _
  · cases result with
    | ok result => exact .done _
    | error e => exact .bind (log_minds _ _ _) fun _ => .done _

theorem fillFile_attends (c : Cloner) (reading writing mode : Int) :
    (fillFile c reading writing dest mode).Attends source dest := by
  have cut : (truncate dest 0).Makes Patient (Call.Minds source dest) :=
    Makes.call ⟨rfl, rfl, rfl, touches_path rfl⟩ fun _ _ => .ofExcept _
  have finishes : FinishCalls (anyWith Patient) (fun c _ => c.Minds source dest) (fun _ => True)
      dest mode := finishCalls_minds mode
  have streams : (stream c reading writing dest).Attends source dest :=
    stream_attends c reading writing
  have filled := (streams.bind_makes fun result =>
    (finishes.finishOwner c result).bind finishes.finishMode).ensuring
      (closeQuietly_minds writing "Error closing destination file" dest)
  refine Attends.makes_bind (Keeps.attempt cut) fun cut => ?_
  cases cut with
  | ok _ => exact filled
  | error e => exact Attends.makes_bind (log_minds _ _ _) fun _ => filled

theorem copyFile_attends (c : Cloner) (mode : Int) :
    (copyFile c source dest mode).Attends source dest := by
  have opens : (openRead source).Makes Patient (Call.Minds source dest) :=
    Makes.call ⟨rfl, rfl, rfl, touches_source rfl rfl⟩ fun _ _ => .ofExcept _
  have creates : (openExclusive dest).Makes Patient (Call.Minds source dest) :=
    Makes.call ⟨rfl, rfl, rfl, touches_path rfl⟩ fun _ _ => .ofExcept _
  refine Attends.makes_bind (Keeps.attempt opens) fun opened => ?_
  cases opened with
  | error e => exact .of_makes (.bind (log_minds _ _ _) fun _ => .done _)
  | ok reading =>
    refine Attends.ensuring (Attends.makes_bind (Keeps.attempt creates) fun created => ?_)
      (closeQuietly_minds _ _ _)
    cases created with
    | error e => exact .of_makes (.bind (log_minds _ _ _) fun _ => .done _)
    | ok writing => exact fillFile_attends c reading writing mode

/-! ## The walk -/

section

variable {w : Walk} {descend : String → String → List Identity → Program WalkState}
  (below : ∀ source dest entered, (descend source dest entered).Yields Patient
    fun out t => CutFrom (Visit source dest) out t)
include below

theorem cloneSubdirectory_visits (entry : Entry) (dest : String) (state : WalkState) :
    (cloneSubdirectory w descend entry dest state).Yields Patient fun out t =>
      CutFrom (Visit entry.path dest) out t := by
  obtain ⟨report, entered⟩ := state
  have closed : ∀ {p : Program WalkState}, p.Makes Patient (Call.Minds entry.path dest) →
      p.Yields Patient fun out t => CutFrom (Visit entry.path dest) out t :=
    fun makes => Yields.mono (Attends.of_makes makes) fun out _ handled =>
      .of_whole (.closed handled) out
  unfold cloneSubdirectory
  dsimp only
  split
  · exact closed (.bind (log_minds _ _ _) fun _ => .done _)
  refine Yields.bind (Meets.calls (isPlantedNonDirectory_minds () trivial)) (fun planted t minds => ?_)
    fun f t minds => .of_whole (.closed (.of_minds minds)) _
  refine Yields.mono (?_ : Yields Patient _ fun out t' => CutFrom (Visit entry.path dest) out t')
    fun out t' cut => cut.after fun _ => Visit.after minds
  split
  · exact closed (.done _)
  refine Yields.bind (Meets.calls (ensureDirectory_minds _ _ _ () trivial)) (fun created t minds => ?_)
    fun f t minds => .of_whole (.closed (.of_minds minds)) _
  refine Yields.mono (?_ : Yields Patient _ fun out t' => CutFrom (Visit entry.path dest) out t')
    fun out t' cut => cut.after fun _ => Visit.after minds
  split
  · exact closed (.done _)
  refine Yields.bind (below entry.path dest entered) (fun inner t cut => ?_)
    fun f t cut => cut.of_error [] fun t whole => ⟨[], by rwa [List.append_nil]⟩
  change CutFrom _ _ (t ++ [])
  rw [List.append_nil]
  exact .of_whole cut.whole_of_ok _

theorem cloneEntry_visits (name source dest : String) (state : WalkState) :
    (cloneEntry w descend name source dest state).Yields Patient fun out t =>
      ∃ look own, t = ⟨.lstat source, look⟩ :: own ∧ CutFrom (Visit source dest) out own := by
  have described : (describeEntry name source).Makes Patient (Call.Minds source dest) :=
    describeEntry_minds name
  refine Yields.attempt ((Meets.calls (described () trivial)).and_all
    (describeEntry_looks name source)) ?_ ?_ ?_
  · rintro entry _ ⟨minds, look, own, rfl, -, described⟩
    obtain ⟨rfl, -⟩ := described entry rfl
    obtain ⟨-, minds⟩ := List.forall_mem_cons.mp minds
    suffices rest : Yields Patient _ fun out t' => CutFrom (Visit entry.path dest) out t' from
      Yields.mono rest fun out t' cut => ⟨look, own ++ t', rfl, cut.after fun _ => Visit.after minds⟩
    have closed : ∀ {p : Program WalkState}, p.Attends entry.path dest →
        p.Yields Patient fun out t => CutFrom (Visit entry.path dest) out t :=
      fun attends => Yields.mono attends fun out _ handled => .of_whole (.closed handled) out
    dsimp only
    split
    · exact cloneSubdirectory_visits below entry dest state
    · exact closed ((copyFile_attends _ _).bind_makes fun _ => .done _)
    · exact closed (.of_makes (.bind (copySymlink_minds _ _ _ _) fun _ => .done _))
    · exact closed (.of_makes (.bind (log_minds _ _ _) fun _ => .done _))
  · rintro e _ ⟨minds, look, own, rfl, -, -⟩
    obtain ⟨-, minds⟩ := List.forall_mem_cons.mp minds
    exact fun _ _ => ⟨look, _, rfl, .of_whole (.closed ((Handled.of_minds minds).note _)) _⟩
  · rintro f _ - ⟨minds, look, own, rfl, -, -⟩
    obtain ⟨-, minds⟩ := List.forall_mem_cons.mp minds
    exact ⟨look, own, rfl, .of_whole (.closed (.of_minds minds)) _⟩

theorem cloneNames_tours (source dest : String) (names : List String) (state : WalkState) :
    (cloneNames w descend source dest names state).Yields Patient fun out t =>
      CutFrom (Tour source dest names) out t := by
  induction names generalizing state with
  | nil => exact .of_whole .nil _
  | cons name rest ih =>
    rintro _ rfl
    change Yields _ (if _ then _ else _) _
    split
    · next dots =>
      exact Yields.mono (ih state) fun out t cut => cut.after (t := [_]) fun _ => .dots dots
    · next proper =>
      refine (cloneEntry_visits below name _ _ state).bind (fun state₁ t reached => ?_)
        fun f t reached => ?_
      · obtain ⟨look, own, rfl, cut⟩ := reached
        refine Yields.mono (ih state₁) fun out t' cut' => ?_
        exact cut'.after (t := ⟨.pause, .ok ()⟩ :: ⟨.lstat _, look⟩ :: own) fun _ tour =>
          tour.cons proper look cut.whole_of_ok
      · obtain ⟨look, own, rfl, cut⟩ := reached
        obtain ⟨more, tour⟩ := Tour.exists source dest rest
        exact cut.of_error (t := own) [⟨.pause, .ok ()⟩, ⟨.lstat _, look⟩] fun _ visit =>
          ⟨more, by simpa using tour.cons proper look visit⟩

end

/-- The first two calls on a directory. -/
theorem opening_visits (source dest : String) :
    (do
      let status ← stat source
      return (status, ← list source) : Program (Status × List String)).Yields Patient
      fun out t => match out with
        | .ok (status, names) => t = [⟨.stat source, .ok status⟩, ⟨.list source, .ok names⟩]
        | .error _ => Handled source dest t := by
  have look : ∀ look, ∀ x ∈ [(⟨.stat source, look⟩ : Exchange)], x.call.Minds source dest :=
    fun look => List.forall_mem_singleton.mpr ⟨rfl, rfl, rfl, touches_source rfl rfl⟩
  rintro (f | status) _
  · exact Handled.of_minds (look _)
  rintro (f | names) _
  · have unlisted : Handled source dest [⟨.list source, .error f⟩] :=
      { streamed := .of_still (List.forall_mem_singleton.mpr ⟨rfl, rfl⟩)
        touches := List.forall_mem_singleton.mpr (touches_source rfl rfl)
        unlisted := List.forall_mem_singleton.mpr rfl }
    exact unlisted.after (look (.ok status))
  · rfl

/-- Copying the content of a directory has the hook in its places, and so has everything below it. -/
theorem cloneDirectory_visits (w : Walk) (depth : Nat) (source dest : String)
    (entered : List Identity) :
    (cloneDirectory w depth source dest entered).Yields Patient fun out t =>
      CutFrom (Visit source dest) out t := by
  induction depth generalizing source dest entered with
  | zero => exact .of_whole (.closed .nil) _
  | succ depth ih =>
    refine Yields.attempt (opening_visits source dest) ?_ ?_ ?_
    · rintro ⟨status, names⟩ _ rfl
      have look : Handled source dest [⟨.stat source, .ok status⟩] :=
        .of_minds (List.forall_mem_singleton.mpr ⟨rfl, rfl, rfl, touches_source rfl rfl⟩)
      exact Yields.mono (cloneNames_tours ih source dest names _) fun out t cut =>
        cut.after fun _ => .opened look
    · intro e t handled
      exact fun _ _ => .of_whole (.closed (handled.note _)) _
    · exact fun f t _ handled => .of_whole (.closed handled) _

theorem cloneTree_visits (source dest : String) (uid gid : Int) (chunkSize : Option Int)
    (limits : Limits) :
    (cloneTree source dest uid gid chunkSize limits).Yields Patient fun out t =>
      ∃ look walk, t = ⟨.stat dest, look⟩ :: walk ∧ CutFrom (Visit source dest) out walk := by
  have walked : ∀ w look, ((cloneDirectory w limits.depth source dest []).bind fun state =>
      done state.1).Yields Patient fun out t =>
        ∃ look' walk, ⟨.stat dest, look⟩ :: t = ⟨.stat dest, look'⟩ :: walk ∧
          CutFrom (Visit source dest) out walk := by
    intro w look
    refine (cloneDirectory_visits w limits.depth source dest []).bind (fun state t cut => ?_)
      fun f t cut => ⟨look, t, rfl, cut.of_error [] fun t whole => ⟨[], by rwa [List.append_nil]⟩⟩
    exact ⟨look, t ++ [], rfl, .of_whole (by rw [List.append_nil]; exact cut.whole_of_ok) _⟩
  rintro (f | status) _
  · cases f with
    | system e => exact walked _ _
    | _ => exact ⟨_, [], rfl, .of_whole (.closed .nil) _⟩
  · exact walked _ _

/-! ## The walk along the segments -/

section

variable {path segment : String} {segments : List String}

/-- Whether a trace has what is left to be done for one segment, the hook at its end, and then a walk
along others. -/
def SegmentEnds (segment : String) (segments : List String) (t : List Exchange) : Prop :=
  ∃ own after, t = own ++ ⟨.pause, .ok ()⟩ :: after ∧ (∀ x ∈ own, x.call.Stays segment) ∧
    Stepped segments after

theorem finishSegment_paces (segment : String) (result : StepResult) :
    (finishSegment segment result).Yields Patient fun out t => out = .ok () ∧
      ∃ own, t = own ++ [⟨.pause, .ok ()⟩] ∧ ∀ x ∈ own, x.call.Stays segment := by
  unfold finishSegment
  dsimp only
  split
  · rintro noted - _ rfl
    refine ⟨rfl, [⟨.log _, noted⟩], rfl, List.forall_mem_singleton.mpr ⟨rfl, ?_⟩⟩
    exact fun _ bad => by cases bad
  · rintro _ rfl
    exact ⟨rfl, [], rfl, fun _ mem => absurd mem List.not_mem_nil⟩

/-- Making sure of a directory begins with a look at it. -/
theorem ensureDirectory_looks (path : String) (uid gid mode : Int) :
    (ensureDirectory path uid gid mode).Yields allowed fun _ t =>
      ∃ look own, t = ⟨.stat path, look⟩ :: own ∧ ∀ x ∈ own, x.call.Stays path := by
  intro look ok
  have makes : (ensureDirectory path uid gid mode).Makes allowed (Call.Minds path path) :=
    ensureDirectory_minds uid gid mode
  have made := makes () trivial
  exact Yields.mono (Meets.calls (made.2 look () ok)) fun _ t minds =>
    ⟨look, t, rfl, fun x mem => (minds x mem).stays⟩

theorem ensureDirectory_steps {q : StepResult → Program β} (uid gid mode : Int)
    (onward : ∀ r, (q r).Yields Patient fun out t => CutFrom (SegmentEnds segment segments) out t) :
    ((ensureDirectory segment uid gid mode).bind q).Yields Patient fun out t =>
      CutFrom (Stepped (segment :: segments)) out t := by
  refine Yields.bind (ensureDirectory_looks segment uid gid mode) (fun r t reached => ?_)
    fun f t reached => ?_
  · obtain ⟨look, own, rfl, stays⟩ := reached
    refine Yields.mono (onward r) fun out t' cut => cut.after ?_
    rintro _ ⟨own', after, rfl, stays', stepped⟩
    simpa using Stepped.cons look (List.forall_mem_append.mpr ⟨stays, stays'⟩) stepped
  · obtain ⟨look, own, rfl, stays⟩ := reached
    obtain ⟨after, stepped⟩ := Stepped.exists segments
    exact ⟨⟨.pause, .ok ()⟩ :: after, fun _ bad => (by cases bad), .cons look stays stepped⟩

theorem walkSegments_steps (uid gid intermediateMode finalMode : Int) (segments : List String) :
    (walkSegments uid gid intermediateMode finalMode segments).Yields Patient fun out t =>
      CutFrom (Stepped segments) out t := by
  induction segments with
  | nil => exact .of_whole .nil _
  | cons segment rest ih =>
    cases rest with
    | nil =>
      refine ensureDirectory_steps _ _ _ fun result => ?_
      refine Yields.mono (finishSegment_paces segment result) fun out t reached => .of_whole ?_ _
      obtain ⟨_, own, rfl, stays⟩ := reached
      exact ⟨own, [], rfl, stays, .nil⟩
    | cons next more =>
      refine ensureDirectory_steps _ _ _ fun result => ?_
      refine Yields.bind (finishSegment_paces segment result) (fun _ t reached => ?_)
        fun f t reached => by cases reached.1
      obtain ⟨_, own, rfl, stays⟩ := reached
      refine Yields.mono ih fun out t' cut => cut.after fun after stepped => ?_
      exact ⟨own, after, by simp, stays, stepped⟩

theorem exists?_paces (path : String) :
    (exists? path).Yields allowed fun out t => ∃ look, t = [⟨.stat path, look⟩] ∧
      (∀ there, out = .ok there → there = look.isOk) ∧ ∀ f, out = .error f → look = .error f := by
  rintro (f | status) _
  · cases f with
    | system e => exact ⟨_, rfl, fun _ same => (by cases same; rfl), fun _ bad => by cases bad⟩
    | _ => exact ⟨_, rfl, fun _ bad => (by cases bad), fun _ same => by cases same; rfl⟩
  · exact ⟨_, rfl, fun _ same => (by cases same; rfl), fun _ bad => by cases bad⟩

/-- The way to a home has the hook in its places. -/
theorem ensurePath_walks (path user : String) (uid gid intermediateMode finalMode : Int) :
    (ensurePath path user uid gid intermediateMode finalMode).Yields Patient fun out t =>
      CutFrom (Walked path) out t := by
  have finish : ∀ there : Bool, (if there = true then do
        log .debug "Home directory created" [("path", .text path), ("user", .text user)]
        return .ok (some path)
      else return .failure .path path ("home directory for " ++ user ++ " was not created") :
      Program StepResult).Yields Patient fun _ t => ∀ x ∈ t, x.call.Stays path := by
    intro there
    cases there with
    | true =>
      exact fun _ _ => List.forall_mem_singleton.mpr ⟨rfl, fun _ bad => by cases bad⟩
    | false => exact fun _ mem => absurd mem List.not_mem_nil
  have again (look : Except Fault Status) : (⟨.stat path, look⟩ : Exchange).call.Stays path :=
    ⟨rfl, fun _ same => by cases same; rfl⟩
  refine (exists?_paces path).bind (fun there t looked => ?_) fun f t looked => ?_
  · obtain ⟨look, rfl, same, _⟩ := looked
    obtain rfl := same there rfl
    cases look with
    | ok status => exact .of_whole (.there status) _
    | error f =>
      -- the log of the beginning
      intro event _
      change Yields _ ((walkSegments uid gid intermediateMode finalMode (Path.ancestors path)).bind _) _
      refine Yields.bind (walkSegments_steps uid gid intermediateMode finalMode (Path.ancestors path))
        (fun _ steps cut => ?_) fun g steps cut => ?_
      · suffices last : Yields Patient _ fun _ t => ∀ x ∈ t, x.call.Stays path from
          Yields.mono last fun out t stays => .of_whole (.missing f _ cut.whole_of_ok stays) _
        split
        · exact finish false
        refine Yields.bind (exists?_paces path) (fun there t looked => ?_) fun f t looked => ?_
        · obtain ⟨look, rfl, -⟩ := looked
          exact Yields.mono (finish there) fun _ _ stays => List.forall_mem_cons.mpr ⟨again look, stays⟩
        · obtain ⟨look, rfl, -⟩ := looked
          exact List.forall_mem_singleton.mpr (again look)
      · refine cut.of_error (t := steps) [⟨.stat path, .error f⟩, ⟨.log _, event⟩] fun t stepped =>
          ⟨[], ?_⟩
        rw [List.append_nil]
        exact .of_stepped f _ stepped
  · obtain ⟨look, rfl, _, same⟩ := looked
    obtain rfl := same f rfl
    obtain ⟨steps, stepped⟩ := Stepped.exists (Path.ancestors path)
    exact ⟨⟨.log ⟨.debug, "", []⟩, ()⟩ :: steps, fun _ bad => (by cases bad), .of_stepped f _ stepped⟩

end

/-! ## Work -/

/-- The hook gets control exactly where it should, in every world in which it does not fail.

On the way to a home that is not there it gets control once for each segment, after the calls for it,
and if the path leads to something it does not. In a clone it gets control once for each name that a
listing came back with, before any call for it, and once after each piece of a file that was written
in full; in between the calls are made for one entry, and one of them writes at most. A run that ends
with a fault is a first part of such a walk. Where calls fail only with errors of the system that is
no more than the limit of a clone. -/
theorem work_pauses {world : Layer σ} (patient : world.Allows Patient) (s : σ) :
    (∀ (path user : String) (uid gid intermediateMode finalMode : Int),
      let way := ensurePath path user uid gid intermediateMode finalMode
      let t := way.trace world s
      CutFrom (Walked path) (way.run world s).1 t ∧
        (∀ result, (way.run world s).1 = .ok result → ∃ look after, t = ⟨.stat path, look⟩ :: after ∧
          pauses t = if look.isOk then 0 else (Path.ancestors path).length) ∧
        ((∀ x ∈ t, Orderly x.call x.reply) → ∃ result, (way.run world s).1 = .ok result)) ∧
    ∀ (source dest : String) (uid gid : Int) (chunkSize : Option Int) (limits : Limits),
      let clone := cloneTree source dest uid gid chunkSize limits
      let t := clone.trace world s
      (∃ look walk, t = ⟨.stat dest, look⟩ :: walk ∧
        CutFrom (Visit source dest) (clone.run world s).1 walk) ∧
        (∀ report, (clone.run world s).1 = .ok report →
          pauses t = (allNamesListed t).length + pieces t) ∧
        (∀ before r during after, t = before ++ ⟨.pause, r⟩ :: (during ++ after) →
          (∀ x ∈ during, x.call.isPause = false) →
          (∃ source dest, ∀ x ∈ during, x.call.Touches source dest) ∧
            during.countP (fun x => x.call.writes) ≤ 1) ∧
        ((∀ x ∈ t, Orderly x.call x.reply) → ∀ f, (clone.run world s).1 = .error f → f = .limit) := by
  refine ⟨fun path user uid gid intermediateMode finalMode => ?_,
    fun source dest uid gid chunkSize limits => ?_⟩
  · intro way t
    have walks : CutFrom (Walked path) (way.run world s).1 t :=
      (ensurePath_walks path user uid gid intermediateMode finalMode).run patient
    refine ⟨walks, fun result ends => ?_, fun orderly => ?_⟩
    · rw [ends] at walks
      exact walks.whole_of_ok.count
    · obtain ⟨result, ends, _⟩ :=
        (ensurePath_yields path user uid gid intermediateMode finalMode).run_of_trace orderly
      exact ⟨result, ends⟩
  · intro clone t
    obtain ⟨look, walk, split, visits⟩ : ∃ look walk, t = ⟨.stat dest, look⟩ :: walk ∧
        CutFrom (Visit source dest) (clone.run world s).1 walk :=
      (cloneTree_visits source dest uid gid chunkSize limits).run patient
    refine ⟨⟨look, walk, split, visits⟩, fun report ends => ?_,
      fun before r during after same quiet => ?_, fun orderly => ?_⟩
    · rw [ends] at visits
      rw [split, pauses_cons _ rfl, allNamesListed_cons _ rfl, pieces_cons _ rfl]
      exact visits.whole_of_ok.count
    · obtain ⟨rest, _, visit⟩ := visits
      -- a call of the hook put in front makes a beat of what comes before the first one
      have beats := visit.beats [⟨.stat dest, look⟩]
        (List.forall_mem_singleton.mpr ⟨rfl, rfl, rfl, touches_path rfl⟩)
      have longer : ⟨.pause, .ok ()⟩ :: ([⟨.stat dest, look⟩] ++ (walk ++ rest)) =
          ⟨.pause, .ok ()⟩ :: before ++ ⟨.pause, r⟩ :: (during ++ (after ++ rest)) := by
        simpa using congrArg (· ++ rest) (split.symm.trans same)
      exact beats.between _ longer quiet
    · exact ((cloneTree_yields source dest uid gid chunkSize limits).run_of_trace orderly).1

/-- A skeleton of three entries, one of which is a directory that cannot be listed and one a file of
two bytes that is copied byte by byte. On the way to a new home there are two segments. -/
theorem work_pauses_unlisted :
    let world := Machine.refusing (fun c => decide (c = .list "/skel/d"))
      (Machine.refused "/skel/d" .inputOutput)
    let way := ensurePath "/home/alice" "alice" 7 7 0o711 0o700
    let clone := cloneTree "/skel" "/home" 7 7 (some 1) { depth := 3, pieces := 3 }
    (∃ result look after, (way.run world Machine.sample).1 = .ok result ∧
      way.trace world Machine.sample = ⟨.stat "/home/alice", look⟩ :: after ∧
      pauses (way.trace world Machine.sample) = if look.isOk then 0 else 2) ∧
    ∃ look walk, clone.trace world Machine.sample = ⟨.stat "/home", look⟩ :: walk ∧
      CutFrom (Visit "/skel" "/home") (clone.run world Machine.sample).1 walk ∧
      pauses (clone.trace world Machine.sample) = 3 + 2 := by
  intro world way clone
  have patient : world.Allows Patient := by
    intro c m
    cases c with
    | pause => rfl
    | _ => trivial
  obtain ⟨ways, clones⟩ := work_pauses patient Machine.sample
  obtain ⟨_, counted, ends⟩ := ways "/home/alice" "alice" 7 7 0o711 0o700
  obtain ⟨result, ends⟩ := ends (by decide +kernel)
  obtain ⟨look, after, split, count⟩ := counted result ends
  obtain ⟨⟨look', walk, split', visits⟩, counted', _, -⟩ :=
    clones "/skel" "/home" 7 7 (some 1) { depth := 3, pieces := 3 }
  have reported : (clone.run world Machine.sample).1.isOk = true := by decide +kernel
  refine ⟨⟨result, look, after, ends, split, count⟩, look', walk, split', visits, ?_⟩
  cases run : (clone.run world Machine.sample).1 with
  | error f =>
    rw [run] at reported
    cases reported
  | ok report =>
    rw [counted' report run]
    decide +kernel

end Program

end HomeProvision
