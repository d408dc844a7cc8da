import HomeProvision.Proofs.Parts
import HomeProvision.Provision.Home

/-!
# What a request keeps

A request is carried out by looks, listings, the hook, and three kinds of parts: a directory is made
sure of, a file is copied, a link is placed. An invariant that each of them keeps on every path is
kept by the clone of a skeleton and by the whole request (`RequestParts.cloneTree` and
`RequestParts.establishHome`). Some invariants are lost when a part fails, and then the failure ends
the request: what its parts keep while they go well, a request keeps while it goes well
(`CarryingParts`). An invariant that every call keeps which work consists of is kept by all parts
(`RequestParts.of_calls`). Only the walk itself lists directories, so that the parts of copying an
entry need the other calls only (`EntryParts.of_calls`). The looks and the copies of links need few
calls (`LookParts.of_calls`).

What a look shows of a home holds after the home was made sure of (`ensurePath_succeeds`).
-/

namespace HomeProvision

/-- Whether a call is one that work consists of: it is made to the file system or to the hook, or
notes an event. -/
def Call.isWork : Call → Bool
  | .lookupUser _ | .realUid | .effectiveUid | .effectiveGid | .setEffectiveUid _
  | .setEffectiveGid _ | .elevate | .relinquish => false
  | _ => true

/-- Whether a call lists a directory. -/
def Call.isListing : Call → Bool
  | .list _ => true
  | _ => false

/-- Whether a call gives control to the hook. -/
def Call.isPause : Call → Bool
  | .pause => true
  | _ => false

/-- Whether a call belongs to the looks at an entry or to the copy of a link. -/
def Call.isLight : Call → Bool
  | .stat _ | .lstat _ | .readlink _ | .symlink _ _ | .lchown _ _ _ | .log _ => true
  | _ => false

theorem Call.isWork_of_isLight (c : Call) (light : c.isLight = true) : c.isWork = true := by
  cases c <;> first | rfl | cases light

theorem Call.isListing_of_isLight (c : Call) (light : c.isLight = true) : c.isListing = false := by
  cases c <;> first | rfl | cases light

theorem Call.isPause_of_isLight (c : Call) (light : c.isLight = true) : c.isPause = false := by
  cases c <;> first | rfl | cases light

namespace Program

variable {α β τ : Type} {rule : Rule τ} {guard : Call → τ → Prop} {invariant : τ → Prop}

/-- What looks at an entry and the copy of a link keep, however they end. -/
structure LookParts (rule : Rule τ) (guard : Call → τ → Prop) (invariant : τ → Prop) : Prop where
  note : KeepsLog rule guard invariant
  stat : ∀ path, (stat path).Keeps rule guard invariant
  lstat : ∀ path, (lstat path).Keeps rule guard invariant
  readlink : ∀ path, (readlink path).Keeps rule guard invariant
  link : ∀ c target path, (placeLink c target path).Keeps rule guard invariant

/-- What the parts of copying one entry keep. -/
structure EntryParts (rule : Rule τ) (guard : Call → τ → Prop) (invariant : τ → Prop) : Prop
    extends LookParts rule guard invariant where
  pause : pause.Keeps rule guard invariant
  directory : ∀ path uid gid mode, (ensureDirectory path uid gid mode).Keeps rule guard invariant
  file : ∀ c source path mode, (copyFile c source path mode).Keeps rule guard invariant

/-- What the parts of a request keep. -/
structure RequestParts (rule : Rule τ) (guard : Call → τ → Prop) (invariant : τ → Prop) : Prop
    extends EntryParts rule guard invariant where
  list : ∀ path, (list path).Keeps rule guard invariant

/-- What the parts of a request keep while they go well. A failure of the hook, of making a directory
or of copying a file ends the request, and is then as `last` says. -/
structure CarryingParts (rule : Rule τ) (guard : Call → τ → Prop) (invariant : τ → Prop)
    (last : Fault → τ → Prop) : Prop extends LookParts rule guard invariant where
  leave : ∀ f s, invariant s → last f s
  list : ∀ path, (list path).Keeps rule guard invariant
  pause : pause.Carries rule guard invariant last
  directory : ∀ path uid gid mode,
    (ensureDirectory path uid gid mode).Carries rule guard invariant last
  file : ∀ c source path mode, (copyFile c source path mode).Carries rule guard invariant last

/-- What the parts of the way to a home keep while they go well, on the paths that are covered. -/
structure WayParts (rule : Rule τ) (guard : Call → τ → Prop) (invariant : τ → Prop)
    (last : Fault → τ → Prop) (covers : String → Prop) : Prop where
  leave : ∀ f s, invariant s → last f s
  note : KeepsLog rule guard invariant
  stat : ∀ path, covers path → (stat path).Keeps rule guard invariant
  pause : pause.Carries rule guard invariant last
  directory : ∀ path uid gid mode, covers path →
    (ensureDirectory path uid gid mode).Carries rule guard invariant last

namespace Keeps

/-- An attempt, and a way to go on from its result and one from an error. -/
theorem attempted {p : Program α} {k : Except SystemError α → Program β}
    (first : p.Keeps rule guard invariant) (onward : ∀ a, (k (.ok a)).Keeps rule guard invariant)
    (caught : ∀ e, (k (.error e)).Keeps rule guard invariant) :
    ((Program.attempt p).bind k).Keeps rule guard invariant :=
  (Keeps.attempt first).bind fun result =>
    match result with
    | .ok a => onward a
    | .error e => caught e

end Keeps

namespace Carries

variable {last : Fault → τ → Prop} (leave : ∀ f s, invariant s → last f s)
include leave

/-- A part that keeps the invariant however it ends, and a way to go on. -/
theorem onward {p : Program α} {k : α → Program β} (first : p.Keeps rule guard invariant)
    (onward : ∀ a, (k a).Carries rule guard invariant last) :
    (p.bind k).Carries rule guard invariant last :=
  (Carries.of_keeps leave first).bind onward

/-- An attempt, and a way to go on from its result and one from an error. -/
theorem attempted {p : Program α} {k : Except SystemError α → Program β}
    (first : p.Keeps rule guard invariant)
    (onward : ∀ a, (k (.ok a)).Carries rule guard invariant last)
    (caught : ∀ e, (k (.error e)).Carries rule guard invariant last) :
    ((Program.attempt p).bind k).Carries rule guard invariant last :=
  Carries.onward leave (Keeps.attempt first) fun result =>
    match result with
    | .ok a => onward a
    | .error e => caught e

end Carries

/-! ## Entries -/

namespace LookParts

variable (h : LookParts rule guard invariant)
include h

theorem copySymlink (c : Cloner) (sourceTop source destTop path : String)
    (target : Option String) :
    (copySymlink c sourceTop source destTop path target).Keeps rule guard invariant := by
  refine keeps_copySymlink (fun _ => True) h.note (fun t start => ?_)
    (fun target _ => h.link c _ path) fun _ _ => trivial
  exact (h.readlink source t start).mono fun _ _ kept => ⟨kept, fun _ _ => trivial⟩

theorem isPlantedNonDirectory (path : String) :
    (isPlantedNonDirectory path).Keeps rule guard invariant := by
  refine Keeps.attempted (h.lstat path) (fun status => ?_) fun _ => .done _
  refine Keeps.bind (Keeps.ofExcept _) fun mode => ?_
  split
  · exact .done _
  · exact (h.note _ _ _).bind fun _ => .done _

theorem describeEntry (name path : String) :
    (describeEntry name path).Keeps rule guard invariant := by
  refine (h.lstat path).bind fun status => Keeps.bind (Keeps.ofExcept _) fun entry => ?_
  split
  · exact Keeps.attempted (h.readlink path) (fun _ => .done _) fun _ => .done _
  · exact .done _

end LookParts

/-! ## Parts that keep what their calls keep -/

section

variable
  (keeps : ∀ (c : Call) s, c.isWork = true → c.isListing = false → c.isPause = false →
    invariant s → guard c s ∧ ∀ r s', rule c s r s' → invariant s')
include keeps

/-- One call that neither lists a directory nor gives control to the hook, and a way to go on. -/
theorem Keeps.one {c : Call} {next : c.Reply → Program β} (work : c.isWork = true)
    (unlisted : c.isListing = false) (own : c.isPause = false)
    (onward : ∀ r, (next r).Keeps rule guard invariant) :
    (call c next).Keeps rule guard invariant :=
  fun s h => ⟨(keeps c s work unlisted own h).1, fun r s' step =>
    onward r s' ((keeps c s work unlisted own h).2 r s' step)⟩

theorem Keeps.note_of_calls : KeepsLog rule guard invariant :=
  fun _ _ _ => .one keeps rfl rfl rfl fun _ => .done _

/-- Making sure of a directory neither lists one nor gives control to the hook. -/
theorem DirectoryCalls.of_calls (path : String) (uid gid mode : Int) :
    DirectoryCalls rule guard invariant invariant path uid gid mode where
  note := .note_of_calls keeps
  stat := .one keeps rfl rfl rfl .ofExcept
  umask := fun _ => .one keeps rfl rfl rfl .ofExcept
  umaskNew := fun _ => .one keeps rfl rfl rfl .ofExcept
  mkdir := fun s h => (Keeps.one keeps rfl rfl rfl .ofExcept s h).mono fun _ _ h' =>
    ⟨h', fun _ _ => h'⟩
  chown := .one keeps rfl rfl rfl .ofExcept
  leave := fun _ h => h

end

/-- Looks at an entry and the copy of a link keep what their calls keep. -/
theorem LookParts.of_calls
    (keeps : ∀ (c : Call) s, c.isLight = true → invariant s →
      guard c s ∧ ∀ r s', rule c s r s' → invariant s') : LookParts rule guard invariant := by
  have one : ∀ {β : Type} {c : Call} {next : c.Reply → Program β}, c.isLight = true →
      (∀ r, (next r).Keeps rule guard invariant) → (call c next).Keeps rule guard invariant :=
    fun light onward s h => ⟨(keeps _ s light h).1, fun r s' step =>
      onward r s' ((keeps _ s light h).2 r s' step)⟩
  have note : KeepsLog rule guard invariant := fun _ _ _ => one rfl fun _ => .done _
  have link : ∀ path uid gid target,
      LinkCalls rule guard invariant invariant path uid gid target := fun path uid gid target =>
    { note
      symlink := fun s h => (one rfl .ofExcept s h).mono fun _ _ h' => ⟨h', fun _ _ => h'⟩
      lchown := one rfl .ofExcept
      leave := fun _ h => h }
  exact
    { note
      stat := fun _ => one rfl .ofExcept
      lstat := fun _ => one rfl .ofExcept
      readlink := fun _ => one rfl .ofExcept
      link := fun c target path => (link path c.uid c.gid target).placeLink }

/-- The parts of copying an entry keep what all calls but listings keep that work consists of. -/
theorem EntryParts.of_calls
    (keeps : ∀ (c : Call) s, c.isWork = true → c.isListing = false → invariant s →
      guard c s ∧ ∀ r s', rule c s r s' → invariant s') :
    EntryParts rule guard invariant := by
  have others : ∀ (c : Call) s, c.isWork = true → c.isListing = false → c.isPause = false →
      invariant s → guard c s ∧ ∀ r s', rule c s r s' → invariant s' :=
    fun c s work unlisted _ => keeps c s work unlisted
  have pause : Program.pause.Keeps rule guard invariant := fun s h =>
    ⟨(keeps .pause s rfl rfl h).1, fun r s' step =>
      Keeps.ofExcept r s' ((keeps .pause s rfl rfl h).2 r s' step)⟩
  have file : ∀ source path mode,
      CopyCalls rule guard invariant (fun _ => invariant) source path mode := fun source path mode =>
    { note := .note_of_calls others
      openRead := .one others rfl rfl rfl .ofExcept
      close := fun _ => .one others rfl rfl rfl .ofExcept
      openExclusive := fun s h =>
        (Keeps.one others rfl rfl rfl .ofExcept s h).mono fun _ _ h' => ⟨h', fun _ _ => h'⟩
      file := fun _ _ =>
        { note := .note_of_calls others
          read := fun _ => .one others rfl rfl rfl .ofExcept
          write := fun _ => .one others rfl rfl rfl .ofExcept
          pause
          truncate := .one others rfl rfl rfl .ofExcept
          chown := fun _ _ => .one others rfl rfl rfl .ofExcept
          chmod := .one others rfl rfl rfl .ofExcept }
      leave := fun _ _ h => h }
  exact
    { LookParts.of_calls fun c s light => others c s (c.isWork_of_isLight light)
        (c.isListing_of_isLight light) (c.isPause_of_isLight light) with
      pause
      directory := fun path uid gid mode =>
        (DirectoryCalls.of_calls others path uid gid mode).ensureDirectory
      file := fun c source path mode => (file source path mode).copyFile c }

/-- The parts of a request keep what all calls keep that work consists of. -/
theorem RequestParts.of_calls
    (keeps : ∀ (c : Call) s, c.isWork = true → invariant s →
      guard c s ∧ ∀ r s', rule c s r s' → invariant s') :
    RequestParts rule guard invariant :=
  { EntryParts.of_calls fun c s work _ => keeps c s work with
    list := fun path s h => ⟨(keeps (.list path) s rfl h).1, fun r s' step =>
      Keeps.ofExcept r s' ((keeps (.list path) s rfl h).2 r s' step)⟩ }

/-! ## The way to a home -/

namespace WayParts

variable {last : Fault → τ → Prop} {covers : String → Prop}
  (h : WayParts rule guard invariant last covers)
include h

theorem exists? {path : String} (covered : covers path) :
    (exists? path).Carries rule guard invariant last :=
  Carries.attempted h.leave (h.stat path covered) (fun _ => .done _) fun _ => .done _

theorem finishSegment (segment : String) (result : StepResult) :
    (finishSegment segment result).Carries rule guard invariant last := by
  unfold Program.finishSegment
  dsimp only
  split
  · exact Carries.onward h.leave (h.note _ _ _) fun _ => h.pause
  · exact h.pause

theorem walkSegments (uid gid intermediateMode finalMode : Int) {segments : List String}
    (covered : ∀ segment ∈ segments, covers segment) :
    (walkSegments uid gid intermediateMode finalMode segments).Carries rule guard invariant last := by
  induction segments with
  | nil => exact .done _
  | cons segment rest ih =>
    obtain ⟨first, others⟩ := List.forall_mem_cons.mp covered
    cases rest with
    | nil => exact (h.directory _ _ _ _ first).bind fun result => h.finishSegment _ result
    | cons next more =>
      exact (h.directory _ _ _ _ first).bind fun result =>
        (h.finishSegment _ result).bind fun _ => ih others

theorem ensurePath {path : String} (covered : covers path)
    (above : ∀ segment ∈ Path.ancestors path, covers segment) (user : String)
    (uid gid intermediateMode finalMode : Int) :
    (ensurePath path user uid gid intermediateMode finalMode).Carries rule guard invariant last := by
  refine (h.exists? covered).bind fun there => ?_
  dsimp only
  split
  · exact .done _
  refine Carries.onward h.leave (h.note _ _ _) fun _ =>
    (h.walkSegments uid gid intermediateMode finalMode above).bind fun _ => ?_
  have finish : ∀ there : Bool,
      (if there = true then do
          log .debug "Home directory created" [("path", .text path), ("user", .text user)]
          return .ok (some path)
        else return .failure .path path ("home directory for " ++ user ++ " was not created") :
        Program StepResult).Carries rule guard invariant last := by
    intro there
    split
    · exact Carries.onward h.leave (h.note _ _ _) fun _ => .done _
    · exact .done _
  split
  · exact finish false
  · exact (h.exists? covered).bind finish

end WayParts

/-- Making sure of a path succeeds if one of two looks goes well: the one at the start, or the one
that follows the walk. What holds then, holds in the end. -/
theorem ensurePath_succeeds {path user : String} {uid gid intermediateMode finalMode : Int}
    (away : τ → Prop) {walked good : τ → Prop} {s : τ}
    (first : (exists? path).Meets rule guard (fun out s' => ∀ there, out = .ok there →
      (there = true → good s') ∧ (there = false → away s')) s)
    (notes : ∀ event about, (log .debug event about).Keeps rule guard away)
    (walk : ∀ s', away s' →
      (walkSegments uid gid intermediateMode finalMode (Path.ancestors path)).Meets rule guard
        (fun out s'' => ∀ u, out = .ok u → walked s'') s')
    (last : Path.ancestors path ≠ [] → ∀ s', walked s' → (exists? path).Meets rule guard
      (fun out s'' => out = .ok true → good s'') s')
    (tells : ∀ event about, (log .debug event about).Keeps rule guard good) :
    (ensurePath path user uid gid intermediateMode finalMode).Meets rule guard
      (fun out s' => ∀ result, out = .ok result → result.success = true → good s') s := by
  have finish : ∀ (there : Bool) (s' : τ), (there = true → good s') →
      (if there = true then do
          log .debug "Home directory created" [("path", .text path), ("user", .text user)]
          return .ok (some path)
        else return .failure .path path ("home directory for " ++ user ++ " was not created") :
        Program StepResult).Meets rule guard
        (fun out s'' => ∀ result, out = .ok result → result.success = true → good s'') s' := by
    intro there s' found
    split
    · next here => exact (tells _ _ s' (found here)).onward fun _ _ kept _ _ _ => kept
    · intro result same success
      cases same
      cases success
  refine first.onward fun there s₁ looked => ?_
  obtain ⟨found, missed⟩ := looked there rfl
  dsimp only
  split
  · next here => exact fun _ _ _ => found here
  · next gone =>
    refine (notes _ _ s₁ (missed (Bool.eq_false_iff.mpr gone))).onward fun _ s₂ still => ?_
    refine (walk s₂ still).onward fun u s₃ reached => ?_
    split
    · exact finish false s₃ fun bad => by cases bad
    · next more =>
      have some : Path.ancestors path ≠ [] := fun none => more (List.isEmpty_iff.mpr none)
      exact (last some s₃ (reached u rfl)).onward fun there s₄ looked =>
        finish there s₄ fun here => looked (congrArg _ here)

/-! ## The clone of a skeleton -/

namespace CarryingParts

variable {last : Fault → τ → Prop} (h : CarryingParts rule guard invariant last)
include h

/-- A part that keeps the invariant however it ends, and a way to go on. -/
theorem onward {p : Program α} {k : α → Program β} (first : p.Keeps rule guard invariant)
    (onward : ∀ a, (k a).Carries rule guard invariant last) :
    (p.bind k).Carries rule guard invariant last :=
  Carries.onward h.leave first onward

/-- An attempt, and a way to go on from its result and one from an error. -/
theorem attempted {p : Program α} {k : Except SystemError α → Program β}
    (first : p.Keeps rule guard invariant)
    (onward : ∀ a, (k (.ok a)).Carries rule guard invariant last)
    (caught : ∀ e, (k (.error e)).Carries rule guard invariant last) :
    ((Program.attempt p).bind k).Carries rule guard invariant last :=
  Carries.attempted h.leave first onward caught

section

variable {w : Walk} {descend : String → String → List Identity → Program WalkState}
  (below : ∀ source dest entered, (descend source dest entered).Carries rule guard invariant last)
include below

theorem cloneSubdirectory (entry : Entry) (dest : String) (state : WalkState) :
    (cloneSubdirectory w descend entry dest state).Carries rule guard invariant last := by
  obtain ⟨report, entered⟩ := state
  unfold Program.cloneSubdirectory
  dsimp only
  split
  · exact h.onward (h.note _ _ _) fun _ => .done _
  · refine h.onward (h.isPlantedNonDirectory dest) fun planted => ?_
    split
    · exact .done _
    · refine (h.directory dest _ _ _).bind fun created => ?_
      split
      · exact .done _
      · exact (below entry.path dest entered).bind fun _ => .done _

theorem cloneEntry (name source dest : String) (state : WalkState) :
    (cloneEntry w descend name source dest state).Carries rule guard invariant last := by
  refine h.attempted (h.describeEntry name source) (fun entry => ?_)
    fun e => h.onward (h.note _ _ _) fun _ => .done _
  dsimp only
  split
  · exact h.cloneSubdirectory below entry dest state
  · exact (h.file _ _ _ _).bind fun _ => .done _
  · exact h.onward (h.copySymlink _ _ _ _ _ _) fun _ => .done _
  · exact h.onward (h.note _ _ _) fun _ => .done _

theorem cloneNames (source dest : String) (names : List String) (state : WalkState) :
    (cloneNames w descend source dest names state).Carries rule guard invariant last := by
  induction names generalizing state with
  | nil => exact .done _
  | cons name rest ih =>
    refine h.pause.bind fun _ => ?_
    split
    · exact ih state
    · exact (h.cloneEntry below name _ _ state).bind ih

end

theorem cloneDirectory (w : Walk) (depth : Nat) (source dest : String) (entered : List Identity) :
    (cloneDirectory w depth source dest entered).Carries rule guard invariant last := by
  induction depth generalizing source dest entered with
  | zero => exact .of_keeps h.leave (.raise _)
  | succ depth ih =>
    refine h.attempted ?_ (fun opened => h.cloneNames ih source dest opened.2 _)
      fun e => h.onward (h.note _ _ _) fun _ => .done _
    exact (h.stat source).bind fun status => (h.list source).bind fun names => .done _

theorem cloneTree (source dest : String) (uid gid : Int) (chunkSize : Option Int)
    (limits : Limits) :
    (cloneTree source dest uid gid chunkSize limits).Carries rule guard invariant last :=
  h.attempted (h.stat dest)
    (fun _ => (h.cloneDirectory _ _ source dest []).bind fun _ => .done _)
    fun _ => (h.cloneDirectory _ _ source dest []).bind fun _ => .done _

/-! ## Requests -/

theorem ensurePath (path user : String) (uid gid intermediateMode finalMode : Int) :
    (ensurePath path user uid gid intermediateMode finalMode).Carries rule guard invariant last :=
  have way : WayParts rule guard invariant last fun _ => True :=
    { leave := h.leave
      note := h.note
      stat := fun path _ => h.stat path
      pause := h.pause
      directory := fun path uid gid mode _ => h.directory path uid gid mode }
  way.ensurePath trivial (fun _ _ => trivial) user uid gid intermediateMode finalMode

theorem fillHome (r : Request) (chunkSize : Option Int) (limits : Limits) :
    (fillHome r chunkSize limits).Carries rule guard invariant last := by
  unfold Program.fillHome
  split
  · exact .done _
  · exact .done _
  · refine h.onward (h.note _ _ _) fun _ => (h.cloneTree _ _ _ _ _ _).bind fun report => ?_
    dsimp only
    split
    · exact h.onward (h.note _ _ _) fun _ => .done _
    · exact .done _

/-- The work of a request keeps what its parts keep. -/
theorem establishHome (r : Request) (user : String) (chunkSize : Option Int) (limits : Limits) :
    (establishHome r user chunkSize limits).Carries rule guard invariant last := by
  refine (h.ensurePath _ _ _ _ _ _).bind fun result => ?_
  split
  · exact (h.fillHome r chunkSize limits).bind fun _ => .done _
  · exact h.onward (h.note _ _ _) fun _ => .done _

end CarryingParts

/-! ## Parts that keep an invariant however they end -/

namespace RequestParts

variable (h : RequestParts rule guard invariant)
include h

theorem carrying : CarryingParts rule guard invariant fun _ => invariant :=
  { h.toLookParts with
    leave := fun _ _ h => h
    list := h.list
    pause := .of_keeps (fun _ _ h => h) h.pause
    directory := fun path uid gid mode => .of_keeps (fun _ _ h => h) (h.directory path uid gid mode)
    file := fun c source path mode => .of_keeps (fun _ _ h => h) (h.file c source path mode) }

theorem cloneTree (source dest : String) (uid gid : Int) (chunkSize : Option Int)
    (limits : Limits) :
    (cloneTree source dest uid gid chunkSize limits).Keeps rule guard invariant :=
  (h.carrying.cloneTree source dest uid gid chunkSize limits).keeps

/-- The work of a request keeps what its parts keep. -/
theorem establishHome (r : Request) (user : String) (chunkSize : Option Int) (limits : Limits) :
    (establishHome r user chunkSize limits).Keeps rule guard invariant :=
  (h.carrying.establishHome r user chunkSize limits).keeps

end RequestParts

end Program

end HomeProvision
