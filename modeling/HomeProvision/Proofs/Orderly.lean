import HomeProvision.Proofs.Trace
import HomeProvision.Provision.Home

/-!
# Orderly worlds

In an orderly world calls fail only with errors of the system, and the creation mask, the hook and
the privilege controller do not fail at all. `Handles` says that a program, there, deals with its
faults: only those that are left can end it. A fault that is always left is the limit of a walk.
-/

namespace HomeProvision

/-! ## Orderly worlds -/

/-- Whether a fault is an error of the system. -/
def Fault.IsSystem (f : Fault) : Prop :=
  ∃ e, f = .system e

/-- Whether a reply is a success or an error of the system. -/
def FailsOrderly {α : Type} (r : Except Fault α) : Prop :=
  ∀ f, r = .error f → f.IsSystem

/-- Whether a mode is one of the machine. -/
def IsMachineMode (mode : Int) : Prop :=
  0 ≤ mode ∧ mode < 0x100000000

instance : DecidablePred IsMachineMode :=
  fun mode => inferInstanceAs (Decidable (0 ≤ mode ∧ mode < 0x100000000))

/-- The replies of an orderly world. -/
def Orderly (c : Call) : c.Reply → Prop :=
  match c with
  | .umask _ | .elevate | .relinquish | .pause => fun r => ∃ a, r = .ok a
  | .stat _ | .lstat _ => fun r =>
      FailsOrderly r ∧ ∀ status : Status, r = .ok status → IsMachineMode status.mode
  | .lookupUser _ | .realUid | .effectiveUid | .effectiveGid | .log _ => fun _ => True
  | .mkdir _ _ | .chown _ _ _ | .lchown _ _ _ | .chmod _ _ | .openRead _ | .openExclusive _ _
  | .read _ _ | .write _ _ | .truncate _ _ | .close _ | .readlink _ | .symlink _ _ | .list _
  | .readFile _ | .setEffectiveUid _ | .setEffectiveGid _ => FailsOrderly

instance : DecidablePred Fault.IsSystem
  | .system e => isTrue ⟨e, rfl⟩
  | .embeddedNul | .range _ | .settings _ | .invalid _ | .blank _ | .thrown _ _ | .limit =>
      isFalse fun ⟨_, h⟩ => nomatch h

instance {α : Type} (r : Except Fault α) : Decidable (FailsOrderly r) :=
  match r with
  | .ok _ => isTrue fun _ bad => nomatch bad
  | .error f =>
      decidable_of_iff f.IsSystem ⟨fun h _ same => Except.error.inj same ▸ h, fun h => h f rfl⟩

instance {α : Type} (r : Except Fault α) : Decidable (∃ a, r = .ok a) :=
  match r with
  | .ok a => isTrue ⟨a, rfl⟩
  | .error _ => isFalse fun ⟨_, h⟩ => nomatch h

instance {P : Status → Prop} [DecidablePred P] (r : Except Fault Status) :
    Decidable (∀ status, r = .ok status → P status) :=
  match r with
  | .ok status => decidable_of_iff (P status) ⟨fun h _ same => Except.ok.inj same ▸ h, fun h => h _ rfl⟩
  | .error _ => isTrue fun _ bad => nomatch bad

instance (c : Call) (r : c.Reply) : Decidable (Orderly c r) :=
  match c, r with
  | .umask _, r => inferInstanceAs (Decidable (∃ a, r = .ok a))
  | .elevate, r | .relinquish, r | .pause, r => inferInstanceAs (Decidable (∃ a, r = .ok a))
  | .stat _, r | .lstat _, r => inferInstanceAs (Decidable (FailsOrderly r ∧
      ∀ status : Status, r = .ok status → IsMachineMode status.mode))
  | .lookupUser _, _ | .realUid, _ | .effectiveUid, _ | .effectiveGid, _ | .log _, _ => isTrue trivial
  | .mkdir _ _, r | .chown _ _ _, r | .lchown _ _ _, r | .chmod _ _, r | .truncate _ _, r
  | .close _, r | .symlink _ _, r => inferInstanceAs (Decidable (FailsOrderly r))
  | .setEffectiveUid _, r | .setEffectiveGid _, r => inferInstanceAs (Decidable (FailsOrderly r))
  | .openRead _, r | .openExclusive _ _, r | .write _ _, r =>
      inferInstanceAs (Decidable (FailsOrderly r))
  | .read _ _, r | .readFile _, r => inferInstanceAs (Decidable (FailsOrderly r))
  | .readlink _, r => inferInstanceAs (Decidable (FailsOrderly r))
  | .list _, r => inferInstanceAs (Decidable (FailsOrderly r))

theorem machineMode_ok {mode : Int} (h : IsMachineMode mode) :
    machineMode mode = .ok mode.toNat := by
  obtain ⟨nonneg, small⟩ := h
  unfold machineMode
  rw [if_neg (by omega), if_neg (by omega), if_neg (by omega)]

/-! ## What is looked at -/

/-- The looks at the entries of a directory, in the order of their names. -/
def looks (path : String) (names : List String) : List Call :=
  (names.filter fun name => !(name = "." || name = "..")).map fun name =>
    .lstat (Path.join path name)

theorem looks_cons_dots {path name : String} {rest : List String}
    (dots : (name = "." || name = "..") = true) : looks path (name :: rest) = looks path rest := by
  unfold looks
  rw [List.filter_cons_of_neg]
  rw [dots]
  decide

theorem looks_cons {path name : String} {rest : List String}
    (entry : ¬ (name = "." || name = "..") = true) :
    looks path (name :: rest) = .lstat (Path.join path name) :: looks path rest := by
  unfold looks
  rw [List.filter_cons_of_pos, List.map_cons]
  simpa using entry

/-- The directory and the names, if an exchange is a listing that went well. -/
def Exchange.listing? : Exchange → Option (String × List String)
  | ⟨.list path, .ok names⟩ => some (path, names)
  | _ => none

/-- Whether every directory that was listed was gone through to its end. -/
def Thorough : List Exchange → Prop
  | [] => True
  | x :: rest =>
      (∀ path names, x.listing? = some (path, names) →
        (looks path names).Sublist (rest.map Exchange.call)) ∧ Thorough rest

theorem thorough_append {a b : List Exchange} (first : Thorough a) (second : Thorough b) :
    Thorough (a ++ b) := by
  induction a with
  | nil => exact second
  | cons x rest ih =>
    refine ⟨fun path names listed => ?_, ih first.2⟩
    rw [List.append_eq, List.map_append]
    exact (first.1 path names listed).trans (List.sublist_append_left _ _)

theorem thorough_cons {x : Exchange} {rest : List Exchange} (other : x.listing? = none)
    (h : Thorough rest) : Thorough (x :: rest) :=
  ⟨fun path names listed => (by rw [other] at listed; cases listed), h⟩

/-- The reply, if an exchange is a look at a path, links followed. -/
def Exchange.look? (path : String) : Exchange → Option (Except Fault Status)
  | ⟨.stat p, r⟩ => if p = path then some r else none
  | _ => none

/-- The reply to the last look at a path. -/
def lastLook (path : String) : List Exchange → Option (Except Fault Status)
  | [] => none
  | x :: rest => (lastLook path rest).or (x.look? path)

theorem lastLook_append (path : String) (a b : List Exchange) :
    lastLook path (a ++ b) = (lastLook path b).or (lastLook path a) := by
  induction a with
  | nil => exact (Option.or_none).symm
  | cons x rest ih => simp only [List.cons_append, lastLook, ih, Option.or_assoc]

theorem lastLook_singleton (path : String) (r : Except Fault Status) :
    lastLook path [⟨.stat path, r⟩] = some r := by
  simp [lastLook, Exchange.look?]

/-- Whether a path led to nothing when it was last looked at. -/
def LastLookFails (path : String) (t : List Exchange) : Prop :=
  ∃ f, lastLook path t = some (.error f)

/-! ## Programs that handle their faults -/

namespace Program

variable {α β : Type}

/-- Whether a program, in an orderly world, goes through every directory that it lists, unless a
limit is reached, and fails only with the faults that are left. -/
def Handles (left : Fault → Prop) (p : Program α) : Prop :=
  p.Yields Orderly fun out t =>
    (out ≠ .error .limit → Thorough t) ∧ ∀ f, out = .error f → left f

/-- The fault of a walk that is given up. -/
def IsLimit (f : Fault) : Prop :=
  f = .limit

/-- No fault. -/
def IsNone (_ : Fault) : Prop :=
  False

namespace Handles

variable {left more : Fault → Prop}

theorem mono {p : Program α} (h : p.Handles left) (weaker : ∀ f, left f → more f) :
    p.Handles more :=
  Yields.mono h fun _ _ reached => ⟨reached.1, fun f failed => weaker f (reached.2 f failed)⟩

theorem done (a : α) : (Program.done a).Handles left :=
  ⟨fun _ => trivial, fun _ failed => by cases failed⟩

theorem raise {f : Fault} (h : left f) : (Program.raise f : Program α).Handles left :=
  ⟨fun _ => trivial, fun _ failed => by cases failed; exact h⟩

theorem bind {p : Program α} {k : α → Program β} (first : p.Handles left)
    (onward : ∀ a, (k a).Handles left) : (p.bind k).Handles left := by
  refine Yields.bind first (fun a t reached => ?_) fun f t reached =>
    ⟨fun other => reached.1 (by simpa using other),
      fun g failed => reached.2 g (by simpa using failed)⟩
  refine Yields.mono (onward a) fun out t' reached' => ⟨fun other => ?_, reached'.2⟩
  exact thorough_append (reached.1 (by simp)) (reached'.1 other)

theorem attempt {p : Program α} {k : Except SystemError α → Program β} (first : p.Handles more)
    (rest : ∀ f, more f → f.IsSystem ∨ left f) (onward : ∀ r, (k r).Handles left) :
    ((Program.attempt p).bind k).Handles left := by
  refine Yields.attempt first (fun a t reached => ?_) (fun e t reached => ?_)
    fun f t other reached => ⟨fun ends => reached.1 (by simpa using ends), fun g failed => ?_⟩
  · refine Yields.mono (onward (.ok a)) fun out t' reached' => ⟨fun other => ?_, reached'.2⟩
    exact thorough_append (reached.1 (by simp)) (reached'.1 other)
  · refine Yields.mono (onward (.error e)) fun out t' reached' => ⟨fun other => ?_, reached'.2⟩
    exact thorough_append (reached.1 (by simp)) (reached'.1 other)
  · cases failed
    rcases rest f (reached.2 f rfl) with ⟨e, same⟩ | ok
    · exact absurd same (other e)
    · exact ok

/-- A clean-up that does not fail leaves the faults of the program as they are. -/
theorem ensuring {body : Program α} {cleanup : Program Unit} (h : body.Handles left)
    (clean : cleanup.Handles IsNone) : (Program.ensuring body cleanup).Handles left := by
  refine Yields.ensuring h fun r t reached => Yields.mono clean fun out t' cleaned => ?_
  cases out with
  | error f => exact (cleaned.2 f rfl).elim
  | ok _ =>
    exact ⟨fun other => thorough_append (reached.1 other) (cleaned.1 (by simp)), reached.2⟩

/-- A call that lists no directory. -/
theorem call {c : Call} {next : c.Reply → Program α}
    (other : ∀ r : c.Reply, (⟨c, r⟩ : Exchange).listing? = none)
    (onward : ∀ r, Orderly c r → (next r).Handles left) : (Program.call c next).Handles left :=
  fun r ok => Yields.mono (onward r ok) fun _ _ reached =>
    ⟨fun ends => thorough_cons (other r) (reached.1 ends), reached.2⟩

theorem ofExcept {r : Except Fault α} (h : ∀ f, r = .error f → left f) :
    (Program.ofExcept r).Handles left :=
  yields_ofExcept.mpr ⟨fun _ => trivial, h⟩

theorem log (level : Level) (event : String) (details : List (String × Detail)) :
    (log level event details).Handles left :=
  call (fun _ => rfl) fun _ _ => .done _

theorem stat (path : String) : (stat path).Handles Fault.IsSystem :=
  call (fun _ => rfl) fun _ ok => .ofExcept ok.1

theorem pause : Program.pause.Handles left :=
  call (fun _ => rfl) fun r ok => .ofExcept fun f failed => by
    obtain ⟨a, done⟩ := ok
    rw [done] at failed
    cases failed

/-- A call that fails only with errors of the system, and whose error is caught. -/
theorem caught {p : Program α} {k : Except SystemError α → Program β}
    (first : p.Handles Fault.IsSystem) (onward : ∀ r, (k r).Handles left) :
    ((Program.attempt p).bind k).Handles left :=
  attempt first (fun _ => .inl) onward

end Handles

/-! ## Directories -/

theorem createDirectory_handles (path : String) (mode : Int) :
    (createDirectory path mode).Handles IsNone := by
  refine .caught (.call (fun _ => rfl) fun r ok => .ofExcept ok) fun made => ?_
  cases made with
  | ok _ => exact .done _
  | error e =>
    dsimp only
    split
    · exact (Handles.log _ _ _).bind fun _ => .done _
    · exact (Handles.log _ _ _).bind fun _ => .done _

theorem umask_handles (mask : Int) : (umask mask).Handles IsNone :=
  .call (fun _ => rfl) fun r ok => .ofExcept fun f failed => by
    obtain ⟨a, done⟩ := ok
    rw [done] at failed
    cases failed

theorem makeDirectory_handles (path : String) (uid gid mode : Int) :
    (makeDirectory path uid gid mode).Handles IsNone := by
  refine Handles.bind ((umask_handles 0).bind fun mask =>
    (createDirectory_handles path mode).ensuring ((umask_handles mask).bind fun _ => .done _))
    fun made => ?_
  cases made with
  | some result => exact .done _
  | none =>
    refine .caught (.call (fun _ => rfl) fun r ok => .ofExcept ok) fun owned => ?_
    cases owned with
    | ok _ => exact (Handles.log _ _ _).bind fun _ => .done _
    | error e => exact (Handles.log _ _ _).bind fun _ => (Handles.log _ _ _).bind fun _ => .done _

theorem ensureDirectory_handles (path : String) (uid gid mode : Int) :
    (ensureDirectory path uid gid mode).Handles IsNone := by
  refine .caught (.stat path) fun looked => ?_
  cases looked with
  | ok _ => exact (Handles.log _ _ _).bind fun _ => .done _
  | error e =>
    dsimp only
    split
    · exact makeDirectory_handles path uid gid mode
    · exact (Handles.log _ _ _).bind fun _ => .done _

/-! ## Files and links -/

theorem closeQuietly_handles (descriptor : Int) (event path : String) :
    (closeQuietly descriptor event path).Handles IsNone := by
  refine .caught (.call (fun _ => rfl) fun r ok => .ofExcept ok) fun closed => ?_
  cases closed with
  | ok _ => exact .done _
  | error e => exact .log _ _ _

/-- Copying pieces stops at an error of the system, or when it is given up. -/
theorem copyPieces_handles (source dest chunkSize : Int) (pieces : Nat) :
    (copyPieces source dest chunkSize pieces).Handles fun f => f.IsSystem ∨ IsLimit f := by
  induction pieces with
  | zero => exact .raise (.inr rfl)
  | succ pieces ih =>
    refine Handles.bind
      (.call (fun _ => rfl) fun r ok => .ofExcept fun f failed => .inl (ok f failed))
      fun chunk => ?_
    split
    · exact .done _
    · refine Handles.bind
        (.call (fun _ => rfl) fun r ok => .ofExcept fun f failed => .inl (ok f failed))
        fun written => ?_
      split
      · exact .done _
      · exact Handles.pause.bind fun _ => ih

theorem stream_handles (c : Cloner) (source dest : Int) (path : String) :
    (stream c source dest path).Handles IsLimit := by
  refine .attempt ((copyPieces_handles source dest c.chunkSize c.limits.pieces).bind
    fun copied => ?_)
    (fun _ h => h) fun result => ?_
  · cases copied with
    | none => exact .done _
    | some short => exact (Handles.log _ _ _).bind fun _ => .done _
  · cases result with
    | ok result => exact .done _
    | error e => exact (Handles.log _ _ _).bind fun _ => .done _

theorem finishOwner_handles {left : Fault → Prop} (c : Cloner) (path : String)
    (result : StepResult) : (finishOwner c path result).Handles left := by
  refine .caught (.call (fun _ => rfl) fun r ok => .ofExcept ok) fun owned => ?_
  cases owned with
  | ok _ => exact .done _
  | error e => exact (Handles.log _ _ _).bind fun _ => .done _

theorem finishMode_handles {left : Fault → Prop} (path : String) (mode : Int)
    (result : StepResult) : (finishMode path mode result).Handles left := by
  refine .caught (.call (fun _ => rfl) fun r ok => .ofExcept ok) fun moded => ?_
  cases moded with
  | ok _ => exact .done _
  | error e => exact (Handles.log _ _ _).bind fun _ => .done _

theorem fillFile_handles (c : Cloner) (source dest : Int) (path : String) (mode : Int) :
    (fillFile c source dest path mode).Handles IsLimit := by
  have filling := ((stream_handles c source dest path).bind fun result =>
    (finishOwner_handles c path result).bind fun result =>
      finishMode_handles path mode result).ensuring
        (closeQuietly_handles dest "Error closing destination file" path)
  refine .caught (.call (fun _ => rfl) fun r ok => .ofExcept ok) fun cut => ?_
  cases cut with
  | ok _ => exact filling
  | error e => exact (Handles.log _ _ _).bind fun _ => filling

theorem copyFile_handles (c : Cloner) (source path : String) (mode : Int) :
    (copyFile c source path mode).Handles IsLimit := by
  refine .caught (.call (fun _ => rfl) fun r ok => .ofExcept ok) fun opened => ?_
  cases opened with
  | error e => exact (Handles.log _ _ _).bind fun _ => .done _
  | ok reading =>
    refine Handles.ensuring ?_ (closeQuietly_handles _ _ _)
    refine .caught (.call (fun _ => rfl) fun r ok => .ofExcept ok) fun created => ?_
    cases created with
    | error e => exact (Handles.log _ _ _).bind fun _ => .done _
    | ok writing => exact fillFile_handles c reading writing path mode

theorem placeLink_handles {left : Fault → Prop} (c : Cloner) (target path : String) :
    (placeLink c target path).Handles left := by
  refine .caught (.call (fun _ => rfl) fun r ok => .ofExcept ok) fun placed => ?_
  cases placed with
  | error e => exact (Handles.log _ _ _).bind fun _ => .done _
  | ok _ =>
    refine .caught (.call (fun _ => rfl) fun r ok => .ofExcept ok) fun owned => ?_
    cases owned with
    | ok _ => exact .done _
    | error e => exact (Handles.log _ _ _).bind fun _ => .done _

theorem copySymlink_handles {left : Fault → Prop} (c : Cloner)
    (sourceTop source destTop path : String) (target : Option String) :
    (copySymlink c sourceTop source destTop path target).Handles left := by
  cases target with
  | some target => exact placeLink_handles c _ path
  | none =>
    refine .caught (.call (fun _ => rfl) fun r ok => .ofExcept ok) fun target => ?_
    cases target with
    | error e => exact (Handles.log _ _ _).bind fun _ => .done _
    | ok target => exact placeLink_handles c _ path

/-! ## The walk -/

/-- A status of an orderly world can be taken apart. -/
theorem isPlantedNonDirectory_handles {left : Fault → Prop} (path : String) :
    (isPlantedNonDirectory path).Handles left := by
  have looked : (Program.lstat path).Yields Orderly fun out t =>
      (out ≠ .error .limit → Thorough t) ∧ FailsOrderly out ∧
        ∀ status, out = .ok status → IsMachineMode status.mode :=
    fun r ok => yields_ofExcept.mpr ⟨fun _ => thorough_cons rfl trivial, ok.1, ok.2⟩
  refine Yields.attempt looked (fun status t reached => ?_) (fun e t reached => ?_) ?_
  · have rest : (do
        let mode ← ofRange (machineMode status.mode)
        if EntryType.ofBits mode = .directory then return false
        log .warning "Destination exists and is not a directory, skipping" (onPath path)
        return true : Program Bool).Handles left := by
      rw [machineMode_ok (reached.2.2 status rfl)]
      change Handles _ (if _ then _ else _)
      split
      · exact .done _
      · exact (Handles.log _ _ _).bind fun _ => .done _
    exact Yields.mono rest fun out t' reached' =>
      ⟨fun other => thorough_append (reached.1 (by simp)) (reached'.1 other), reached'.2⟩
  · exact ⟨fun _ => by simpa using reached.1 (by
      intro bad; cases bad), fun f failed => by cases failed⟩
  · intro f t other reached
    obtain ⟨e, same⟩ := reached.2.1 f rfl
    exact absurd same (other e)

theorem describeEntry_handles (name path : String) :
    (describeEntry name path).Handles Fault.IsSystem := by
  refine Handles.call (fun _ => rfl) fun r ok => ?_
  cases r with
  | error f => exact .raise (ok.1 f rfl)
  | ok status =>
    have valid := machineMode_ok (ok.2 status rfl)
    change Handles _ ((ofExcept ((Entry.ofStatus name path status).mapError .range)).bind _)
    unfold Entry.ofStatus
    rw [valid]
    change Handles _ (if _ then _ else _)
    split
    · refine .caught (.call (fun _ => rfl) fun r ok => .ofExcept ok) fun target => ?_
      cases target with
      | ok _ => exact .done _
      | error _ => exact .done _
    · exact .done _

section

variable {w : Walk} {descend : String → String → List Identity → Program WalkState}
  (below : ∀ source dest entered, (descend source dest entered).Handles IsLimit)
include below

theorem cloneSubdirectory_handles (entry : Entry) (dest : String) (state : WalkState) :
    (cloneSubdirectory w descend entry dest state).Handles IsLimit := by
  obtain ⟨report, entered⟩ := state
  unfold cloneSubdirectory
  dsimp only
  split
  · exact (Handles.log _ _ _).bind fun _ => .done _
  · refine (isPlantedNonDirectory_handles dest).bind fun planted => ?_
    split
    · exact .done _
    · refine ((ensureDirectory_handles dest _ _ _).mono fun _ none => none.elim).bind
        fun created => ?_
      split
      · exact .done _
      · exact (below entry.path dest entered).bind fun _ => .done _

theorem cloneEntry_handles (name source dest : String) (state : WalkState) :
    (cloneEntry w descend name source dest state).Handles IsLimit := by
  refine .caught (describeEntry_handles name source) fun described => ?_
  cases described with
  | error e => exact (Handles.log _ _ _).bind fun _ => .done _
  | ok entry =>
    dsimp only
    split
    · exact cloneSubdirectory_handles below entry dest state
    · exact (copyFile_handles _ _ _ _).bind fun _ => .done _
    · exact (copySymlink_handles _ _ _ _ _ _).bind fun _ => .done _
    · exact (Handles.log _ _ _).bind fun _ => .done _

end

end Program

end HomeProvision
