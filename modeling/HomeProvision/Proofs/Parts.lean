import HomeProvision.Proofs.Contract
import HomeProvision.Provision.Skeleton

/-!
# What the parts of a clone keep

What making a directory, a link or a copy of a file keeps depends on the calls alone that are made
for it. There are two invariants: `outer` holds before and after, and `inner` from the moment on
that something was created (`Gains`). For every part there is a list of what its calls must keep,
and one theorem: `DirectoryCalls.ensureDirectory`, `LinkCalls.placeLink` and `CopyCalls.copyFile`.
-/

namespace HomeProvision.Program

variable {α β τ : Type} {rule : Rule τ} {guard : Call → τ → Prop} {outer inner : τ → Prop}
  {path : String}

/-- How a call ends that may create something: `outer` holds, and after success `inner` does. -/
def Gains (outer : τ → Prop) (inner : α → τ → Prop) (r : Except Fault α) (t : τ) : Prop :=
  outer t ∧ ∀ a, r = .ok a → inner a t

/-- An attempt to create something, and what is done with it then. -/
theorem Gains.attempt {p : Program α} {k : Except SystemError α → Program β} {inner : α → τ → Prop}
    {post : Except Fault β → τ → Prop} {t : τ} (first : p.Meets rule guard (Gains outer inner) t)
    (onward : ∀ a t', inner a t' → (k (.ok a)).Meets rule guard post t')
    (caught : ∀ e t', outer t' → (k (.error e)).Meets rule guard post t')
    (failed : ∀ f t', outer t' → post (.error f) t') :
    ((Program.attempt p).bind k).Meets rule guard post t := by
  refine Meets.attempt first ?_ ?_ ?_
  · exact fun a t' h => onward a t' (h.2 a rfl)
  · exact fun e t' h => caught e t' h.1
  · exact fun f t' _ h => failed f t' h.1

/-- Whether noting an event keeps an invariant. -/
def KeepsLog (rule : Rule τ) (guard : Call → τ → Prop) (invariant : τ → Prop) : Prop :=
  ∀ level event details, (log level event details).Keeps rule guard invariant

/-! ## Directories -/

/-- What the calls keep that make a directory. -/
structure DirectoryCalls (rule : Rule τ) (guard : Call → τ → Prop) (outer inner : τ → Prop)
    (path : String) (uid gid mode : Int) : Prop where
  note : KeepsLog rule guard outer
  stat : (stat path).Keeps rule guard outer
  umask : ∀ mask, (umask mask).Keeps rule guard outer
  umaskNew : ∀ mask, (Program.umask mask).Keeps rule guard inner
  mkdir : ∀ t, outer t → (mkdir path mode).Meets rule guard (Gains outer fun _ => inner) t
  chown : (chown path uid gid).Keeps rule guard inner
  leave : ∀ t, inner t → outer t

namespace DirectoryCalls

variable {uid gid mode : Int} (h : DirectoryCalls rule guard outer inner path uid gid mode)
include h

theorem createDirectory {t : τ} (start : outer t) :
    (createDirectory path mode).Meets rule guard
      (Gains outer fun result t' => result = none → inner t') t := by
  have noted : ∀ level event details (result : StepResult) t', outer t' →
      ((log level event details).bind fun _ => done (some result)).Meets rule guard
        (Gains outer fun result t' => result = none → inner t') t' := by
    intro level event details result t' start
    refine (h.note level event details t' start).bind (fun _ t'' reached => ⟨reached, ?_⟩)
      fun f t'' reached => ⟨reached, fun _ bad => by cases bad⟩
    rintro _ same rfl
    cases same
  refine Gains.attempt (h.mkdir t start) ?_ ?_ ?_
  · exact fun _ t' made => ⟨h.leave t' made, fun _ _ _ => made⟩
  · intro e t' start
    dsimp only
    split
    · exact noted _ _ _ _ t' start
    · exact noted _ _ _ _ t' start
  · exact fun f t' reached => ⟨reached, fun _ bad => by cases bad⟩

theorem withClearMask {t : τ} (start : outer t) :
    (withClearMask (Program.createDirectory path mode)).Meets rule guard
      (Gains outer fun result t' => result = none → inner t') t := by
  refine (h.umask 0 t start).bind (fun mask t' start => ?_)
    fun f t' reached => ⟨reached, fun _ bad => by cases bad⟩
  -- the mask is put back after a creation and after a failure
  refine (h.createDirectory start).ensuring fun r t'' made => ?_
  by_cases new : r = .ok none
  · refine (h.umaskNew mask t'' (made.2 none new rfl)).bind (fun _ t' kept => ?_)
      fun f t' kept => ?_
    · exact ⟨h.leave t' kept, fun _ _ _ => kept⟩
    · exact ⟨h.leave t' kept, fun _ bad => by cases bad⟩
  · refine (h.umask mask t'' made.1).bind (fun _ t' kept => ⟨kept, ?_⟩) fun f t' kept => ⟨kept, ?_⟩
    · rintro _ same rfl
      exact absurd same new
    · exact fun _ bad => by cases bad

theorem makeDirectory : (makeDirectory path uid gid mode).Keeps rule guard outer := by
  intro t start
  refine (h.withClearMask start).bind (fun result t' made => ?_) fun _ _ made => made.1
  cases result with
  | some result => exact made.1
  | none =>
    refine Meets.attempt (h.chown t' (made.2 none rfl rfl)) ?_ ?_ fun _ _ _ => h.leave _
    · intro _ t'' kept
      exact ((h.note _ _ _).bind fun _ => .done _) t'' (h.leave t'' kept)
    · intro e t'' kept
      exact ((h.note _ _ _).bind fun _ => (h.note _ _ _).bind fun _ => .done _) t''
        (h.leave t'' kept)

theorem ensureDirectory : (ensureDirectory path uid gid mode).Keeps rule guard outer := by
  refine (Keeps.attempt h.stat).bind fun looked => ?_
  cases looked with
  | ok _ => exact (h.note _ _ _).bind fun _ => .done _
  | error e =>
    dsimp only
    split
    · exact h.makeDirectory
    · exact (h.note _ _ _).bind fun _ => .done _

end DirectoryCalls

/-! ## Links -/

/-- What the calls keep that make a link. -/
structure LinkCalls (rule : Rule τ) (guard : Call → τ → Prop) (outer inner : τ → Prop)
    (path : String) (uid gid : Int) (target : String) : Prop where
  note : KeepsLog rule guard outer
  symlink : ∀ t, outer t → (symlink target path).Meets rule guard (Gains outer fun _ => inner) t
  lchown : (lchown path uid gid).Keeps rule guard inner
  leave : ∀ t, inner t → outer t

theorem LinkCalls.placeLink {c : Cloner} {target : String}
    (h : LinkCalls rule guard outer inner path c.uid c.gid target) :
    (placeLink c target path).Keeps rule guard outer := by
  intro t start
  refine Gains.attempt (h.symlink t start) ?_ ?_ fun _ _ => id
  · intro _ t' made
    refine Meets.attempt (h.lchown t' made) ?_ ?_ fun _ _ _ => h.leave _
    · exact fun _ t'' => h.leave t''
    · exact fun e t'' kept => ((h.note _ _ _).bind fun _ => .done _) t'' (h.leave t'' kept)
  · exact fun e t' => ((h.note _ _ _).bind fun _ => .done _) t'

/-- A link is copied, whether its target is known or has to be read. -/
theorem keeps_copySymlink {c : Cloner} {source sourceTop destTop : String} (good : String → Prop)
    (note : KeepsLog rule guard outer)
    (reads : ∀ t, outer t → (readlink source).Meets rule guard
      (fun r t' => outer t' ∧ ∀ target, r = .ok target → good target) t)
    (places : ∀ target, good target →
      (placeLink c (Path.remap target sourceTop destTop) path).Keeps rule guard outer)
    {target : Option String} (known : ∀ text, target = some text → good text) :
    (copySymlink c sourceTop source destTop path target).Keeps rule guard outer := by
  cases target with
  | some target => exact places target (known target rfl)
  | none =>
    intro t start
    refine Meets.attempt (reads t start) ?_ ?_ fun _ _ _ h => h.1
    · exact fun target t' h => places target (h.2 target rfl) t' h.1
    · exact fun e t' h => ((note _ _ _).bind fun _ => .done _) t' h.1

/-! ## Files -/

/-- What the calls keep that give a new file its owner and its mode. -/
structure FinishCalls (rule : Rule τ) (guard : Call → τ → Prop) (inner : τ → Prop)
    (path : String) (mode : Int) : Prop where
  note : KeepsLog rule guard inner
  chown : ∀ uid gid, (chown path uid gid).Keeps rule guard inner
  chmod : (chmod path mode).Keeps rule guard inner

namespace FinishCalls

variable {mode : Int} (h : FinishCalls rule guard inner path mode)
include h

theorem finishOwner (c : Cloner) (result : StepResult) :
    (finishOwner c path result).Keeps rule guard inner := by
  refine (Keeps.attempt (h.chown c.uid c.gid)).bind fun owned => ?_
  cases owned with
  | ok _ => exact .done _
  | error e => exact (h.note _ _ _).bind fun _ => .done _

theorem finishMode (result : StepResult) :
    (finishMode path mode result).Keeps rule guard inner := by
  refine (Keeps.attempt h.chmod).bind fun moded => ?_
  cases moded with
  | ok _ => exact .done _
  | error e => exact (h.note _ _ _).bind fun _ => .done _

end FinishCalls

/-- What the calls keep that fill a new file. -/
structure FileCalls (rule : Rule τ) (guard : Call → τ → Prop) (inner : τ → Prop)
    (reading writing : Int) (path : String) (mode : Int) : Prop
    extends FinishCalls rule guard inner path mode where
  read : ∀ size, (read reading size).Keeps rule guard inner
  write : ∀ bytes, (write writing bytes).Keeps rule guard inner
  pause : pause.Keeps rule guard inner
  truncate : (truncate path 0).Keeps rule guard inner

namespace FileCalls

variable {reading writing mode : Int} (h : FileCalls rule guard inner reading writing path mode)
include h

theorem copyPieces (size : Int) (pieces : Nat) :
    (copyPieces reading writing size pieces).Keeps rule guard inner := by
  induction pieces with
  | zero => exact .raise _
  | succ pieces ih =>
    refine (h.read size).bind fun chunk => ?_
    split
    · exact .done _
    · refine (h.write chunk).bind fun written => ?_
      split
      · exact .done _
      · exact h.pause.bind fun _ => ih

theorem stream (c : Cloner) : (stream c reading writing path).Keeps rule guard inner := by
  refine (Keeps.attempt ((h.copyPieces c.chunkSize c.limits.pieces).bind fun copied => ?_)).bind
    fun result => ?_
  · cases copied with
    | none => exact .done _
    | some short => exact (h.note _ _ _).bind fun _ => .done _
  · cases result with
    | ok result => exact .done _
    | error e => exact (h.note _ _ _).bind fun _ => .done _

end FileCalls

/-- What the calls keep that copy a file. -/
structure CopyCalls (rule : Rule τ) (guard : Call → τ → Prop) (outer : τ → Prop)
    (inner : Int → τ → Prop) (source path : String) (mode : Int) : Prop where
  note : KeepsLog rule guard outer
  openRead : (openRead source).Keeps rule guard outer
  close : ∀ number, (close number).Keeps rule guard outer
  openExclusive : ∀ t, outer t → (openExclusive path).Meets rule guard (Gains outer inner) t
  file : ∀ reading writing, FileCalls rule guard (inner writing) reading writing path mode
  leave : ∀ number t, inner number t → outer t

namespace CopyCalls

variable {source : String} {mode : Int} {inner : Int → τ → Prop}
  (h : CopyCalls rule guard outer inner source path mode)
include h

theorem closeQuietly (number : Int) (event path : String) :
    (closeQuietly number event path).Keeps rule guard outer := by
  refine (Keeps.attempt (h.close number)).bind fun closed => ?_
  cases closed with
  | ok _ => exact .done _
  | error e => exact h.note _ _ _

theorem fillFile {t : τ} {writing : Int} (made : inner writing t) (c : Cloner)
    (reading : Int) :
    (fillFile c reading writing path mode).Meets rule guard (fun _ => outer) t := by
  have file := h.file reading writing
  have filled : ((stream c reading writing path).bind fun result => do
      let result ← finishOwner c path result
      finishMode path mode result).Keeps rule guard (inner writing) :=
    (file.stream c).bind fun result => (file.finishOwner c result).bind file.finishMode
  have closed : ∀ t', inner writing t' →
      (ensuring ((stream c reading writing path).bind fun result => do
          let result ← finishOwner c path result
          finishMode path mode result)
        (Program.closeQuietly writing "Error closing destination file" path)).Meets rule guard
          (fun _ => outer) t' := by
    intro t' kept
    refine (filled t' kept).ensuring fun r t'' kept => ?_
    refine (h.closeQuietly writing _ path t'' (h.leave _ t'' kept)).mono fun r' _ kept => ?_
    cases r' with
    | ok _ => exact kept
    | error f => exact kept
  refine Meets.attempt (file.truncate t made) ?_ ?_ fun _ _ _ => h.leave _ _
  · exact fun _ => closed
  · intro e t' kept
    exact (file.note _ _ _ t' kept).bind (fun _ => closed) fun _ _ => h.leave _ _

theorem copyFile (c : Cloner) :
    (copyFile c source path mode).Keeps rule guard outer := by
  refine (Keeps.attempt h.openRead).bind fun opened => ?_
  cases opened with
  | error e => exact (h.note _ _ _).bind fun _ => .done _
  | ok reading =>
    refine Keeps.ensuring (fun t start => ?_) (h.closeQuietly _ _ _)
    refine Gains.attempt (h.openExclusive t start) ?_ ?_ fun _ _ => id
    · exact fun writing t' made => h.fillFile made c reading
    · exact fun e t' => ((h.note _ _ _).bind fun _ => .done _) t'

end CopyCalls

end HomeProvision.Program
