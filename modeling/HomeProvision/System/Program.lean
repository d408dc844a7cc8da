import HomeProvision.System.Call

/-!
# Programs

A program is a tree: it is done, or it has failed, or it makes a call and goes on in a way that
depends on the reply. What the calls do is left open, so that a statement about a program can speak
of every world that it may run in. A `Layer` is such a world.
-/

namespace HomeProvision

/-- A program with a result. -/
inductive Program (α : Type) where
  | done (a : α)
  | raise (f : Fault)
  | call (c : Call) (next : c.Reply → Program α)

namespace Program

/-! ## Sequencing -/

/-- Goes on with the result of a program. -/
def bind {α β : Type} : Program α → (α → Program β) → Program β
  | done a, k => k a
  | raise f, _ => raise f
  | call c next, k => call c fun r => (next r).bind k

instance : Monad Program where
  pure := done
  bind := bind

@[simp]
theorem bind_done {α : Type} (p : Program α) : p.bind done = p := by
  induction p with
  | done a => rfl
  | raise f => rfl
  | call c next ih => simp only [bind, ih]

theorem bind_assoc {α β γ : Type} (p : Program α) (k : α → Program β) (l : β → Program γ) :
    (p.bind k).bind l = p.bind fun a => (k a).bind l := by
  induction p with
  | done a => rfl
  | raise f => rfl
  | call c next ih => simp only [bind, ih]

/-- Makes one call. -/
def ask (c : Call) : Program c.Reply :=
  call c done

/-- The result of a computation that may fail. -/
def ofExcept {α : Type} : Except Fault α → Program α
  | .ok a => done a
  | .error f => raise f

/-! ## Faults -/

/-- The outcome of a program, without failing. -/
def outcome {α : Type} : Program α → Program (Except Fault α)
  | done a => done (.ok a)
  | raise f => done (.error f)
  | call c next => call c fun r => (next r).outcome

/-- The outcome of a program as far as errors of the system go; other faults pass. -/
def attempt {α : Type} (p : Program α) : Program (Except SystemError α) :=
  p.outcome.bind fun
    | .ok a => done (.ok a)
    | .error (.system e) => done (.error e)
    | .error f => raise f

/-- Runs a clean-up after a program, however the program ends. A fault of the clean-up replaces the
program's own outcome. -/
def ensuring {α : Type} (body : Program α) (cleanup : Program Unit) : Program α :=
  body.outcome.bind fun result => cleanup.bind fun _ => ofExcept result

/-! ## The calls as programs -/

/-- The status of what a path leads to. -/
def stat (path : String) : Program Status :=
  call (.stat path) ofExcept

/-- The status of what a path names. -/
def lstat (path : String) : Program Status :=
  call (.lstat path) ofExcept

/-- Creates a directory. -/
def mkdir (path : String) (mode : Int) : Program Unit :=
  call (.mkdir path mode) ofExcept

/-- Changes the owner of what a path leads to. -/
def chown (path : String) (uid gid : Int) : Program Unit :=
  call (.chown path uid gid) ofExcept

/-- Changes the owner of what a path names. -/
def lchown (path : String) (uid gid : Int) : Program Unit :=
  call (.lchown path uid gid) ofExcept

/-- Changes the permission bits of what a path leads to. -/
def chmod (path : String) (mode : Int) : Program Unit :=
  call (.chmod path mode) ofExcept

/-- Sets the creation mask and gives the one before. -/
def umask (mask : Int) : Program Int :=
  call (.umask mask) ofExcept

/-- Opens a file for reading. -/
def openRead (path : String) : Program Int :=
  call (.openRead path) ofExcept

/-- The permission bits of a file before its copy is complete: its owner's only. -/
def freshFileMode : Int := 0o600

/-- Creates a file that must not exist. -/
def openExclusive (path : String) : Program Int :=
  call (.openExclusive path freshFileMode) ofExcept

/-- Reads at most `size` bytes. -/
def read (descriptor size : Int) : Program (List UInt8) :=
  call (.read descriptor size) ofExcept

/-- Writes bytes and says how many were taken. -/
def write (descriptor : Int) (bytes : List UInt8) : Program Int :=
  call (.write descriptor bytes) ofExcept

/-- Cuts a file to a length. -/
def truncate (path : String) (length : Int) : Program Unit :=
  call (.truncate path length) ofExcept

/-- Gives a descriptor back. -/
def close (descriptor : Int) : Program Unit :=
  call (.close descriptor) ofExcept

/-- The target of a link. -/
def readlink (path : String) : Program String :=
  call (.readlink path) ofExcept

/-- Creates a link. -/
def symlink (target path : String) : Program Unit :=
  call (.symlink target path) ofExcept

/-- The names in a directory. -/
def list (path : String) : Program (List String) :=
  call (.list path) ofExcept

/-- The content of a file. -/
def readFile (path : String) : Program (List UInt8) :=
  call (.readFile path) ofExcept

/-- Changes the effective user. -/
def setEffectiveUid (uid : Int) : Program Unit :=
  call (.setEffectiveUid uid) ofExcept

/-- Changes the effective group. -/
def setEffectiveGid (gid : Int) : Program Unit :=
  call (.setEffectiveGid gid) ofExcept

/-- Gives control to the caller's hook. -/
def pause : Program Unit :=
  call .pause ofExcept

/-- Notes an event. -/
def log (level : Level) (event : String) (details : List (String × Detail)) : Program Unit :=
  ask (.log { level, event, details })

end Program

/-! ## Worlds -/

/-- A world that programs run in: a reply to every call, and what the call changes. -/
structure Layer (σ : Type) where
  reply : (c : Call) → σ → c.Reply × σ

/-- Runs a program in a world. -/
def Program.run {α σ : Type} (world : Layer σ) : Program α → σ → Except Fault α × σ
  | done a, s => (.ok a, s)
  | raise f, s => (.error f, s)
  | call c next, s =>
      let (r, s) := world.reply c s
      (next r).run world s

namespace Program

variable {α β σ : Type} (world : Layer σ)

/-- A program followed by another: the first runs, and unless it fails the second goes on in the
world that the first leaves behind. -/
theorem run_bind (p : Program α) (k : α → Program β) (s : σ) :
    (p.bind k).run world s =
      match p.run world s with
      | (.ok a, s) => (k a).run world s
      | (.error f, s) => (.error f, s) := by
  induction p generalizing s with
  | done a => rfl
  | raise f => rfl
  | call c next ih => simp only [bind, run, ih]

/-- Asking for the outcome changes nothing in the world and never fails. -/
theorem run_outcome (p : Program α) (s : σ) :
    p.outcome.run world s = (.ok (p.run world s).1, (p.run world s).2) := by
  induction p generalizing s with
  | done a => rfl
  | raise f => rfl
  | call c next ih => simp only [outcome, run, ih]

@[simp]
theorem run_ofExcept (r : Except Fault α) (s : σ) : (ofExcept r).run world s = (r, s) := by
  cases r <;> rfl

/-- A clean-up that does not fail runs in every case, and the outcome is that of the body. -/
theorem run_ensuring {body : Program α} {cleanup : Program Unit} {s s' : σ}
    (clean : cleanup.run world (body.run world s).2 = (.ok (), s')) :
    (ensuring body cleanup).run world s = ((body.run world s).1, s') := by
  simp only [ensuring, run_bind, run_outcome, clean, run_ofExcept]

end Program

end HomeProvision
