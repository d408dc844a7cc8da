import HomeProvision.Proofs.Orderly
import HomeProvision.Proofs.Watched

/-!
# Limits of a walk

The limits on depth and on pieces only decide when a walk is given up. If it is not given up, it
runs in the same way under all larger limits (`provision_extends`), so that what is shown of such a
run is shown of the walk without limits.
-/

namespace HomeProvision

/-- Whether limits are not larger than others. -/
structure Limits.Within (limits larger : Limits) : Prop where
  depth : limits.depth ≤ larger.depth
  pieces : limits.pieces ≤ larger.pieces

namespace Program

variable {α β σ : Type} {world : Layer σ}

/-- Whether a program runs as another one does unless that one is given up. -/
def Extends (world : Layer σ) (p q : Program α) : Prop :=
  ∀ s, (p.run world s).1 ≠ .error .limit → q.run world s = p.run world s

namespace Extends

theorem refl (p : Program α) : Extends world p p :=
  fun _ _ => rfl

theorem bind {p q : Program α} {k l : α → Program β} (first : Extends world p q)
    (onward : ∀ a, Extends world (k a) (l a)) : Extends world (p.bind k) (q.bind l) := by
  intro s finished
  rw [run_bind] at finished ⊢
  rw [run_bind, first s]
  · cases ran : p.run world s with
    | mk out s' =>
      rw [ran] at finished
      cases out with
      | ok a => exact onward a s' finished
      | error f => rfl
  · intro given
    cases ran : p.run world s with
    | mk out s' =>
      rw [ran] at finished given
      subst given
      exact finished rfl

/-- A program whose second part extends another one. -/
theorem after (p : Program α) {k l : α → Program β} (onward : ∀ a, Extends world (k a) (l a)) :
    Extends world (p.bind k) (p.bind l) :=
  (refl p).bind onward

theorem attempt {p q : Program α} (h : Extends world p q) :
    Extends world (Program.attempt p) (Program.attempt q) := by
  intro s finished
  rw [run_attempt] at finished ⊢
  rw [run_attempt, h s]
  intro given
  cases ran : p.run world s with
  | mk out s' =>
    rw [ran] at finished given
    subst given
    exact finished rfl

/-- A clean-up that does not fail hides no limit. -/
theorem ensuring {p q : Program α} {cleanup : Program Unit}
    (cleans : ∀ s, ∃ s', cleanup.run world s = (.ok (), s')) (h : Extends world p q) :
    Extends world (Program.ensuring p cleanup) (Program.ensuring q cleanup) := by
  intro s finished
  obtain ⟨s', cleaned⟩ := cleans (p.run world s).2
  rw [run_ensuring world cleaned] at finished ⊢
  have same := h s finished
  rw [← same] at cleaned
  rw [run_ensuring world cleaned, same]

/-- What extends a program in a recorded world makes the same calls and gets the same replies. -/
theorem trace {p q : Program α} (h : Extends world.recording p q) (s : σ)
    (finished : (p.run world s).1 ≠ .error .limit) :
    q.run world s = p.run world s ∧ q.trace world s = p.trace world s := by
  have same := h (s, []) (by rw [run_recording]; exact finished)
  rw [run_recording, run_recording, List.nil_append, List.nil_append] at same
  obtain ⟨out, rest⟩ := Prod.mk.inj same
  obtain ⟨left, calls⟩ := Prod.mk.inj rest
  exact ⟨Prod.ext out left, calls⟩

end Extends

/-- Whether files are closed, or cannot be closed for an error of the system. -/
def ClosesOrderly (world : Layer σ) : Prop :=
  ∀ number s, FailsOrderly (world.reply (.close number) s).1

theorem ClosesOrderly.recording (closes : ClosesOrderly world) : ClosesOrderly world.recording :=
  fun number s => closes number s.1

theorem ClosesOrderly.closeQuietly (closes : ClosesOrderly world) (number : Int)
    (event path : String) (s : σ) :
    ∃ s', (closeQuietly number event path).run world s = (.ok (), s') := by
  have closing := closes number s
  unfold Program.closeQuietly
  rw [bind_eq, run_bind, run_attempt]
  have ran : (close number).run world s = world.reply (.close number) s :=
    run_ofExcept world (world.reply (.close number) s).1 (world.reply (.close number) s).2
  rw [ran]
  cases reply : world.reply (.close number) s with
  | mk r s' =>
    rw [reply] at closing
    cases r with
    | ok _ => exact ⟨s', rfl⟩
    | error f =>
      obtain ⟨e, rfl⟩ := closing f rfl
      exact ⟨_, rfl⟩

theorem copyPieces_extends {source dest chunkSize : Int} {pieces more : Nat} (le : pieces ≤ more) :
    Extends world (copyPieces source dest chunkSize pieces)
      (copyPieces source dest chunkSize more) := by
  induction pieces generalizing more with
  | zero => exact fun _ finished => absurd rfl finished
  | succ pieces ih =>
    cases more with
    | zero => exact absurd le (Nat.not_succ_le_zero pieces)
    | succ more =>
      refine .after _ fun chunk => ?_
      split
      · exact .refl _
      · refine .after _ fun written => ?_
        split
        · exact .refl _
        · exact .after _ fun _ => ih (Nat.le_of_succ_le_succ le)

section

variable {c : Cloner} {larger : Limits} (within : c.limits.Within larger)
  (closes : ClosesOrderly world)
include within closes

omit closes in
theorem stream_extends (source dest : Int) (path : String) :
    Extends world (stream c source dest path)
      (stream { c with limits := larger } source dest path) := by
  refine .bind (.attempt (.bind (copyPieces_extends within.pieces) fun copied => .refl _))
    fun result => ?_
  exact .refl _

theorem fillFile_extends (source dest : Int) (path : String) (mode : Int) :
    Extends world (fillFile c source dest path mode)
      (fillFile { c with limits := larger } source dest path mode) := by
  have streamed : Extends world (stream c source dest path) _ :=
    stream_extends within source dest path
  have filling := Extends.ensuring
    (closes.closeQuietly dest "Error closing destination file" path)
    (streamed.bind fun result =>
      .refl ((finishOwner c path result).bind fun result => finishMode path mode result))
  refine .after _ fun cut => ?_
  cases cut with
  | ok _ => exact filling
  | error e => exact .after _ fun _ => filling

theorem copyFile_extends (source path : String) (mode : Int) :
    Extends world (copyFile c source path mode)
      (copyFile { c with limits := larger } source path mode) := by
  refine .after _ fun opened => ?_
  cases opened with
  | error e => exact .refl _
  | ok reading =>
    refine Extends.ensuring (closes.closeQuietly _ _ _) (.after _ fun created => ?_)
    cases created with
    | error e => exact .refl _
    | ok writing => exact fillFile_extends within closes reading writing path mode

end

/-! ## The walk -/

section

variable {w : Walk} {larger : Limits} (within : w.cloner.limits.Within larger)
  (closes : ClosesOrderly world)
  {descend descend' : String → String → List Identity → Program WalkState}
  (below : ∀ source dest entered,
    Extends world (descend source dest entered) (descend' source dest entered))
include within closes below

omit within closes in
theorem cloneSubdirectory_extends (entry : Entry) (dest : String) (state : WalkState) :
    Extends world (cloneSubdirectory w descend entry dest state)
      (cloneSubdirectory { w with cloner := { w.cloner with limits := larger } } descend' entry dest
        state) := by
  obtain ⟨report, entered⟩ := state
  unfold cloneSubdirectory
  dsimp only
  split
  · exact .refl _
  · refine .after _ fun planted => ?_
    split
    · exact .refl _
    · refine .after _ fun created => ?_
      split
      · exact .refl _
      · exact .bind (below entry.path dest entered) fun _ => .refl _

theorem cloneEntry_extends (name source dest : String) (state : WalkState) :
    Extends world (cloneEntry w descend name source dest state)
      (cloneEntry { w with cloner := { w.cloner with limits := larger } } descend' name source dest
        state) := by
  refine .after _ fun described => ?_
  cases described with
  | error e => exact .refl _
  | ok entry =>
    dsimp only
    split
    · exact cloneSubdirectory_extends below entry dest state
    · exact .bind (copyFile_extends within closes source dest _) fun _ => .refl _
    · exact .refl _
    · exact .refl _

theorem cloneNames_extends (source dest : String) (names : List String) (state : WalkState) :
    Extends world (cloneNames w descend source dest names state)
      (cloneNames { w with cloner := { w.cloner with limits := larger } } descend' source dest names
        state) := by
  induction names generalizing state with
  | nil => exact .refl _
  | cons name rest ih =>
    refine .after _ fun _ => ?_
    split
    · exact ih state
    · exact .bind (cloneEntry_extends within closes below name _ _ state) ih

end

theorem cloneDirectory_extends {w : Walk} {larger : Limits}
    (within : w.cloner.limits.Within larger) (closes : ClosesOrderly world) {depth more : Nat}
    (le : depth ≤ more) (source dest : String) (entered : List Identity) :
    Extends world (cloneDirectory w depth source dest entered)
      (cloneDirectory { w with cloner := { w.cloner with limits := larger } } more source dest
        entered) := by
  induction depth generalizing more source dest entered with
  | zero => exact fun _ finished => absurd rfl finished
  | succ depth ih =>
    cases more with
    | zero => exact absurd le (Nat.not_succ_le_zero depth)
    | succ more =>
      -- the first two calls are the same; only what is below has more levels
      refine .after _ fun opened => ?_
      cases opened with
      | error e => exact .refl _
      | ok opened =>
        exact cloneNames_extends within closes
          (fun source dest entered => ih (Nat.le_of_succ_le_succ le) source dest entered)
          source dest opened.2 _

/-! ## Requests -/

theorem clone_extends {c : Cloner} {larger : Limits} (within : c.limits.Within larger)
    (closes : ClosesOrderly world) (source dest : String) :
    Extends world (clone c source dest) (clone { c with limits := larger } source dest) := by
  have walks : ∀ destRoot, Extends world
      (cloneDirectory ⟨c, source, dest, destRoot⟩ c.limits.depth source dest [])
      (cloneDirectory ⟨{ c with limits := larger }, source, dest, destRoot⟩ larger.depth source dest
        []) :=
    fun destRoot => cloneDirectory_extends (w := ⟨c, source, dest, destRoot⟩) within closes
      within.depth source dest []
  refine .after _ fun looked => ?_
  cases looked with
  | ok status => exact .after _ fun root => .bind (walks root) fun _ => .refl _
  | error e => exact .after _ fun root => .bind (walks root) fun _ => .refl _

end Program

end HomeProvision
