import HomeProvision.Proofs.Requests
import HomeProvision.Proofs.Watched

/-!
# The paths of calls

The parts of copying an entry look at its source and work on its destination: every call with a path
is made on one of these two, and on the source only to look (`Call.Touches`). This holds for all
replies, so that an invariant which such calls keep is kept by the parts (`Makes.keeps`).
-/

namespace HomeProvision

/-- The path that a call is given. -/
def Call.path? : Call → Option String
  | .stat path | .lstat path | .mkdir path _ | .chown path _ _ | .lchown path _ _ | .chmod path _
  | .openRead path | .openExclusive path _ | .truncate path _ | .readlink path | .symlink _ path
  | .list path | .readFile path => some path
  | .umask _ | .read _ _ | .write _ _ | .close _ | .lookupUser _ | .realUid | .effectiveUid
  | .effectiveGid | .setEffectiveUid _ | .setEffectiveGid _ | .elevate | .relinquish | .pause
  | .log _ => none

/-- Whether a call looks at a path and leaves what is there. -/
def Call.looks : Call → Bool
  | .stat _ | .lstat _ | .openRead _ | .readlink _ | .list _ | .readFile _ => true
  | _ => false

/-- Whether a call that has a path works on the destination of an entry or looks at its source. -/
def Call.Touches (source path : String) (c : Call) : Prop :=
  ∀ p, c.path? = some p → p = path ∨ (p = source ∧ c.looks = true)

/-- Whether a call is one that the way to a home consists of. -/
def Call.isStep : Call → Bool
  | .stat _ | .mkdir _ _ | .chown _ _ _ | .umask _ | .log _ | .pause => true
  | _ => false

/-- Whether a call has no path but one that is covered. -/
def Call.Covered (covers : String → Prop) (c : Call) : Prop :=
  ∀ path, c.path? = some path → covers path

namespace Program

variable {α β τ : Type} {allowed : (c : Call) → c.Reply → Prop} {good : Call → Prop}

/-- The parts of the way to a home keep what their calls keep. -/
theorem WayParts.of_calls {rule : Rule τ} {guard : Call → τ → Prop} {invariant : τ → Prop}
    {covers : String → Prop}
    (keeps : ∀ (c : Call) s, c.isStep = true → c.Covered covers → invariant s →
      guard c s ∧ ∀ r s', rule c s r s' → invariant s') :
    WayParts rule guard invariant (fun _ => invariant) covers := by
  have one : ∀ {β : Type} {c : Call} {next : c.Reply → Program β}, c.isStep = true →
      c.Covered covers → (∀ r, (next r).Keeps rule guard invariant) →
        (call c next).Keeps rule guard invariant :=
    fun step within onward s h => ⟨(keeps _ s step within h).1, fun r s' moves =>
      onward r s' ((keeps _ s step within h).2 r s' moves)⟩
  have nowhere : ∀ {c : Call}, c.path? = none → c.Covered covers :=
    fun none path own => by rw [none] at own; cases own
  have there : ∀ {c : Call} {path : String}, c.path? = some path → covers path → c.Covered covers :=
    fun own covered path' own' => by rw [own] at own'; cases own'; exact covered
  have note : KeepsLog rule guard invariant :=
    fun _ _ _ => one rfl (nowhere rfl) fun _ => .done _
  have directory : ∀ path uid gid mode, covers path →
      DirectoryCalls rule guard invariant invariant path uid gid mode :=
    fun path uid gid mode covered =>
      { note
        stat := one rfl (there rfl covered) .ofExcept
        umask := fun _ => one rfl (nowhere rfl) .ofExcept
        umaskNew := fun _ => one rfl (nowhere rfl) .ofExcept
        mkdir := fun s h => (one rfl (there rfl covered) .ofExcept s h).mono fun _ _ h' =>
          ⟨h', fun _ _ => h'⟩
        chown := one rfl (there rfl covered) .ofExcept
        leave := fun _ h => h }
  exact
    { leave := fun _ _ h => h
      note
      stat := fun _ covered => one rfl (there rfl covered) .ofExcept
      pause := .of_keeps (fun _ _ h => h) (one rfl (nowhere rfl) .ofExcept)
      directory := fun path uid gid mode covered =>
        .of_keeps (fun _ _ h => h) (directory path uid gid mode covered).ensureDirectory }

/-! ## Programs and their calls -/

/-- What may happen where replies are allowed. -/
abbrev anyWith (allowed : (c : Call) → c.Reply → Prop) : Rule Unit :=
  fun c _ r _ => allowed c r

/-- Whether a program makes good calls only, as long as it gets replies that are allowed. -/
def Makes (allowed : (c : Call) → c.Reply → Prop) (good : Call → Prop) (p : Program α) : Prop :=
  p.Keeps (anyWith allowed) (fun c _ => good c) fun _ => True

namespace Makes

theorem call {c : Call} {next : c.Reply → Program α} (here : good c)
    (onward : ∀ r, allowed c r → (next r).Makes allowed good) :
    (Program.call c next).Makes allowed good :=
  fun _ _ => ⟨here, fun r s' ok => onward r ok s' trivial⟩

theorem done (a : α) : (Program.done a).Makes allowed good :=
  Keeps.done a

theorem bind {p : Program α} {k : α → Program β} (first : p.Makes allowed good)
    (onward : ∀ a, (k a).Makes allowed good) : (p.bind k).Makes allowed good :=
  Keeps.bind first onward

theorem ofExcept (r : Except Fault α) : (Program.ofExcept r).Makes allowed good :=
  Keeps.ofExcept r

theorem mono {good' : Call → Prop} {p : Program α} (h : p.Makes allowed good)
    (weaker : ∀ c, good c → good' c) : p.Makes allowed good' := by
  intro s _
  have made := h s trivial
  clear h
  induction p generalizing s with
  | done a => trivial
  | raise f => trivial
  | call c next ih => exact ⟨weaker c made.1, fun r s' ok => ih r s' (made.2 r s' ok)⟩

/-- An invariant that good calls keep is kept by a program that makes no others. -/
theorem keeps {rule : Rule τ} {guard : Call → τ → Prop} {invariant : τ → Prop} {p : Program α}
    (h : p.Makes allowed good)
    (each : ∀ c s, good c → invariant s →
      guard c s ∧ ∀ r s', rule c s r s' → allowed c r ∧ invariant s') :
    p.Keeps rule guard invariant := by
  intro s start
  have made := h () trivial
  clear h
  induction p generalizing s with
  | done a => exact start
  | raise f => exact start
  | call c next ih =>
    obtain ⟨may, kept⟩ := each c s made.1 start
    refine ⟨may, fun r s' step => ?_⟩
    obtain ⟨ok, start⟩ := kept r s' step
    exact ih r s' start (made.2 r () ok)

/-- What a contract about notes says of the calls alone. -/
theorem of_noting {note : τ → Exchange → τ} {guard : Call → τ → Prop} {p : Program α}
    {post : Except Fault α → τ → Prop} {seen : τ} (h : p.Meets (noting allowed note) guard post seen)
    (weaker : ∀ c s, guard c s → good c) : p.Makes allowed good := by
  intro s _
  induction p generalizing seen s with
  | done a => trivial
  | raise f => trivial
  | call c next ih => exact ⟨weaker c seen h.1, fun r s' ok => ih r (h.2 r _ ⟨ok, rfl⟩) s'⟩

end Makes

/-! ## The parts of copying an entry -/

section

variable {source path : String}

theorem touches_path {c : Call} (own : c.path? = some path) : c.Touches source path := by
  intro p same
  rw [own] at same
  cases same
  exact .inl rfl

theorem touches_source {c : Call} (own : c.path? = some source) (looks : c.looks = true) :
    c.Touches source path := by
  intro p same
  rw [own] at same
  cases same
  exact .inr ⟨rfl, looks⟩

theorem touches_none {c : Call} (none : c.path? = none) : c.Touches source path := by
  intro p same
  rw [none] at same
  cases same

theorem log_touches (level : Level) (event : String) (details : List (String × Detail)) :
    (log level event details).Makes allowed (Call.Touches source path) :=
  .call (touches_none rfl) fun _ _ => .done _

theorem pause_touches : pause.Makes allowed (Call.Touches source path) :=
  .call (touches_none rfl) fun _ _ => .ofExcept _

/-- Describing an entry asks for its status and its target only. -/
theorem describeEntry_makes (name : String) :
    (describeEntry name source).Makes allowed fun c => c = .lstat source ∨ c = .readlink source := by
  refine .bind (.call (.inl rfl) fun _ _ => .ofExcept _) fun status =>
    .bind (.ofExcept _) fun entry => ?_
  split
  · exact Keeps.attempted (Makes.call (.inr rfl) fun _ _ => .ofExcept _) (fun _ => .done _)
      fun _ => .done _
  · exact .done _

theorem describeEntry_touches (name : String) :
    (describeEntry name source).Makes allowed (Call.Touches source path) :=
  (describeEntry_makes name).mono fun c among => by
    rcases among with rfl | rfl <;> exact touches_source rfl rfl

theorem copyFile_touches (c : Cloner) (mode : Int) :
    (copyFile c source path mode).Makes allowed (Call.Touches source path) := by
  have calls : CopyCalls (anyWith allowed) (fun c _ => c.Touches source path) (fun _ => True)
      (fun _ _ => True) source path mode :=
    { note := log_touches
      openRead := Makes.call (touches_source rfl rfl) fun _ _ => .ofExcept _
      close := fun _ => Makes.call (touches_none rfl) fun _ _ => .ofExcept _
      openExclusive := fun _ _ =>
        ⟨touches_path rfl, fun _ _ _ => meets_ofExcept.mpr ⟨trivial, fun _ _ => trivial⟩⟩
      file := fun _ _ =>
        { note := log_touches
          read := fun _ => Makes.call (touches_none rfl) fun _ _ => .ofExcept _
          write := fun _ => Makes.call (touches_none rfl) fun _ _ => .ofExcept _
          pause := pause_touches
          truncate := Makes.call (touches_path rfl) fun _ _ => .ofExcept _
          chown := fun _ _ => Makes.call (touches_path rfl) fun _ _ => .ofExcept _
          chmod := Makes.call (touches_path rfl) fun _ _ => .ofExcept _ }
      leave := fun _ _ _ => trivial }
  exact calls.copyFile c

theorem copySymlink_touches (c : Cloner) (sourceTop destTop : String) (target : Option String) :
    (copySymlink c sourceTop source destTop path target).Makes allowed
      (Call.Touches source path) := by
  have calls : ∀ uid gid target, LinkCalls (anyWith allowed) (fun c _ => c.Touches source path)
      (fun _ => True) (fun _ => True) path uid gid target := fun uid gid target =>
    { note := log_touches
      symlink := fun _ _ =>
        ⟨touches_path rfl, fun _ _ _ => meets_ofExcept.mpr ⟨trivial, fun _ _ => trivial⟩⟩
      lchown := Makes.call (touches_path rfl) fun _ _ => .ofExcept _
      leave := fun _ _ => trivial }
  refine keeps_copySymlink (fun _ => True) log_touches (fun _ _ => ?_)
    (fun target _ => (calls _ _ _).placeLink) fun _ _ => trivial
  exact ⟨touches_source rfl rfl, fun _ _ _ => meets_ofExcept.mpr ⟨trivial, fun _ _ => trivial⟩⟩

end

end Program

end HomeProvision
