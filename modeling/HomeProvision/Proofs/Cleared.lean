import HomeProvision.Proofs.Below
import HomeProvision.Proofs.EnteredOnce
import HomeProvision.Proofs.Places

/-!
# What a clone enters

A world may answer what it likes: another process may change the destination between two calls, and
calls may fail. Still a clone works below a directory of the destination only after calls of its own
have cleared the path of this directory (`KeptCloner.clone_enters_cleared`). `Cleared` says what
these calls are. It is said of the trace of the clone, so that no machine is needed.

Not every one of these ways shows a directory. That something exists already is success for a
creation, and for the look that comes before it; so a path may be entered that no call has shown to
be a directory (`KeptCloner.clone_enters_unseen`).
-/

namespace HomeProvision

open HomeProvision.Path

/-! ## Cleared paths -/

/-- Whether a path was cleared by calls. The last of the five ways is no good one: nothing is known
of a path at which no look succeeds. -/
inductive Cleared (path : String) (seen : List Exchange) : Prop
  | created (mode : Int) (made : ⟨.mkdir path mode, .ok ()⟩ ∈ seen)
  | concurrent (mode : Int) (e : SystemError) (exists_ : e.code? = some .alreadyExists)
      (refused : ⟨.mkdir path mode, .error (.system e)⟩ ∈ seen)
  | directory (status : Status) (bits : Nat) (valid : machineMode status.mode = .ok bits)
      (type : EntryType.ofBits bits = .directory) (looked : ⟨.lstat path, .ok status⟩ ∈ seen)
  | appeared (e : SystemError) (status : Status) (free : e.code? = some .noEntry)
      (looked : [⟨.lstat path, .error (.system e)⟩, ⟨.stat path, .ok status⟩].Sublist seen)
  | unknown (e : SystemError) (other : e.code? ≠ some .noEntry)
      (failed : ⟨.lstat path, .error (.system e)⟩ ∈ seen)

theorem Cleared.append {path : String} {seen : List Exchange} (h : Cleared path seen)
    (more : List Exchange) : Cleared path (seen ++ more) := by
  cases h with
  | created mode made => exact .created mode (List.mem_append_left _ made)
  | concurrent mode e exists_ refused =>
    exact .concurrent mode e exists_ (List.mem_append_left _ refused)
  | directory status bits valid type looked =>
    exact .directory status bits valid type (List.mem_append_left _ looked)
  | appeared e status free looked =>
    exact .appeared e status free (looked.trans (List.sublist_append_left _ _))
  | unknown e other failed => exact .unknown e other (List.mem_append_left _ failed)

/-- Whether a path belongs to the skeleton, whatever its names are. -/
def IsOfSource (source path : String) : Prop :=
  ∃ names, AreComponents names ∧ path = below source names

/-- Whether a call may be made: if its path is below a path below the destination, then that was
cleared. Looks at the skeleton are free. -/
def MayCall (source dest : String) (seen : List Exchange) (c : Call) : Prop :=
  ∀ names rest, names ≠ [] → rest ≠ [] → AreComponents (names ++ rest) →
    c.path? = some (below dest (names ++ rest)) →
    (c.looks = true → ¬ IsOfSource source (below dest (names ++ rest))) →
      Cleared (below dest names) seen

/-- Whether every call of a trace may be made after the calls before it. -/
def Careful (source dest : String) (t : List Exchange) : Prop :=
  ∀ before x after, t = before ++ x :: after → MayCall source dest before x.call

variable {source dest : String}

theorem careful_nil : Careful source dest [] := by
  intro before x after same
  simp at same

theorem Careful.snoc {t : List Exchange} {x : Exchange} (h : Careful source dest t)
    (may : MayCall source dest t x.call) : Careful source dest (t ++ [x]) := by
  intro before y after same
  rcases List.eq_nil_or_concat after with rfl | ⟨rest, z, rfl⟩
  · obtain ⟨rfl, last⟩ := List.append_inj' same rfl
    cases last
    exact may
  · rw [List.concat_eq_append, ← List.cons_append, ← List.append_assoc] at same
    exact h before y rest (List.append_inj' same rfl).1

/-! ## What is noted -/

/-- Whether a reply lists names, if it lists anything: texts without a slash that are not empty. -/
def ListsNames (c : Call) (r : c.Reply) : Prop :=
  ∀ path names, (⟨c, r⟩ : Exchange).listing? = some (path, names) → AreComponents names

namespace Program

/-- A note on the calls of a run and their replies, in order. -/
def noteExchange (seen : List Exchange) (x : Moment Unit) : List Exchange :=
  seen ++ [x.toExchange]

theorem foldl_noteExchange (t : List (Moment Unit)) (seen : List Exchange) :
    t.foldl noteExchange seen = seen ++ t.map Moment.toExchange := by
  induction t generalizing seen with
  | nil => simp
  | cons x rest ih =>
    rw [List.foldl_cons, ih]
    simp [noteExchange]

/-- What may happen in a world that lists names, the calls being noted. -/
abbrev Tracing : Rule (Unit × List Exchange) :=
  Rule.watched (fun _ _ _ _ => True) ListsNames noteExchange

/-- Every call may be made. -/
def anyNoted (_ : Call) (_ : Unit × List Exchange) : Prop :=
  True

/-- What is known while the directory is filled that names lead to. -/
structure Filling (source dest : String) (names : List String) (s : Unit × List Exchange) :
    Prop where
  careful : Careful source dest s.2
  cleared : ∀ above, above <+: names → above ≠ [] → Cleared (below dest above) s.2

variable {names : List String} {name path : String} {s s' : Unit × List Exchange}

theorem Filling.of_isPrefix {above : List String} (h : Filling source dest names s)
    (shorter : above <+: names) : Filling source dest above s :=
  ⟨h.careful, fun upper less => h.cleared upper (less.trans shorter)⟩

theorem Filling.snoc (h : Filling source dest names s)
    (cleared : Cleared (below dest (names ++ [name])) s.2) :
    Filling source dest (names ++ [name]) s := by
  refine ⟨h.careful, fun above shorter => ?_⟩
  rcases List.prefix_concat_iff.mp shorter with rfl | shorter
  · exact fun _ => cleared
  · exact h.cleared above shorter

/-- A call that may be made. -/
theorem Filling.step {c : Call} {r : c.Reply} (h : Filling source dest names s)
    (may : MayCall source dest s.2 c) (step : Tracing c s r s') :
    Filling source dest names s' := by
  have noted : s'.2 = s.2 ++ [⟨c, r⟩] := step.2
  refine ⟨?_, fun above shorter some => ?_⟩
  · rw [noted]
    exact h.careful.snoc may
  · rw [noted]
    exact (h.cleared above shorter some).append _

/-- A call without a path may be made. -/
theorem mayCall_of_none {seen : List Exchange} {c : Call} (none : c.path? = none) :
    MayCall source dest seen c := by
  intro _ _ _ _ _ same
  rw [none] at same
  cases same

/-- A look at the skeleton may be made. -/
theorem mayCall_of_source {seen : List Exchange} {c : Call} (own : c.path? = some path)
    (looks : c.looks = true) (of : IsOfSource source path) : MayCall source dest seen c := by
  intro names rest _ _ _ same other
  rw [own] at same
  cases same
  exact absurd of (other looks)

/-- A call on the path of an entry may be made once the paths above it were cleared. -/
theorem Filling.mayCall {c : Call} (h : Filling source dest names s)
    (proper : AreComponents (names ++ [name])) (own : c.path? = some (below dest (names ++ [name]))) :
    MayCall source dest s.2 c := by
  intro above rest some more all same _
  rw [own] at same
  have split := below_injective proper all (Option.some.inj same)
  obtain ⟨rest, last, rfl⟩ := List.eq_nil_or_concat rest |>.resolve_left more
  rw [List.concat_eq_append, ← List.append_assoc] at split
  obtain ⟨rfl, _⟩ := List.append_inj' split rfl
  exact h.cleared above (List.prefix_append _ _) some

/-- The calls of copying an entry may be made. -/
theorem Filling.touches {c : Call} (h : Filling source dest names s)
    (proper : AreComponents (names ++ [name]))
    (touches : c.Touches (below source (names ++ [name])) (below dest (names ++ [name]))) :
    MayCall source dest s.2 c := by
  cases own : c.path? with
  | none => exact mayCall_of_none own
  | some p =>
    rcases touches p own with rfl | ⟨rfl, looks⟩
    · exact h.mayCall proper own
    · exact mayCall_of_source own looks ⟨_, proper, rfl⟩

/-- The parts of copying an entry. -/
theorem Filling.keeps {α : Type} {p : Program α} (proper : AreComponents (names ++ [name]))
    (makes : p.Makes ListsNames
      (Call.Touches (below source (names ++ [name])) (below dest (names ++ [name])))) :
    p.Keeps Tracing anyNoted (Filling source dest names) :=
  makes.keeps fun _ _ touches h =>
    ⟨trivial, fun _ _ step => ⟨step.1.2, h.step (h.touches proper touches) step⟩⟩

/-! ## The calls that clear a path -/

/-- Whether a look at a path showed a directory, or none succeeded. -/
def NotPlanted (path : String) (seen : List Exchange) : Prop :=
  (∃ status bits, machineMode status.mode = .ok bits ∧ EntryType.ofBits bits = .directory ∧
    ⟨.lstat path, .ok status⟩ ∈ seen) ∨
  ∃ e, ⟨.lstat path, .error (.system e)⟩ ∈ seen

/-- What such a look leaves open is settled by a second one, which follows links. -/
theorem NotPlanted.cleared {seen : List Exchange} (h : NotPlanted path seen) (status : Status) :
    Cleared path (seen ++ [⟨.stat path, .ok status⟩]) := by
  rcases h with ⟨status, bits, valid, type, looked⟩ | ⟨e, failed⟩
  · exact .directory status bits valid type (List.mem_append_left _ looked)
  · by_cases free : e.code? = some .noEntry
    · exact .appeared e status free
        ((List.singleton_sublist.mpr failed).append (List.Sublist.refl _))
    · exact .unknown e free (List.mem_append_left _ failed)

section

variable (proper : AreComponents (names ++ [name]))
include proper

theorem isPlantedNonDirectory_looks (h : Filling source dest names s) :
    (isPlantedNonDirectory (below dest (names ++ [name]))).Meets Tracing anyNoted
      (fun out s' => Filling source dest names s' ∧
        (out = .ok false → NotPlanted (below dest (names ++ [name])) s'.2)) s := by
  refine ⟨trivial, fun look s₁ step => ?_⟩
  have h₁ := h.step (h.mayCall proper rfl) step
  have here : ⟨.lstat (below dest (names ++ [name])), look⟩ ∈ s₁.2 := by
    rw [step.2]
    exact List.mem_append_right _ List.mem_cons_self
  cases look with
  | error f =>
    cases f with
    | system e => exact ⟨h₁, fun _ => .inr ⟨e, here⟩⟩
    | _ => exact ⟨h₁, fun bad => by cases bad⟩
  | ok status =>
    change ((ofRange (machineMode status.mode)).bind _).Meets _ _ _ _
    cases valid : machineMode status.mode with
    | error e => exact ⟨h₁, fun bad => by cases bad⟩
    | ok bits =>
      change Meets _ _ (if _ then _ else _) _ _
      split
      · next type => exact ⟨h₁, fun _ => .inl ⟨status, bits, valid, type, here⟩⟩
      · refine (Filling.keeps proper (log_touches _ _ _) s₁ h₁).bind (fun _ s₂ h => ?_)
          fun f s₂ h => ⟨h, fun bad => by cases bad⟩
        exact ⟨h, fun bad => by cases bad⟩

/-- A path that is cleared stays so while the rest of an entry is copied. -/
theorem Filling.keeps_cleared {α : Type} {p : Program α}
    (makes : p.Makes ListsNames
      (Call.Touches (below source (names ++ [name])) (below dest (names ++ [name])))) :
    p.Keeps Tracing anyNoted fun s =>
      Filling source dest names s ∧ Cleared (below dest (names ++ [name])) s.2 := by
  intro s h
  refine (Filling.keeps proper makes s h.1).along (fun c s r s' step cleared => ?_) h.2
  rw [step.2]
  exact cleared.append _

/-- How making a directory has to end: if it is said to be there, its path was cleared. -/
def Clears (source dest : String) (names : List String) (name : String)
    (out : Except Fault StepResult) (s : Unit × List Exchange) : Prop :=
  Filling source dest names s ∧ ∀ result, out = .ok result → result.success = true →
    Cleared (below dest (names ++ [name])) s.2

/-- How creating a directory has to end: unless it says that it failed, its path was cleared. -/
def ClearsNew (source dest : String) (names : List String) (name : String)
    (out : Except Fault (Option StepResult)) (s : Unit × List Exchange) : Prop :=
  Filling source dest names s ∧ ∀ result, out = .ok result →
    (∀ r, result = some r → r.success = true) → Cleared (below dest (names ++ [name])) s.2

theorem createDirectory_clears (h : Filling source dest names s) (mode : Int) :
    (createDirectory (below dest (names ++ [name])) mode).Meets Tracing anyNoted
      (ClearsNew source dest names name) s := by
  refine ⟨trivial, fun made s₁ step => ?_⟩
  have h₁ := h.step (h.mayCall proper rfl) step
  have here : ⟨.mkdir (below dest (names ++ [name])) mode, made⟩ ∈ s₁.2 := by
    rw [step.2]
    exact List.mem_append_right _ List.mem_cons_self
  cases made with
  | ok _ => exact ⟨h₁, fun _ _ _ => .created mode here⟩
  | error f =>
    cases f with
    | system e =>
      change Meets _ _ (if _ then _ else _) _ _
      split
      · next exists_ =>
        have cleared : Cleared (below dest (names ++ [name])) s₁.2 :=
          .concurrent mode e exists_ here
        exact (Filling.keeps_cleared proper (log_touches _ _ _) s₁ ⟨h₁, cleared⟩).bind
          (fun _ s₂ h => ⟨h.1, fun _ _ _ => h.2⟩) fun f s₂ h => ⟨h.1, fun _ bad => by cases bad⟩
      · refine (Filling.keeps proper (log_touches _ _ _) s₁ h₁).bind (fun _ s₂ h => ?_)
          fun f s₂ h => ⟨h, fun _ bad => by cases bad⟩
        refine ⟨h, fun result same good => ?_⟩
        cases same
        cases good _ rfl
    | _ => exact ⟨h₁, fun _ bad => by cases bad⟩

omit proper in
/-- The mask is put back after a creation, whatever came of it. -/
theorem withClearMask_clears {body : Program (Option StepResult)}
    (h : Filling source dest names s)
    (creates : ∀ s, Filling source dest names s →
      body.Meets Tracing anyNoted (ClearsNew source dest names name) s) :
    (withClearMask body).Meets Tracing anyNoted (ClearsNew source dest names name) s := by
  refine ⟨trivial, fun masked s₁ step => ?_⟩
  have h₁ := h.step (mayCall_of_none rfl) step
  cases masked with
  | error f => exact ⟨h₁, fun _ bad => by cases bad⟩
  | ok mask =>
    refine (creates s₁ h₁).ensuring fun out s₂ made => ⟨trivial, fun restored s₃ step => ?_⟩
    have h₃ := made.1.step (mayCall_of_none rfl) step
    cases restored with
    | error f => exact ⟨h₃, fun _ bad => by cases bad⟩
    | ok _ =>
      refine ⟨h₃, fun result same good => ?_⟩
      rw [step.2]
      exact (made.2 result same good).append _

theorem makeDirectory_clears (h : Filling source dest names s) (uid gid mode : Int) :
    (makeDirectory (below dest (names ++ [name])) uid gid mode).Meets Tracing anyNoted
      (Clears source dest names name) s := by
  refine (withClearMask_clears h fun s h => createDirectory_clears proper h mode).bind
    (fun result s₁ made => ?_) fun f s₁ made => ⟨made.1, fun _ bad => by cases bad⟩
  cases result with
  | some result =>
    refine ⟨made.1, fun r same good => made.2 _ rfl fun r' same' => ?_⟩
    cases same
    cases same'
    exact good
  | none =>
    have cleared := made.2 none rfl fun _ bad => by cases bad
    have last : (log .debug "Directory created"
        [("path", .text (below dest (names ++ [name]))),
          ("mode", .text (Number.paddedOctal mode))] >>= fun _ =>
        (pure (StepResult.ok (some (below dest (names ++ [name])))) : Program StepResult)).Makes
          ListsNames (Call.Touches (below source (names ++ [name])) (below dest (names ++ [name]))) :=
      (log_touches _ _ _).bind fun _ => .done _
    refine ((Filling.keeps_cleared proper ?_) s₁ ⟨made.1, cleared⟩).mono
      fun _ _ h => ⟨h.1, fun _ _ _ => h.2⟩
    exact Keeps.attempted (Makes.call (touches_path rfl) fun _ _ => .ofExcept _)
      (fun _ => last) fun e => (log_touches _ _ _).bind fun _ => last

theorem ensureDirectory_clears (h : Filling source dest names s)
    (free : NotPlanted (below dest (names ++ [name])) s.2) (uid gid mode : Int) :
    (ensureDirectory (below dest (names ++ [name])) uid gid mode).Meets Tracing anyNoted
      (Clears source dest names name) s := by
  refine ⟨trivial, fun look s₁ step => ?_⟩
  have h₁ := h.step (h.mayCall proper rfl) step
  cases look with
  | ok status =>
    have cleared : Cleared (below dest (names ++ [name])) s₁.2 := by
      rw [step.2]
      exact free.cleared status
    exact (Filling.keeps_cleared proper (log_touches _ _ _) s₁ ⟨h₁, cleared⟩).bind
      (fun _ s₂ h => ⟨h.1, fun _ _ _ => h.2⟩) fun f s₂ h => ⟨h.1, fun _ bad => by cases bad⟩
  | error f =>
    cases f with
    | system e =>
      change Meets _ _ (if _ then _ else _) _ _
      split
      · exact makeDirectory_clears proper h₁ uid gid mode
      · refine (Filling.keeps proper (log_touches _ _ _) s₁ h₁).bind (fun _ s₂ h => ?_)
          fun f s₂ h => ⟨h, fun _ bad => by cases bad⟩
        refine ⟨h, fun result same good => ?_⟩
        cases same
        cases good
    | _ => exact ⟨h₁, fun _ bad => by cases bad⟩

end

/-! ## The walk -/

theorem isComponent_snoc (proper : AreComponents names) (own : IsComponent name) :
    AreComponents (names ++ [name]) := by
  intro n mem
  rcases List.mem_append.mp mem with mem | mem
  · exact proper n mem
  · exact List.mem_singleton.mp mem ▸ own

/-- What is described is an entry with the path that was looked at. -/
theorem describeEntry_path (name : String) :
    (describeEntry name path).Returns fun entry => entry.path = path := by
  refine .after fun status => ?_
  have described : (ofRange (Entry.ofStatus name path status)).Returns
      fun entry => entry.path = path := by
    unfold Entry.ofStatus
    cases machineMode status.mode with
    | ok bits => rfl
    | error e => trivial
  refine described.bind fun entry own => ?_
  split
  · refine .after fun target => ?_
    cases target with
    | ok _ => exact own
    | error _ => exact own
  · exact own

section

variable {w : Walk} {descend : String → String → List Identity → Program WalkState}
  (below_ : ∀ names entered, AreComponents names →
    (descend (below source names) (below dest names) entered).Keeps Tracing anyNoted
      (Filling source dest names))
include below_

theorem cloneSubdirectory_clears (proper : AreComponents (names ++ [name])) {entry : Entry}
    (own : entry.path = below source (names ++ [name])) (state : WalkState) :
    (cloneSubdirectory w descend entry (below dest (names ++ [name])) state).Keeps Tracing anyNoted
      (Filling source dest names) := by
  obtain ⟨report, entered⟩ := state
  unfold cloneSubdirectory
  dsimp only
  split
  · exact (Filling.keeps proper (log_touches _ _ _)).bind fun _ => .done _
  intro s h
  refine (isPlantedNonDirectory_looks proper h).bind (fun planted s₁ looked => ?_)
    fun _ _ looked => looked.1
  split
  · exact looked.1
  next free =>
  have free := looked.2 (by simp only [Bool.not_eq_true] at free; rw [free])
  refine (ensureDirectory_clears proper looked.1 free _ _ _).bind (fun created s₂ made => ?_)
    fun _ _ made => made.1
  split
  · exact made.1
  next success =>
  -- from here on calls are made below the path of the entry
  have cleared := made.2 created rfl (by simpa using success)
  rw [own]
  refine (below_ (names ++ [name]) entered proper s₂ (made.1.snoc cleared)).bind
    (fun _ _ h => ?_) fun _ _ h => ?_
  · exact h.of_isPrefix (List.prefix_append _ _)
  · exact h.of_isPrefix (List.prefix_append _ _)

theorem cloneEntry_clears (proper : AreComponents (names ++ [name])) (state : WalkState) :
    (cloneEntry w descend name (below source (names ++ [name])) (below dest (names ++ [name]))
      state).Keeps Tracing anyNoted (Filling source dest names) := by
  intro s h
  refine Meets.attempt ((Filling.keeps proper (describeEntry_touches name) s h).returns
    (describeEntry_path name)) (fun entry s₁ h => ?_) (fun e s₁ h => ?_) fun _ _ _ h => h.1
  · have own := h.2 entry rfl
    dsimp only
    split
    · exact cloneSubdirectory_clears below_ proper own state s₁ h.1
    · exact ((Filling.keeps proper (copyFile_touches _ _)).bind fun _ => .done _) s₁ h.1
    · exact ((Filling.keeps proper (copySymlink_touches _ _ _ _)).bind fun _ => .done _) s₁ h.1
    · exact ((Filling.keeps proper (log_touches _ _ _)).bind fun _ => .done _) s₁ h.1
  · exact ((Filling.keeps proper (log_touches _ _ _)).bind fun _ => .done _) s₁ h.1

theorem cloneNames_clears (proper : AreComponents names) (listed : List String)
    (valid : AreComponents listed) (state : WalkState) :
    (cloneNames w descend (below source names) (below dest names) listed state).Keeps Tracing
      anyNoted (Filling source dest names) := by
  induction listed generalizing state with
  | nil => exact .done _
  | cons name rest ih =>
    have ih := ih fun n mem => valid n (List.mem_cons_of_mem _ mem)
    have inner := isComponent_snoc proper (valid name List.mem_cons_self)
    refine (Filling.keeps inner pause_touches).bind fun _ => ?_
    split
    · exact ih state
    · rw [← below_snoc, ← below_snoc]
      exact (cloneEntry_clears below_ inner state).bind ih

end

/-- A walk may look at its source, and reads texts there that can stand between slashes. -/
theorem opening_clears (proper : AreComponents names) (h : Filling source dest names s) :
    (do
      let status ← stat (below source names)
      return (status, ← list (below source names)) : Program (Status × List String)).Meets Tracing
      anyNoted (fun out s' => Filling source dest names s' ∧
        ∀ opened, out = .ok opened → AreComponents opened.2) s := by
  have looks : ∀ {c : Call} (s : Unit × List Exchange), c.path? = some (below source names) →
      c.looks = true → MayCall source dest s.2 c :=
    fun _ own looks => mayCall_of_source own looks ⟨names, proper, rfl⟩
  refine ⟨trivial, fun look s₁ step => ?_⟩
  have h₁ := h.step (looks s rfl rfl) step
  cases look with
  | error f => exact ⟨h₁, fun _ bad => by cases bad⟩
  | ok status =>
    refine ⟨trivial, fun listing s₂ step => ?_⟩
    have h₂ := h₁.step (looks s₁ rfl rfl) step
    cases listing with
    | error f => exact ⟨h₂, fun _ bad => by cases bad⟩
    | ok listed => exact ⟨h₂, fun _ same => by cases same; exact step.1.2 _ _ rfl⟩

theorem cloneDirectory_clears (w : Walk) (depth : Nat) (names : List String)
    (entered : List Identity) (proper : AreComponents names) :
    (cloneDirectory w depth (below source names) (below dest names) entered).Keeps Tracing anyNoted
      (Filling source dest names) := by
  induction depth generalizing names entered with
  | zero => exact .raise _
  | succ depth ih =>
    intro s h
    refine Meets.attempt (opening_clears proper h) (fun opened s₁ h => ?_) (fun e s₁ h => ?_) fun _ _ _ h => h.1
    · exact cloneNames_clears (fun names entered proper => ih names entered proper) proper opened.2
        (h.2 opened rfl) _ s₁ h.1
    · have noted : (log .warning "Error copying skeleton files"
          (errorOnPath (below source names) e)).Keeps Tracing anyNoted
          (Filling source dest names) := fun s h =>
        ⟨trivial, fun _ _ step => h.step (mayCall_of_none rfl) step⟩
      exact (noted.bind fun _ => .done _) s₁ h.1

end Program

/-! ## Runs -/

open Program in
/-- A clone enters only what its own calls have cleared. In every world that lists names, and for
every cloner, a call on a path below a path below the destination is made only after this path was
cleared, unless the call is a look at the skeleton. -/
theorem KeptCloner.clone_enters_cleared {σ : Type} {world : Layer σ} (k : KeptCloner)
    (source dest : String) (s : σ)
    (lists : ∀ x ∈ (k.clone source dest).trace world s, ListsNames x.call x.reply) :
    Careful source dest ((k.clone source dest).trace world s) := by
  have start : Filling source dest [] ((), []) :=
    ⟨careful_nil, fun above shorter some => absurd (List.prefix_nil.mp shorter) some⟩
  have none : AreComponents [] := fun _ mem => absurd mem List.not_mem_nil
  have walk : ∀ destRoot : Option Identity, ((cloneDirectory
      { cloner := k.cloner, sourceTop := source, destTop := dest, destRoot } k.cloner.limits.depth
      source dest []).bind fun state => done state.1).Keeps Tracing anyNoted
        (Filling source dest []) :=
    fun destRoot => (cloneDirectory_clears _ _ [] [] none).bind fun _ => .done _
  have kept : (k.clone source dest).Meets Tracing anyNoted
      (fun _ s' => Filling source dest [] s') ((), []) := by
    rw [k.clone_eq, clone_begins]
    refine ⟨trivial, fun look s₁ step => ?_⟩
    have first : MayCall source dest [] (.stat dest) := by
      intro names rest some more all same _
      -- the destination is not below itself
      have same : below dest [] = below dest (names ++ rest) := Option.some.inj same
      have bad := below_injective none all same
      exact absurd (List.append_eq_nil_iff.mp bad.symm).1 some
    have h₁ := start.step first step
    cases look with
    | ok status => exact walk _ s₁ h₁
    | error f =>
      cases f with
      | system e => exact walk _ s₁ h₁
      | _ => exact h₁
  have keeps : world.KeepsTo (fun _ _ _ _ => True : Rule Unit) fun _ => () := fun _ _ => trivial
  have noted := (Meets.watched keeps lists kept).careful
  rw [foldl_noteExchange, history_trace, List.nil_append] at noted
  exact noted

namespace Machine

/-- A machine with another process, which makes a call of its own in front of some. -/
def overtaken (other : Call → Option Call) : Layer Machine where
  reply c m :=
    match other c with
    | some c' => (m.reply c').2.reply c
    | none => m.reply c

/-- The other process makes each directory first. -/
def makesFirst : Call → Option Call
  | .mkdir path mode => some (.mkdir path mode)
  | _ => none

/-- The other process makes each directory after the first look at its path. -/
def makesBetween : Call → Option Call
  | .stat path => some (.mkdir path 0o755)
  | _ => none

/-- A machine that answers all listings with the same texts. -/
def misnaming (texts : List String) : Layer Machine where
  reply
    | .list _, m => (.ok texts, m)
    | c, m => m.reply c

open HomeProvision.Machine.Tree in
/-- A skeleton of two directories, one in the other. -/
def nestedSkeleton : Machine where
  tree :=
    { nodes := [
        { plainDirectory 1 1 with body := .directory [("skel", 1), ("home", 4)] false },
        { plainDirectory 1 2 with body := .directory [("d", 2)] false },
        { plainDirectory 1 3 with body := .directory [("e", 3)] false },
        plainDirectory 1 4,
        plainDirectory 1 5] }

open HomeProvision.Machine.Tree in
/-- A home with the skeleton in it, which holds a file and a directory with the skeleton's name. -/
def skeletonInHome : Machine where
  tree :=
    { nodes := [
        { plainDirectory 1 1 with body := .directory [("home", 1)] false },
        { plainDirectory 1 2 with body := .directory [("skel", 2)] false },
        { plainDirectory 1 3 with body := .directory [("f", 3), ("skel", 4)] false },
        { plainDirectory 1 4 with mode := 0o644, body := .file [104, 105] },
        plainDirectory 1 5] }

end Machine

/-- Whether a call shows that a directory is at a path: it made it, or it looked there itself. -/
def Exchange.verifies (path : String) : Exchange → Bool
  | ⟨.mkdir p _, .ok _⟩ => p = path
  | ⟨.lstat p, .ok status⟩ =>
      p = path && (machineMode status.mode).toOption.map EntryType.ofBits = some .directory
  | _ => false

/-- Whether a directory of the skeleton was found, and a call was made inside its destination before
any call had shown a directory there. -/
def EntersUnseen (source path inner : String) (t : List Exchange) : Prop :=
  (∃ x ∈ t, x.verifies source = true) ∧ (∃ x ∈ t, x.call.path? = some inner) ∧
    ∀ x ∈ t.takeWhile fun x => x.call.path? ≠ some inner, x.verifies path = false

instance (source path inner : String) (t : List Exchange) :
    Decidable (EntersUnseen source path inner t) :=
  inferInstanceAs (Decidable (_ ∧ _ ∧ _))

open Program Machine in
/-- Two directories of a skeleton are entered, the outer one after another process has made it. -/
theorem KeptCloner.clone_enters_cleared_overtaken :
    let k : KeptCloner :=
      { cloner := { uid := 7, gid := 7, limits := { depth := 4, pieces := 3 } }
        sourceTop := "", destTop := "", destRoot := none, entered := [] }
    Careful "/skel" "/home" ((k.clone "/skel" "/home").trace (overtaken makesFirst)
      nestedSkeleton) := by
  intro k
  have names : ∀ x ∈ (k.clone "/skel" "/home").trace (overtaken makesFirst) nestedSkeleton,
      ∀ listing ∈ x.listing?, ∀ name ∈ listing.2, IsName name := by decide
  exact KeptCloner.clone_enters_cleared k "/skel" "/home" nestedSkeleton
    fun x mem path listed found name own => (names x mem (path, listed) found name own).toIsComponent

open Program Machine in
/-- A directory may be entered that no call has shown to be one: where another process has made it
just before the creation, or just before the second look; where the path belongs to the skeleton,
too; and where a listing answers with a text that is no name. -/
theorem KeptCloner.clone_enters_unseen :
    let k : KeptCloner :=
      { cloner := { uid := 7, gid := 7, limits := { depth := 4, pieces := 3 } }
        sourceTop := "", destTop := "", destRoot := none, entered := [] }
    EntersUnseen "/skel/d" "/home/d" "/home/d/e"
        ((k.clone "/skel" "/home").trace (overtaken makesFirst) nestedSkeleton) ∧
      EntersUnseen "/skel/d" "/home/d" "/home/d/e"
        ((k.clone "/skel" "/home").trace (overtaken makesBetween) nestedSkeleton) ∧
      EntersUnseen "/home/skel/skel" "/home/skel" "/home/skel/f"
        ((k.clone "/home/skel" "/home").trace layer skeletonInHome) ∧
      EntersUnseen "/skel/d" "/home/d" "/home/d/e"
        ((k.clone "/skel" "/home").trace (misnaming ["d/e", "d"]) nestedSkeleton) := by
  decide +kernel

end HomeProvision
