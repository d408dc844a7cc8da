import HomeProvision.Proofs.Repeated

/-!
# A clone retraced

A clone that has come to its end may be started again on the machine that it has left. Then it goes
through the same directories: the source looks as it did, and where the first run has made a
directory there is one now, while nothing can be made where it has copied a file or a link.

So the second run is no run of its own to be followed, but something that the first run foretells.
`p.Foretells start home later m` says of a program that whenever it comes to a result, `later` holds
of that result and of every machine that the clone may end with. For the parts of a clone `later`
says that the same part, run again, leaves the tree as it is and reports the work as redone
(`Repeats`). The contracts follow the structure of the walk.
-/

namespace HomeProvision.Program

open Machine CloneReport

variable {α β : Type} {start m m' f : Machine} {origin home : Option Nat}
  {directory name source dest path : String} {report : CloneReport} {entered : List Identity}

/-- Whether a program that comes to a result foretells something of all machines that a clone may
end with. -/
def Foretells (start : Machine) (home : Option Nat) (later : Machine → α → Prop) (p : Program α)
    (m : Machine) : Prop :=
  p.Meets (Cloning start home) (fun _ _ => True)
    (fun out m' => ∀ a, out = .ok a → ∀ f, Since m' f → Filled start home f → later f a) m

/-- Whether an outcome is that of a repeated step of a walk, the first having ended as given. -/
def Comes (f : Machine) (state : WalkState) (out : Except Fault WalkState) : Prop :=
  ∃ again, out = .ok (again, state.2) ∧ Redone f.kindAt state.1 again

/-- Whether a step of a walk leaves the tree when it is repeated. The first time it started with a
report and ended as given. -/
def Repeats (report : CloneReport) (p : CloneReport → Program WalkState) (f : Machine)
    (state : WalkState) : Prop :=
  ∀ again, Redone f.kindAt report again → (p again).Leaves f (Comes f state)

namespace Foretells

theorem done {later : Machine → α → Prop} {a : α}
    (h : ∀ f, Since m f → Filled start home f → later f a) :
    (Program.done a).Foretells start home later m := by
  intro _ same
  cases same
  exact h

theorem bind {mid : Machine → α → Prop} {later : Machine → β → Prop} {p : Program α}
    {k : α → Program β} (first : p.Foretells start home mid m)
    (onward : ∀ a m', Since m m' →
      (k a).Foretells start home (fun f b => mid f a → later f b) m') :
    (p.bind k).Foretells start home later m := by
  refine (Meets.since first).onward fun a m' reached => ?_
  refine (Meets.since (onward a m' reached.2)).mono fun out m'' ended b same f since filled => ?_
  exact ended.1 b same f since filled (reached.1 a rfl f (ended.2.trans since) filled)

/-- A program that runs on an untroubled machine as its contract says. -/
theorem of_meets {later : Machine → α → Prop} {post : Except Fault α → Machine → Prop}
    {p : Program α} (h : p.Meets Untroubled (fun _ _ => True) post m)
    (onward : ∀ a m', post (.ok a) m' → ∀ f, Since m' f → Filled start home f → later f a) :
    p.Foretells start home later m :=
  h.cloning.mono fun _ m' reached a same => onward a m' (same ▸ reached)

theorem of_leaves {later : Machine → α → Prop} {good : Except Fault α → Prop} {p : Program α}
    (h : p.Leaves m good)
    (onward : ∀ a, good (.ok a) → ∀ f, Since m f → Filled start home f → later f a) :
    p.Foretells start home later m :=
  .of_meets (h m (.refl m)) fun a _ reached f since =>
    onward a reached.2 f (reached.1.since.trans since)

/-- In front of a call the machine is as the clone may leave it. -/
theorem filled {later : Machine → α → Prop} {p : Program α} (calls : ∃ c next, p = call c next)
    (h : Filled start home m → p.Foretells start home later m) : p.Foretells start home later m := by
  obtain ⟨c, next, rfl⟩ := calls
  exact ⟨trivial, fun r m' step => (h step.1).2 r m' step⟩

/-! ## Steps that are repeated -/

theorem stop {p : CloneReport → CloneReport}
    (h : ∀ (f : Machine) again, Redone f.kindAt report again →
      Redone f.kindAt (p report) (p again)) :
    (Program.done (p report, entered)).Foretells start home
      (Repeats report fun again => Program.done (p again, entered)) m :=
  .done fun f _ _ again redone => .done ⟨_, rfl, h f again redone⟩

/-- A program whose first part has a known outcome. -/
theorem after {later : Machine → α → Prop} {later' : β → Machine → α → Prop} {p : Program β}
    {k : β → Program α} {out : Except Fault β} (first : p.Leaves m (· = out))
    (onward : ∀ b, out = .ok b → ∀ m', SameTree m m' → (k b).Foretells start home (later' b) m')
    (again : ∀ b, out = .ok b → ∀ f a, Since m f → Filled start home f → later' b f a →
      later f a) :
    (p.bind k).Foretells start home later m := by
  refine (first m (.refl m)).cloning.onward fun b m' reached => ?_
  obtain ⟨same, rfl⟩ := reached
  refine (Meets.since (onward b rfl m' same)).mono fun _ _ ended a here f since filled => ?_
  exact again b rfl f a (same.since.trans (ended.2.trans since)) filled
    (ended.1 a here f since filled)

/-- A program whose first part has the same outcome both times. -/
theorem repeated {p : Program β} {k : β → Program WalkState} {out : Except Fault β}
    (first : p.Leaves m (· = out))
    (again : ∀ f, Since m f → Filled start home f → p.Leaves f (· = out))
    (onward : ∀ b, out = .ok b → ∀ m', SameTree m m' →
      (k b).Foretells start home (fun f state => (k b).Leaves f (Comes f state)) m') :
    (p.bind k).Foretells start home (fun f state => (p.bind k).Leaves f (Comes f state)) m :=
  .after first onward fun _ same f _ later filled leaves =>
    ((again f later filled).mono fun _ here => here.trans same).surely leaves

/-- A step whose first part has the same outcome both times. -/
theorem known {p : Program β} {k : β → Program WalkState}
    {k' : CloneReport → β → Program WalkState} {out : Except Fault β} (first : p.Leaves m (· = out))
    (again : ∀ f, Since m f → Filled start home f → p.Leaves f (· = out))
    (onward : ∀ b, out = .ok b → ∀ m', SameTree m m' →
      (k b).Foretells start home (Repeats report fun again => k' again b) m') :
    (p.bind k).Foretells start home (Repeats report fun again => p.bind (k' again)) m :=
  .after first onward fun _ same f _ later filled repeats report' redone =>
    ((again f later filled).mono fun _ here => here.trans same).surely (repeats report' redone)

/-- A step and then another one. -/
theorem seq {p : Program WalkState} {p' : CloneReport → Program WalkState}
    {k : WalkState → Program WalkState} (first : p.Foretells start home (Repeats report p') m)
    (onward : ∀ state m', Since m m' → (k state).Foretells start home
      (Repeats state.1 fun again => k (again, state.2)) m') :
    (p.bind k).Foretells start home (Repeats report fun again => (p' again).bind k) m := by
  refine first.bind fun state m' since => ?_
  refine (onward state m' since).mono fun _ _ ended state' same f later filled repeats => ?_
  intro again redone
  refine (repeats again redone).onward ?_
  rintro _ ⟨again', rfl, redone'⟩
  exact ⟨_, rfl, ended state' same f later filled again' redone'⟩

/-- A step that fails each time. -/
theorem failing {p : CloneReport → Program WalkState}
    (fails : ∀ f, Since m f → ∀ report, (p report).Leaves f fun out =>
      ∃ result, out = .ok (report.addFailure result, entered)) :
    (p report).Foretells start home (Repeats report p) m := by
  refine .of_leaves (fails m (.refl m) report) fun state failed f since _ again redone => ?_
  obtain ⟨result, same⟩ := failed
  cases same
  refine (fails f since again).mono fun _ failed => ?_
  obtain ⟨result', rfl⟩ := failed
  exact ⟨_, rfl, redone.addFailure result result'⟩

end Foretells

/-! ## Directories -/

section

variable {w : Walk} {descend : String → String → List Identity → Program WalkState} {entry : Entry}

/-- Whether an entry is passed over: its directory has been entered, or it is the destination. -/
abbrev PassedOver (w : Walk) (entry : Entry) (entered : List Identity) : Prop :=
  (entered.contains entry.identity || w.destRoot = some entry.identity) = true

theorem cloneSubdirectory_leaves_passed (passed : PassedOver w entry entered) :
    (cloneSubdirectory w descend entry path (report, entered)).Leaves f
      (· = .ok (report.addSkipped entry.path, entered)) := by
  unfold cloneSubdirectory
  dsimp only
  rw [if_pos passed]
  exact (Leaves.log _ _ _).surely (.done rfl)

theorem cloneSubdirectory_leaves_blocked (other : ¬ PassedOver w entry entered)
    (blocked : f.Blocked path) (text : checkText path = .ok ()) :
    (cloneSubdirectory w descend entry path (report, entered)).Leaves f fun out =>
      ∃ result, out = .ok (report.addFailure result, entered) := by
  obtain ⟨e, _, looked⟩ := blocked.statusOf text false
  obtain ⟨e', missing, looked'⟩ := blocked.statusOf text true
  have code : (SystemError.numbered e' (.one path)).code? ≠ some .noEntry := fun same =>
    missing (Option.some.inj same)
  unfold cloneSubdirectory
  dsimp only
  rw [if_neg other]
  refine (isPlantedNonDirectory_leaves looked).surely ?_
  refine (ensureDirectory_leaves_error looked' code _ _ _).onward ?_
  rintro _ ⟨result, rfl, failed⟩
  refine ⟨result, rfl, ?_⟩
  simp only [failed]
  exact .done ⟨_, rfl⟩

variable (full : directory ≠ "") (text : checkText directory = .ok ()) (own : Path.IsName name)
  (regular : start.tree.Regular)
include full text own

/-- A directory is not made where something else is. -/
theorem cloneSubdirectory_leaves_planted {kind : EntryType} (other : ¬ PassedOver w entry entered)
    (regular : f.tree.Regular) (taken : f.Taken directory name kind) (planted : kind ≠ .directory) :
    (cloneSubdirectory w descend entry (Path.join directory name) (report, entered)).Leaves f
      fun out => ∃ result, out = .ok (report.addFailure result, entered) := by
  have looks := isPlantedNonDirectory_leaves_taken taken full own
    (checkText_join text (checkText_eq_ok.mpr own.noNul)) regular
  rw [decide_eq_true planted] at looks
  unfold cloneSubdirectory
  dsimp only
  rw [if_neg other]
  exact looks.surely (.done ⟨_, rfl⟩)

/-- A directory that is there already is not made, and what was copied into it is copied again. -/
theorem cloneSubdirectory_leaves_taken {again : CloneReport} {inner : WalkState}
    (other : ¬ PassedOver w entry entered) (regular : f.tree.Regular)
    (taken : f.Taken directory name .directory) (redone : Redone f.kindAt report again)
    (below : (descend entry.path (Path.join directory name) entered).Leaves f (Comes f inner)) :
    (cloneSubdirectory w descend entry (Path.join directory name) (again, entered)).Leaves f
      (Comes f ((report.addCopied (Path.join directory name)).absorb inner.1, inner.2)) := by
  have text := checkText_join text (checkText_eq_ok.mpr own.noNul)
  have looks := isPlantedNonDirectory_leaves_taken taken full own text regular
  obtain ⟨status, looked⟩ := taken.statusOf full own text
  unfold cloneSubdirectory
  dsimp only
  rw [if_neg other]
  refine looks.surely ((ensureDirectory_leaves looked _ _ _).surely ?_)
  refine below.onward ?_
  rintro _ ⟨again', rfl, redone'⟩
  exact ⟨_, rfl, .done ⟨_, rfl, (redone.addCopied (taken.kindAt full own text)).absorb redone'⟩⟩

/-- Whether the content of a directory is copied again as it was copied once. -/
def Revisits (start : Machine) (origin home : Option Nat)
    (descend : String → String → List Identity → Program WalkState) : Prop :=
  ∀ source dest entered m, dest ≠ "" → checkText dest = .ok () → Since start m →
    LeadsBack start.tree origin home source m → m.Stands dest →
    (descend source dest entered).Foretells start home
      (fun f state => (descend source dest entered).Leaves f (Comes f state)) m

variable (revisits : Revisits start origin home descend) (since : Since start m)
include revisits since

section

variable (other : ¬ PassedOver w entry entered)
  (seen : LeadsBack start.tree origin home entry.path m)
  (planted : (isPlantedNonDirectory (Path.join directory name)).Leaves m (· = .ok false))
  (made : ∀ m', SameTree m m' → (ensureDirectory (Path.join directory name) w.cloner.uid
    w.cloner.gid (withoutSetId entry.mode)).Meets Untroubled (fun _ _ => True)
      (fun out m' => ∀ result, out = .ok result →
        result.success = true ∧ m'.Taken directory name .directory) m')
include other seen planted made

/-- A directory that is made, or is there, is copied, and what is copied into it is so again. -/
theorem cloneSubdirectory_descends :
    (cloneSubdirectory w descend entry (Path.join directory name) (report, entered)).Meets
      (Cloning start home) (fun _ _ => True)
      (fun out m' => ∀ state, out = .ok state → m'.Taken directory name .directory ∧
        ∃ inner, state = ((report.addCopied (Path.join directory name)).absorb inner.1, inner.2) ∧
          ∀ f, Since m' f → Filled start home f →
            (descend entry.path (Path.join directory name) entered).Leaves f (Comes f inner)) m := by
  have below := checkText_join text (checkText_eq_ok.mpr own.noNul)
  unfold cloneSubdirectory
  dsimp only
  rw [if_neg other]
  refine (planted m (.refl m)).cloning.onward fun _ m₁ reached => ?_
  obtain ⟨same, here⟩ := reached
  cases here
  refine (made m₁ same).cloning.since.onward fun created m₂ reached => ?_
  obtain ⟨good, taken⟩ := reached.1 created rfl
  have later := same.since.trans reached.2
  obtain ⟨q, leads⟩ := taken.directoryAt full own
  simp only [good]
  refine (Meets.since (revisits entry.path (Path.join directory name) entered m₂
    (Path.join_ne_empty own.toIsComponent) below (since.trans later) (seen.since later)
    (stands_of_directoryAt leads))).onward fun inner m₃ ended => ?_
  rintro _ same
  cases same
  exact ⟨taken.since ended.2, inner, rfl, ended.1 inner rfl⟩

include regular

/-- A directory that was made, or was there, is entered again. -/
theorem cloneSubdirectory_revisits :
    (cloneSubdirectory w descend entry (Path.join directory name) (report, entered)).Foretells
      start home (Repeats report fun again =>
        cloneSubdirectory w descend entry (Path.join directory name) (again, entered)) m := by
  refine (cloneSubdirectory_descends full text own revisits since other seen planted
    made).mono fun _ _ ended state same f later filled again redone => ?_
  obtain ⟨taken, inner, rfl, comes⟩ := ended state same
  refine cloneSubdirectory_leaves_taken full text own other ?_ (taken.since later) redone
    (comes f later filled)
  exact filled.since.regular regular

end

variable (plain : start.tree.Plain) (stands : m.Stands directory)
  (seen : w.destRoot ≠ some entry.identity → LeadsBack start.tree origin home entry.path m)
include regular plain stands seen

theorem cloneSubdirectory_foretells :
    (cloneSubdirectory w descend entry (Path.join directory name) (report, entered)).Foretells
      start home (Repeats report fun again =>
        cloneSubdirectory w descend entry (Path.join directory name) (again, entered)) m := by
  have below := checkText_join text (checkText_eq_ok.mpr own.noNul)
  by_cases other : PassedOver w entry entered
  · refine .of_leaves (cloneSubdirectory_leaves_passed other) fun state same f _ _ again redone => ?_
    cases same
    exact (cloneSubdirectory_leaves_passed other).mono fun _ same =>
      ⟨_, same, redone.addSkipped _⟩
  have seen := seen fun same => other (by simp [PassedOver, same])
  rcases stands.blocked_or full own with blocked | ⟨short, q, leads⟩
  · exact .failing fun f later report =>
      cloneSubdirectory_leaves_blocked other (blocked f later) below
  cases child : m.tree.child? q.node name with
  | none =>
    have free : Free m directory name := ⟨q, leads, short, child⟩
    refine cloneSubdirectory_revisits full text own regular revisits since other seen
      (isPlantedNonDirectory_leaves (free.statusOf full own below false)) fun m' same => ?_
    refine (ensureDirectory_tried full own _ _ _).mono fun _ _ tried result here => ?_
    have made := (tried result here).resolve_right fun kept => kept.2 (free.same same)
    exact ⟨made.1, made.2.taken⟩
  | some i =>
    obtain ⟨n, here⟩ := Option.ne_none_iff_exists'.mp ((since.plain plain).named _ _ _ child)
    have taken : m.Taken directory name n.entryType := ⟨q, i, n, leads, short, child, here, rfl⟩
    by_cases kind : n.entryType = .directory
    · rw [kind] at taken
      have looks := isPlantedNonDirectory_leaves_taken taken full own below (since.regular regular)
      refine cloneSubdirectory_revisits full text own regular revisits since other seen looks
        fun m' same => ?_
      obtain ⟨status, looked⟩ := taken.statusOf full own below
      refine (ensureDirectory_leaves looked _ _ _ m' same).mono fun _ m'' reached result here => ?_
      rw [reached.2] at here
      cases here
      exact ⟨rfl, taken.since reached.1.since⟩
    · exact .failing fun f later report => cloneSubdirectory_leaves_planted full text own other
        ((since.trans later).regular regular) (taken.since later) kind

end

/-! ## Entries -/

/-- What looks like a file is found when links are followed, too. -/
theorem find_of_regularFile {status : Status} {bits : Nat} (regular : m.tree.Regular)
    (looked : m.statusOf false path = .ok status) (valid : machineMode status.mode = .ok bits)
    (file : EntryType.ofBits bits = .regularFile) :
    ∃ i n, m.find true path = .ok (i, n) ∧ n.body ≠ .pipe := by
  obtain ⟨⟨i, n⟩, found, same⟩ := bind_eq_ok.mp looked
  cases same
  obtain ⟨⟨above, leads⟩, here⟩ := find_ok found
  have type : n.entryType = .regularFile :=
    (Node.entryType_of_status (regular.mode i n here) valid).symm.trans file
  unfold Node.entryType at type
  have noLink : (m.tree.node? i).bind Node.target? = none := by
    rw [here]
    cases body : n.body <;> simp [Node.target?, body] at type ⊢
  refine ⟨i, n, find_eq_ok (find_valid found) (Tree.resolve_of_noLink noLink leads) here, ?_⟩
  intro body
  rw [body] at type
  cases type

/-- An entry that looks the same is described in the same way. -/
theorem describeEntry_leaves (status : f.statusOf false path = m.statusOf false path)
    (target : f.targetOf path = m.targetOf path) (name : String) :
    (attempt (describeEntry name path)).Leaves f
      (· = attempted ((describeEntry name path).run layer m).1) := by
  refine .attempt (.of_replies (describeEntry_makes name) fun c among => ?_)
  rcases among with rfl | rfl
  · exact ⟨rfl, rfl, fun f' same => Prod.ext (same.statusOf.trans status) rfl⟩
  · exact ⟨rfl, rfl, fun f' same => Prod.ext (same.targetOf.trans target) rfl⟩

/-- Whether a copy that was made is refused when it is repeated, and one that failed fails again. -/
def Denied (f : Machine) (path : String) (first : StepResult) (out : Except Fault StepResult) :
    Prop :=
  ∃ again, out = .ok again ∧ again.success = false ∧
    (first.success = true → ∃ type failure message, f.kindAt path = some type ∧
      type.refusal = some failure ∧ again = .failure failure path message)

theorem Foretells.record {p : Program StepResult}
    (h : p.Foretells start home (fun f result => p.Leaves f (Denied f path result)) m) :
    (p.bind fun result => Program.done (report.record result path, entered)).Foretells start home
      (Repeats report fun again => p.bind fun result =>
        Program.done (again.record result path, entered)) m := by
  refine h.bind fun result m' since => .done fun f _ _ leaves again redone => ?_
  refine leaves.onward ?_
  rintro _ ⟨again', rfl, failed, known⟩
  refine ⟨again', rfl, .done ⟨_, rfl, ?_⟩⟩
  simp only [CloneReport.record, failed]
  split
  · next good =>
    obtain ⟨type, failure, message, kind, refusal, rfl⟩ := known good
    exact redone.deny kind refusal message
  · exact redone.addFailure _ _

section

variable (full : directory ≠ "") (text : checkText directory = .ok ()) (own : Path.IsName name)
  (named : m.tree.Named) (stands : m.Stands directory)
include full text own named stands

theorem copyFile_foretells {i : Nat} {n : Node} (found : m.find true source = .ok (i, n))
    (file : n.body ≠ .pipe)
    (again : ∀ f, Since m f → Filled start home f →
      ∃ i n, f.find true source = .ok (i, n) ∧ n.body ≠ .pipe) (c : Cloner) (mode : Int) :
    (copyFile c source (Path.join directory name) mode).Foretells start home
      (fun f result => (copyFile c source (Path.join directory name) mode).Leaves f
        (Denied f (Path.join directory name) result)) m := by
  have text := checkText_join text (checkText_eq_ok.mpr own.noNul)
  refine (Meets.since (copyFile_tried full own named stands found file c mode).cloning).mono
    fun _ m' reached result same f later filled => ?_
  obtain ⟨tried, taken⟩ := reached.1 result same
  obtain ⟨i', n', found', file'⟩ := again f (reached.2.trans later) filled
  refine (copyFile_leaves found' file' (tried f later) text c mode).mono fun _ refused => ?_
  obtain ⟨message, rfl⟩ := refused
  exact ⟨_, rfl, rfl, fun good =>
    ⟨_, _, message, ((taken good).since later).kindAt full own text, rfl, rfl⟩⟩

theorem placeLink_foretells (c : Cloner) (target : String) :
    (placeLink c target (Path.join directory name)).Foretells start home
      (fun f result => (placeLink c target (Path.join directory name)).Leaves f
        (Denied f (Path.join directory name) result)) m := by
  have text := checkText_join text (checkText_eq_ok.mpr own.noNul)
  refine (placeLink_tried full own named stands text c target).cloning.mono
    fun _ m' reached result same f later _ => ?_
  obtain ⟨refused, taken⟩ := reached result same
  refine (placeLink_leaves (fun f' same => refused f' (later.trans same.since)) c).mono
    fun _ failed => ?_
  obtain ⟨message, rfl⟩ := failed
  exact ⟨_, rfl, rfl, fun good =>
    ⟨_, _, message, ((taken good).since later).kindAt full own text, rfl, rfl⟩⟩

theorem copySymlink_foretells (targets : ∀ f, Since m f → Filled start home f →
      f.targetOf source = m.targetOf source) (c : Cloner) (sourceTop destTop : String)
    (target : Option String) :
    ((copySymlink c sourceTop source destTop (Path.join directory name) target).bind fun result =>
      Program.done (report.record result (Path.join directory name), entered)).Foretells start home
      (Repeats report fun again =>
        (copySymlink c sourceTop source destTop (Path.join directory name) target).bind
          fun result => Program.done (again.record result (Path.join directory name), entered))
      m := by
  cases target with
  | some target => exact (placeLink_foretells full text own named stands c _).record
  | none =>
    unfold copySymlink
    simp only [bind_eq, bind_assoc]
    refine .known (Leaves.readlink source).attempt (fun f later filled => ?_) fun looked _ m' same => ?_
    · rw [← targets f later filled]
      exact (Leaves.readlink source).attempt
    cases looked with
    | error e => exact .failing fun f _ report => (Leaves.log _ _ _).surely (.done ⟨_, rfl⟩)
    | ok target =>
      refine (placeLink_foretells full text own ?_ (stands.since same.since) c _).record
      rw [same.tree]
      exact named

end

/-- Whether a machine is in the midst of a clone: a source leads to a directory that was reached at
the start, and a destination stands. -/
structure Facing (start : Machine) (origin home : Option Nat) (source dest : String) (p : Place)
    (m : Machine) : Prop where
  since : Since start m
  leads : m.tree.directoryAt m.current source = .ok p
  back : start.tree.FromSource origin home p.node
  stands : m.Stands dest

theorem Facing.later {p : Place} (h : Facing start origin home source dest p m)
    (later : Since m m') : Facing start origin home source dest p m' :=
  ⟨h.since.trans later, later.directoryAt h.leads, h.back, h.stands.since later⟩

section

variable {w : Walk} {descend : String → String → List Identity → Program WalkState} {p : Place}
  (regular : start.tree.Regular) (plain : start.tree.Plain) (apart : start.tree.Apart origin home)
  (root : ∀ d, home = some d →
    ∃ n, start.tree.node? d = some n ∧ w.destRoot = some n.status.identity)
  (revisits : Revisits start origin home descend)
  (full : directory ≠ "") (text : checkText directory = .ok ())
include regular plain apart root revisits full text

theorem cloneEntry_foretells {k : Nat} (h : Facing start origin home source directory p m)
    (own : Path.IsName name) (child : start.tree.child? p.node name = some k) :
    (cloneEntry w descend name (Path.join source name) (Path.join directory name)
      (report, entered)).Foretells start home (Repeats report fun again =>
        cloneEntry w descend name (Path.join source name) (Path.join directory name)
          (again, entered)) m := by
  refine .filled ⟨_, _, rfl⟩ fun filled => ?_
  have some := Tree.nonempty_of_directoryAt h.leads
  have status : ∀ f, Since m f → Filled start home f →
      f.statusOf false (Path.join source name) = m.statusOf false (Path.join source name) :=
    fun f later filled' => filled.statusOf_entry plain.named filled' later h.leads some own child
  have target : ∀ f, Since m f → Filled start home f →
      f.targetOf (Path.join source name) = m.targetOf (Path.join source name) :=
    fun f later filled' => filled.targetOf_entry plain.named filled' later h.leads some own child
  refine .known (describeEntry_leaves rfl rfl name) (fun f later filled' =>
    describeEntry_leaves (status f later filled') (target f later filled') name)
    fun described outcome m' same => ?_
  have here := h.later same.since
  have named := (here.since.plain plain).named
  cases described with
  | error e => exact .failing fun f _ report => (Leaves.log _ _ _).surely (.done ⟨_, rfl⟩)
  | ok entry =>
    obtain ⟨path, shown, bits, looked, valid, type, identity⟩ :=
      described_ok (attempted_eq_ok outcome)
    dsimp only
    cases kind : entry.type with
    | directory =>
      refine cloneSubdirectory_foretells full text own regular revisits here.since plain here.stands
        fun other => ?_
      rw [path]
      refine (leadsBack_of_status regular plain.named apart root h.since filled.added
        ⟨p, h.leads, h.back⟩ own looked valid (type.trans kind) ?_).since same.since
      rw [identity]
      exact other
    | regularFile =>
      have found : ∀ f, Since m f → Filled start home f →
          ∃ i n, f.find true (Path.join source name) = .ok (i, n) ∧ n.body ≠ .pipe :=
        fun f later filled' => find_of_regularFile ((h.since.trans later).regular regular)
          ((status f later filled').trans looked) valid (type.trans kind)
      obtain ⟨i, n, there, file⟩ := find_of_regularFile (here.since.regular regular)
        (same.statusOf.trans looked) valid (type.trans kind)
      refine (copyFile_foretells full text own named here.stands there file
        (fun f later => found f (same.since.trans later)) w.cloner _).record
    | symlink =>
      refine copySymlink_foretells full text own named here.stands (fun f later filled' => ?_) _ _ _ _
      exact (target f (same.since.trans later) filled').trans same.targetOf.symm
    | other =>
      refine .known (Leaves.log _ _ _) (fun f _ _ => Leaves.log _ _ _) fun _ _ m' _ => ?_
      exact .stop fun _ _ redone => redone.addSkipped _

theorem cloneNames_foretells (h : Facing start origin home source directory p m)
    (listed : List String)
    (children : ∀ name ∈ listed, name = "." ∨ name = ".." ∨
      Path.IsName name ∧ ∃ k, start.tree.child? p.node name = some k) :
    (cloneNames w descend source directory listed (report, entered)).Foretells start home
      (Repeats report fun again => cloneNames w descend source directory listed (again, entered))
      m := by
  induction listed generalizing report entered m with
  | nil => exact .stop fun _ _ => id
  | cons name rest ih =>
    have ih : ∀ {state : WalkState} {m}, Facing start origin home source directory p m →
        (cloneNames w descend source directory rest state).Foretells start home
          (Repeats state.1 fun again =>
            cloneNames w descend source directory rest (again, state.2)) m :=
      fun h => ih h fun n mem => children n (List.mem_cons_of_mem _ mem)
    refine .known Leaves.pause (fun _ _ _ => Leaves.pause) fun _ _ m' same => ?_
    have h := h.later same.since
    split
    · exact ih h
    next entry =>
    have entry : name ≠ "." ∧ name ≠ ".." := by simpa using entry
    obtain ⟨own, k, child⟩ :=
      ((children name List.mem_cons_self).resolve_left entry.1).resolve_left entry.2
    refine (cloneEntry_foretells regular plain apart root revisits full text h own child).seq
      fun state m'' since => ?_
    exact ih (h.later since)

end

/-! ## Walks -/

/-- What a directory lists is a name that leads to a node, unless it stands for the directory itself
or its parent. -/
theorem children_of_namesOf {listed : List String} {p : Place} (regular : m.tree.Regular)
    (leads : m.tree.directoryAt m.current path = .ok p) (found : m.namesOf path = .ok listed) :
    ∀ name ∈ listed, name = "." ∨ name = ".." ∨
      Path.IsName name ∧ ∃ k, m.tree.child? p.node name = some k := by
  intro name mem
  refine (areNames_of_namesOf regular found name mem).imp_right fun other =>
    other.imp_right fun own => ⟨own, ?_⟩
  obtain ⟨⟨i, n⟩, there, listing⟩ := bind_eq_ok.mp found
  obtain ⟨⟨above, leads'⟩, here⟩ := find_ok there
  cases (Tree.directoryAt_eq_ok_iff.mp leads).1.symm.trans leads'
  dsimp only at listing
  split at listing
  · next entries dots body =>
    cases listing
    have mem : name ∈ entries.map Prod.fst := by
      refine (List.mem_append.mp mem).resolve_left fun mem => ?_
      split at mem
      · rcases List.mem_cons.mp mem with dot | mem
        · exact own.ne_dot dot
        · exact own.ne_dots (List.mem_singleton.mp mem)
      · cases mem
    obtain ⟨entry, inside, rfl⟩ := List.mem_map.mp mem
    refine Option.ne_none_iff_exists'.mp fun missing => ?_
    have missing : entries.lookup entry.1 = none := by
      simpa [Tree.child?, Tree.entries?, here, Node.entries?, body] using missing
    simpa using List.lookup_eq_none_iff.mp missing entry inside
  · cases listing

/-- What a walk sees of a directory before it copies its content. -/
def opening (m : Machine) (path : String) : Except Fault (Status × List String) := do
  let status ← m.statusOf true path
  return (status, ← m.namesOf path)

theorem opening_leaves (f : Machine) (path : String) :
    (do
      let status ← stat path
      return (status, ← list path) : Program (Status × List String)).Leaves f
      (· = opening f path) := by
  refine (Leaves.stat path).bind (fun status looked => ?_) fun e looked => ?_
  · refine (Leaves.list path).bind (fun listed found => .done ?_) fun e found => ?_
    · rw [opening, ← looked, ← found]
      rfl
    · rw [opening, ← looked, ← found]
      rfl
  · rw [opening, ← looked]
    rfl

theorem opening_eq (same : f.find true path = m.find true path) : opening f path = opening m path := by
  unfold opening Machine.namesOf
  rw [statusOf_eq, statusOf_eq, same]

section

variable {w : Walk} (regular : start.tree.Regular) (plain : start.tree.Plain)
  (apart : start.tree.Apart origin home)
  (root : ∀ d, home = some d →
    ∃ n, start.tree.node? d = some n ∧ w.destRoot = some n.status.identity)
include regular plain apart root

theorem cloneDirectory_revisits (depth : Nat) :
    Revisits start origin home (cloneDirectory w depth) := by
  induction depth with
  | zero => exact fun _ _ _ _ _ _ _ _ _ => fun _ bad => by cases bad
  | succ depth ih =>
    intro source dest entered m full text since back stands
    obtain ⟨p, leads, back⟩ := back
    refine .filled ⟨_, _, rfl⟩ fun filled => ?_
    have opened : ∀ f, Since m f → Filled start home f → opening f source = opening m source :=
      fun f later filled' => opening_eq (filled.find_eq plain.named filled' later leads apart back)
    refine .repeated (opening_leaves m source).attempt (fun f later filled' => ?_)
      fun looked outcome m' same => ?_
    · rw [← opened f later filled']
      exact (opening_leaves f source).attempt
    cases looked with
    | error e =>
      refine .repeated (Leaves.log _ _ _) (fun _ _ _ => Leaves.log _ _ _) fun _ _ m' _ => ?_
      exact .done fun f _ _ => .done ⟨_, rfl, .start _⟩
    | ok looked =>
      obtain ⟨status, listed⟩ := looked
      have h : Facing start origin home source dest p m' :=
        (⟨since, leads, back, stands⟩ : Facing start origin home source dest p m).later same.since
      refine (cloneNames_foretells regular plain apart root ih full text h listed ?_).mono
        fun _ _ ended state here f later filled' => ended state here f later filled' _ (.start _)
      obtain ⟨_, _, found⟩ := bind_eq_ok.mp (attempted_eq_ok outcome)
      obtain ⟨_, found, same⟩ := bind_eq_ok.mp found
      cases same
      have node := filled.node?_eq plain.named apart back
      intro name mem
      refine (children_of_namesOf (since.regular regular) leads found name mem).imp_right fun other =>
        other.imp_right fun own => ⟨own.1, own.2.imp fun k child => ?_⟩
      unfold Tree.child? Tree.entries? at child ⊢
      rw [← node]
      exact child

end

end HomeProvision.Program
