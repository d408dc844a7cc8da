import HomeProvision.Proofs.Founded

/-!
# A clone that is repeated

What a clone has done once it does not do again. The report on the second run shows it: directories
are shown as copied again, while a file or a link is refused, since there is an entry at its path
(`CloneReport.Redone`).

So the result of each part is told together with what the part leaves at its path. A directory is
made under a free name, and is empty then, or nothing changes (`ensureDirectory_tried`). The path of
a file or a link is taken, or it is one where nothing can be made (`copyFile_tried`,
`placeLink_tried`). Both last as long as the machine runs.
-/

namespace HomeProvision

open Machine

/-! ## Reports on a repeated clone -/

/-- How copying fails where there is an entry of the kind already, if it does. -/
def EntryType.refusal : EntryType → Option FailureKind
  | .regularFile => some .openFile
  | .symlink => some .symlink
  | .directory | .other => none

/-- Whether a report shows that something could not be copied, since an entry of the kind is at its
place. `kind` tells what is at a path. -/
def CloneReport.Denies (kind : String → Option EntryType) (report : CloneReport) (path : String) :
    Prop :=
  ∃ type failure message, kind path = some type ∧ type.refusal = some failure ∧
    .failure failure path message ∈ report.failures

/-- Whether a report is that on a repeated clone. It shows the directories that the first one showed
as copied, and denies its other copies. -/
structure CloneReport.Redone (kind : String → Option EntryType) (first again : CloneReport) :
    Prop where
  outcome : again.outcome = first.outcome
  skipped : again.skipped = first.skipped
  copied : again.copied = first.copied.filter fun path => kind path = some .directory
  denied : ∀ path ∈ first.copied, kind path = some .directory ∨ again.Denies kind path

namespace CloneReport

variable {kind : String → Option EntryType} {first again : CloneReport} {path : String}

theorem Denies.mono (h : first.Denies kind path) (more : first.failures ⊆ again.failures) :
    again.Denies kind path := by
  obtain ⟨type, failure, message, known, refusal, mem⟩ := h
  exact ⟨type, failure, message, known, refusal, more mem⟩

namespace Redone

theorem start (outcome : StepResult) : Redone kind { outcome } { outcome } :=
  ⟨rfl, rfl, rfl, fun _ mem => absurd mem List.not_mem_nil⟩

variable (h : Redone kind first again)
include h

theorem addFailure (r r' : StepResult) : Redone kind (first.addFailure r) (again.addFailure r') where
  outcome := h.outcome
  skipped := h.skipped
  copied := h.copied
  denied := fun path mem =>
    (h.denied path mem).imp_right fun denies => denies.mono (List.subset_append_left _ _)

theorem addSkipped (path : String) : Redone kind (first.addSkipped path) (again.addSkipped path) where
  outcome := h.outcome
  skipped := congrArg (· ++ [path]) h.skipped
  copied := h.copied
  denied := h.denied

theorem addCopied (directory : kind path = some .directory) :
    Redone kind (first.addCopied path) (again.addCopied path) where
  outcome := h.outcome
  skipped := h.skipped
  copied := by
    change again.copied ++ [path] = (first.copied ++ [path]).filter _
    rw [List.filter_append, h.copied]
    simp [directory]
  denied := by
    intro p mem
    rcases List.mem_append.mp mem with mem | mem
    · exact h.denied p mem
    · exact .inl (List.mem_singleton.mp mem ▸ directory)

/-- What was copied once is denied the second time. -/
theorem deny {type : EntryType} {failure : FailureKind} (known : kind path = some type)
    (refusal : type.refusal = some failure) (message : String) :
    Redone kind (first.addCopied path) (again.addFailure (.failure failure path message)) where
  outcome := h.outcome
  skipped := h.skipped
  copied := by
    change again.copied = (first.copied ++ [path]).filter _
    have other : type ≠ .directory := fun same => by subst same; cases refusal
    rw [List.filter_append, h.copied]
    simp [known, other]
  denied := by
    intro p mem
    rcases List.mem_append.mp mem with mem | mem
    · exact (h.denied p mem).imp_right fun denies => denies.mono (List.subset_append_left _ _)
    · rw [List.mem_singleton.mp mem]
      exact .inr ⟨type, failure, message, known, refusal, List.mem_append_right _ List.mem_cons_self⟩

theorem absorb {inner inner' : CloneReport} (below : Redone kind inner inner') :
    Redone kind (first.absorb inner) (again.absorb inner') where
  outcome := h.outcome
  skipped := by
    change again.skipped ++ inner'.skipped = first.skipped ++ inner.skipped
    rw [h.skipped, below.skipped]
  copied := by
    change again.copied ++ inner'.copied = (first.copied ++ inner.copied).filter _
    rw [List.filter_append, h.copied, below.copied]
  denied := by
    intro p mem
    have own : again.failures ⊆ (again.absorb inner').failures :=
      fun r mem => List.mem_append_left _ (List.mem_append_left _ mem)
    have inherited : inner'.failures ⊆ (again.absorb inner').failures :=
      fun r mem => List.mem_append_left _ (List.mem_append_right _ mem)
    rcases List.mem_append.mp mem with mem | mem
    · exact (h.denied p mem).imp_right fun denies => denies.mono own
    · exact (below.denied p mem).imp_right fun denies => denies.mono inherited

/-- A copy is shown again if it is a directory, and denied if it is not. -/
theorem copied_or_denied (mem : path ∈ first.copied) :
    (kind path = some .directory ∧ path ∈ again.copied) ∨
      again.Denies kind path ∧ path ∉ again.copied := by
  rw [h.copied]
  refine (h.denied path mem).imp (fun directory => ?_) fun denies => ⟨denies, fun bad => ?_⟩
  · exact ⟨directory, List.mem_filter.mpr ⟨mem, decide_eq_true directory⟩⟩
  · obtain ⟨type, _, _, known, refusal, _⟩ := denies
    cases known.symm.trans (of_decide_eq_true (List.mem_filter.mp bad).2)
    cases refusal

end Redone

end CloneReport

namespace Program

open CloneReport

variable {α β : Type} {start m m' f : Machine} {origin home : Option Nat}
  {directory name source dest path : String}

/-! ## What lasts in a run -/

/-- What calls keep is true in front of every call of a program, and after it. -/
theorem Meets.always {p : Program α} {kept : Machine → Prop}
    (lasts : ∀ m m', Since m m' → kept m → kept m') (h : kept m) :
    p.Meets Untroubled (fun _ => kept) (fun _ => kept) m := by
  induction p generalizing m with
  | done a => exact h
  | raise e => exact h
  | call c next ih => exact ⟨h, fun r m' step => ih r (lasts m m' step.since h)⟩

theorem Meets.lasting {p : Program α} {kept : Machine → Prop}
    (lasts : ∀ m m', Since m m' → kept m → kept m') (h : kept m) :
    p.Meets Untroubled (fun _ _ => True) (fun _ => kept) m :=
  (Meets.always lasts h).guarded fun _ _ _ => trivial

theorem Meets.later {p : Program α} {post : Except Fault α → Machine → Prop}
    (h : p.Meets Untroubled (fun _ _ => True) post m) :
    p.Meets Untroubled (fun _ _ => True) (fun out m' => post out m' ∧ Since m m') m :=
  h.along (fun _ _ _ _ step since => since.trans step.since) (.refl m)

/-- What may happen while a clone fills its destination on an untroubled machine. -/
abbrev Cloning (start : Machine) (home : Option Nat) : Rule Machine :=
  fun c m r m' => Filled start home m ∧ Untroubled c m r m'

theorem Meets.since {p : Program α} {post : Except Fault α → Machine → Prop}
    (h : p.Meets (Cloning start home) (fun _ _ => True) post m) :
    p.Meets (Cloning start home) (fun _ _ => True) (fun out m' => post out m' ∧ Since m m') m :=
  h.along (fun _ _ _ _ step since => since.trans step.2.since) (.refl m)

theorem Meets.cloning {p : Program α} {post : Except Fault α → Machine → Prop}
    (h : p.Meets Untroubled (fun _ _ => True) post m) :
    p.Meets (Cloning start home) (fun _ _ => True) post m :=
  h.of_guarded fun _ _ _ _ _ step => step.2

/-! ## Files and links -/

/-- Whether no file can be made at a path any more, and there is one if a result says so. -/
def FileTried (directory name : String) (result : StepResult) (m : Machine) : Prop :=
  m.Tried (Path.join directory name) ∧
    (result.success = true → m.Taken directory name .regularFile)

theorem FileTried.since {result : StepResult} (h : FileTried directory name result m)
    (later : Since m f) : FileTried directory name result f :=
  ⟨fun f' since => h.1 f' (later.trans since), fun good => (h.2 good).since later⟩

/-- Whether a link to a target can not be placed at a path any more, and there is one if a result
says so. -/
def LinkTried (target directory name : String) (result : StepResult) (m : Machine) : Prop :=
  (∀ f, Since m f → ∃ e, f.symlink target (Path.join directory name) = .error (.system e)) ∧
    (result.success = true → m.Taken directory name .symlink)

section

variable (full : directory ≠ "") (own : Path.IsName name)
  (named : m.tree.Named) (stands : m.Stands directory)
include full own named stands

theorem openExclusive_tried :
    (openExclusive (Path.join directory name)).Meets Untroubled (fun _ _ => True)
      (fun out m' => (∀ number, out = .ok number → m'.Taken directory name .regularFile) ∧
        ∀ e, out = .error (.system e) → m'.Tried (Path.join directory name)) m := by
  have outcome := Machine.openExclusive_tried full own named stands freshFileMode
  refine untroubled_call rfl (untroubled_answered (fun number m' done => ?_) fun g failed => ?_)
  · exact ⟨fun _ _ => outcome.1 number m' done, fun _ bad => by cases bad⟩
  · exact ⟨fun _ bad => (by cases bad), fun e same => (by cases same; exact outcome.2 e failed)⟩

/-- After a file was copied its path is taken, or nothing can be made there. -/
theorem copyFile_tried {i : Nat} {n : Node} (found : m.find true source = .ok (i, n))
    (file : n.body ≠ .pipe) (c : Cloner) (mode : Int) :
    (copyFile c source (Path.join directory name) mode).Meets Untroubled (fun _ _ => True)
      (fun out m' => ∀ result, out = .ok result → FileTried directory name result m') m := by
  refine (openRead_leaves found file m (.refl m)).either (fun reading m₁ reached => ?_) ?_
  · have tried := openExclusive_tried full own (reached.1.tree ▸ named)
      (stands.since reached.1.since)
    refine Meets.ensuring_lasting (tried.either (fun writing m₂ made => ?_) fun e m₂ made => ?_)
      fun out m' made => ?_
    · refine (Meets.lasting (fun _ _ later kept => Taken.since kept later)
        (made.1 writing rfl)).mono fun _ _ taken _ _ => ⟨taken.tried full own, fun _ => taken⟩
    · refine (Leaves.log _ _ _).ahead fun m₃ still result same => ?_
      cases same
      exact ⟨fun f later => made.2 e rfl f (still.since.trans later), fun bad => by cases bad⟩
    · exact Meets.lasting (fun m m' later kept result same => (kept result same).since later) made
  · rintro e m' ⟨_, _, bad⟩
    cases bad

theorem symlink_tried (text : checkText (Path.join directory name) = .ok ()) (target : String) :
    (symlink target (Path.join directory name)).Meets Untroubled (fun _ _ => True)
      (fun out m' => (out = .ok () → checkText target = .ok () ∧ m'.Taken directory name .symlink) ∧
        ∀ e, out = .error (.system e) → ∀ f, Since m' f →
          ∃ e, f.symlink target (Path.join directory name) = .error (.system e)) m := by
  have outcome := Machine.symlink_tried full own named stands target
  refine untroubled_call rfl (untroubled_changed (fun m' done => ?_) fun g failed => ?_)
  · refine ⟨fun _ => ⟨text_of_symlink (m := m) (Path.join directory name) ?_,
      outcome.1 m' done⟩, fun _ bad => by cases bad⟩
    exact fun e failed => by rw [done] at failed; cases failed
  · refine ⟨fun bad => (by cases bad), fun e same f later => ?_⟩
    cases same
    refine symlink_refused ((outcome.2 e failed).imp_left fun tried => tried f later) text ?_
    refine text_of_symlink (m := m) (Path.join directory name) fun e' failed' => ?_
    cases failed.symm.trans failed'
    exact ⟨e, rfl⟩

/-- After a link was placed its path is taken, or it cannot be placed there. -/
theorem placeLink_tried (text : checkText (Path.join directory name) = .ok ()) (c : Cloner)
    (target : String) :
    (placeLink c target (Path.join directory name)).Meets Untroubled (fun _ _ => True)
      (fun out m' => ∀ result, out = .ok result → LinkTried target directory name result m') m := by
  refine (symlink_tried full own named stands text target).either (fun _ m' made => ?_)
    fun e m' made => ?_
  · obtain ⟨textOfTarget, taken⟩ := made.1 rfl
    refine (Meets.lasting (fun _ _ later kept => Taken.since kept later) taken).mono
      fun _ m'' taken _ _ => ⟨fun f later => ?_, fun _ => taken⟩
    exact symlink_refused (.inl ((taken.since later).refuses full own)) text textOfTarget
  · refine (Leaves.log _ _ _).ahead fun m₃ still result same => ?_
    cases same
    exact ⟨fun f later => made.2 e rfl f (still.since.trans later), fun bad => by cases bad⟩

end

end Program

end HomeProvision
