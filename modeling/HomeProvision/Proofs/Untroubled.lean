import HomeProvision.Proofs.Lasting
import HomeProvision.Proofs.Places

/-!
# Runs that change nothing

An untroubled machine answers every call, and neither the hook nor the privilege controller fails or
changes a file. `p.Leaves f good` says of a program that from every untroubled machine with the tree
of `f` it runs to a good end and leaves the tree as it is.

The parts of copying an entry leave the tree where nothing can be made at the destination, and their
result says so.
-/

namespace HomeProvision

namespace Machine

/-- What may happen on an untroubled machine. -/
def Untroubled : Rule Machine :=
  fun c m r m' => Disturbed (fun _ => True) c m r m' ∧ (c.isForeign = true → c.fault? r = none)

/-- Whether a machine has the tree of another one, and is in the same directory. -/
structure SameTree (m m' : Machine) : Prop where
  tree : m'.tree = m.tree
  current : m'.current = m.current

variable {m m' f : Machine} {path : String} {follow : Bool}

theorem layer_untroubled : layer.KeepsTo Untroubled id :=
  fun c m => ⟨.answered c m, fun foreign => by cases c <;> first | rfl | cases foreign⟩

theorem Untroubled.answer {c : Call} {r : c.Reply} (step : Untroubled c m r m')
    (own : c.isForeign = false) : r = (m.reply c).1 ∧ m' = (m.reply c).2 := by
  obtain ⟨step, _⟩ := step
  cases step with
  | answered => exact ⟨rfl, rfl⟩
  | failed _ exposed => exact absurd trivial exposed
  | foreign _ foreign => rw [own] at foreign; cases foreign

theorem Untroubled.since {c : Call} {r : c.Reply} (step : Untroubled c m r m') : Since m m' :=
  .of_disturbed step.1

namespace SameTree

theorem refl (m : Machine) : SameTree m m :=
  ⟨rfl, rfl⟩

theorem trans {m'' : Machine} (h : SameTree m m') (h' : SameTree m' m'') : SameTree m m'' :=
  ⟨h'.tree.trans h.tree, h'.current.trans h.current⟩

variable (h : SameTree f m)
include h

theorem symm : SameTree m f :=
  ⟨h.tree.symm, h.current.symm⟩

theorem since : Since f m :=
  .of_sameTree h.tree h.current

theorem find : m.find follow path = f.find follow path := by
  unfold Machine.find Machine.resolve
  rw [h.tree, h.current]

theorem statusOf : m.statusOf follow path = f.statusOf follow path := by
  rw [statusOf_eq, statusOf_eq, h.find]

theorem targetOf : m.targetOf path = f.targetOf path := by
  rw [targetOf_eq, targetOf_eq, h.find]

theorem namesOf : m.namesOf path = f.namesOf path := by
  unfold Machine.namesOf
  rw [h.find]

theorem kindAt : m.kindAt = f.kindAt := by
  funext path
  unfold Machine.kindAt
  rw [h.find]

theorem homeAt : Program.homeAt m = Program.homeAt f := by
  funext path
  unfold Program.homeAt
  rw [h.tree, h.current]

theorem refuses (refuses : f.Refuses path) : m.Refuses path := by
  intro names check bits body
  obtain ⟨e, failed⟩ := refuses names check bits body
  unfold createAt at failed ⊢
  rw [h.tree, h.current]
  refine ⟨e, ?_⟩
  rcases bind_eq_error.mp failed with failed | ⟨s, spot, failed⟩
  · exact bind_eq_error.mpr (.inl failed)
  refine bind_eq_error.mpr (.inr ⟨s, spot, ?_⟩)
  rcases bind_eq_error.mp failed with failed | ⟨a, checked, failed⟩
  · exact bind_eq_error.mpr (.inl failed)
  refine bind_eq_error.mpr (.inr ⟨a, checked, ?_⟩)
  rcases bind_eq_error.mp failed with failed | ⟨_, _, bad⟩
  · exact bind_eq_error.mpr (.inl failed)
  · cases bad

end SameTree

end Machine

namespace Program

open Machine

variable {α β : Type} {m f : Machine} {path source : String} {good : Except Fault α → Prop}

/-- Whether a program, run on an untroubled machine with a given tree, leaves the tree as it is and
comes to a good end. -/
def Leaves (f : Machine) (good : Except Fault α → Prop) (p : Program α) : Prop :=
  ∀ m, SameTree f m → p.Meets Untroubled (fun _ _ => True) (fun out m' => SameTree f m' ∧ good out) m

namespace Leaves

theorem done {a : α} (h : good (.ok a)) : (Program.done a).Leaves f good :=
  fun _ same => ⟨same, h⟩

theorem raise {e : Fault} (h : good (.error e)) : (Program.raise e).Leaves f good :=
  fun _ same => ⟨same, h⟩

theorem mono {p : Program α} {good' : Except Fault α → Prop} (h : p.Leaves f good)
    (weaker : ∀ out, good out → good' out) : p.Leaves f good' :=
  fun m same => (h m same).mono fun out _ reached => ⟨reached.1, weaker out reached.2⟩

theorem bind {p : Program α} {k : α → Program β} {mid : Except Fault α → Prop}
    {good : Except Fault β → Prop} (first : p.Leaves f mid)
    (onward : ∀ a, mid (.ok a) → (k a).Leaves f good)
    (failed : ∀ e, mid (.error e) → good (.error e)) : (p.bind k).Leaves f good :=
  fun m same => (first m same).bind (fun a m' reached => onward a reached.2 m' reached.1)
    fun e _ reached => ⟨reached.1, failed e reached.2⟩

/-- A program that comes to a result, and then another. -/
theorem onward {p : Program α} {k : α → Program β} {mid : Except Fault α → Prop}
    {good : Except Fault β → Prop} (first : p.Leaves f mid)
    (onward : ∀ out, mid out → ∃ a, out = .ok a ∧ (k a).Leaves f good) :
    (p.bind k).Leaves f good := by
  refine first.bind (fun a known => ?_) fun e known => ?_
  · obtain ⟨_, same, leaves⟩ := onward _ known
    cases same
    exact leaves
  · obtain ⟨_, bad, _⟩ := onward _ known
    cases bad

/-- A program with a known result, and then another. -/
theorem surely {p : Program α} {k : α → Program β} {good : Except Fault β → Prop} {a : α}
    (first : p.Leaves f (· = .ok a)) (onward : (k a).Leaves f good) : (p.bind k).Leaves f good :=
  first.onward fun _ same => ⟨a, same, onward⟩

/-- A program with a known result in front of another one. -/
theorem ahead {p : Program α} {k : α → Program β} {post : Except Fault β → Machine → Prop} {a : α}
    (first : p.Leaves m (· = .ok a))
    (onward : ∀ m', SameTree m m' → (k a).Meets Untroubled (fun _ _ => True) post m') :
    (p.bind k).Meets Untroubled (fun _ _ => True) post m :=
  ((first m (.refl m)).mono fun _ _ => And.symm).surely onward

/-- An attempt at a program with a known result. -/
theorem attempted {p : Program α} {k : Except SystemError α → Program β}
    {good : Except Fault β → Prop} {a : α} (first : p.Leaves f (· = .ok a))
    (onward : (k (.ok a)).Leaves f good) : ((attempt p).bind k).Leaves f good :=
  fun m same => ((first m same).mono fun _ _ => And.symm).attempted onward

theorem attempt {p : Program α} {out : Except Fault α} (h : p.Leaves f (· = out)) :
    (Program.attempt p).Leaves f (· = Program.attempted out) := by
  intro m same
  refine meets_attempt.mpr ((h m same).mono ?_)
  rintro _ _ ⟨same, rfl⟩
  exact ⟨same, rfl⟩

/-- An attempt that fails with an error of the system. -/
theorem caught {p : Program α} {k : Except SystemError α → Program β}
    {good : Except Fault β → Prop} (first : p.Leaves f fun out => ∃ e, out = .error (.system e))
    (onward : ∀ e, (k (.error e)).Leaves f good) : ((Program.attempt p).bind k).Leaves f good :=
  fun m same => Meets.attempt (first m same) (fun _ _ bad => by obtain ⟨_, _, bad⟩ := bad; cases bad)
    (fun e m' reached => onward e m' reached.1) fun _ _ other bad => by
      obtain ⟨_, e, same⟩ := bad
      cases same
      exact absurd rfl (other e)

theorem ensuring {body : Program α} {cleanup : Program Unit} (first : body.Leaves f good)
    (clean : cleanup.Leaves f (· = .ok ())) : (Program.ensuring body cleanup).Leaves f good :=
  fun m same => Meets.ensuring (first m same) fun _ m' reached =>
    (clean m' reached.1).mono fun _ _ cleaned => by
      obtain ⟨same, rfl⟩ := cleaned
      exact ⟨same, reached.2⟩

/-! ## Calls -/

/-- A call that leaves the tree. -/
theorem call {c : Call} {next : c.Reply → Program α} (own : c.isForeign = false)
    (still : c.changesTree = false)
    (onward : ∀ m, SameTree f m → (next (m.reply c).1).Leaves f good) :
    (Program.call c next).Leaves f good := by
  refine fun m same => ⟨trivial, fun r m' step => ?_⟩
  obtain ⟨tree, current⟩ := sameTree_of_disturbed step.1 still
  obtain ⟨rfl, _⟩ := step.answer own
  exact onward m same m' (same.trans ⟨tree, current⟩)

theorem ofExcept {r : Except Fault α} (h : good r) : (Program.ofExcept r).Leaves f good := by
  cases r with
  | ok a => exact .done h
  | error e => exact .raise h

theorem stat (path : String) : (Program.stat path).Leaves f (· = f.statusOf true path) :=
  .call rfl rfl fun _ same => .ofExcept same.statusOf

theorem lstat (path : String) : (Program.lstat path).Leaves f (· = f.statusOf false path) :=
  .call rfl rfl fun _ same => .ofExcept same.statusOf

theorem readlink (path : String) : (Program.readlink path).Leaves f (· = f.targetOf path) :=
  .call rfl rfl fun _ same => .ofExcept same.targetOf

theorem list (path : String) : (Program.list path).Leaves f (· = f.namesOf path) :=
  .call rfl rfl fun _ same => .ofExcept same.namesOf

theorem log (level : Level) (event : String) (details : List (String × Detail)) :
    (Program.log level event details).Leaves f (· = .ok ()) :=
  .call rfl rfl fun _ _ => .done rfl

theorem umask (mask : Int) : (Program.umask mask).Leaves f fun _ => True :=
  .call rfl rfl fun _ _ => .ofExcept trivial

/-- A call that a caller's code answers comes back well. -/
theorem foreign {c : Call} {next : c.Reply → Program α} (foreign : c.isForeign = true)
    (onward : ∀ r, c.fault? r = none → (next r).Leaves f good) :
    (Program.call c next).Leaves f good := by
  have still : c.changesTree = false := by cases c <;> first | rfl | cases foreign
  refine fun m same => ⟨trivial, fun r m' step => ?_⟩
  obtain ⟨tree, current⟩ := sameTree_of_disturbed step.1 still
  exact onward r (step.2 foreign) m' (same.trans ⟨tree, current⟩)

theorem ofExcept_of_fault {r : Except Fault Unit} (well : faultOf r = none) :
    (Program.ofExcept r).Leaves f (· = .ok ()) := by
  cases r with
  | ok _ => exact .done rfl
  | error e => cases well

theorem pause : Program.pause.Leaves f (· = .ok ()) :=
  .foreign rfl fun _ => .ofExcept_of_fault

theorem elevate : (Program.call .elevate Program.ofExcept).Leaves f (· = .ok ()) :=
  .foreign rfl fun _ => .ofExcept_of_fault

theorem relinquish : (Program.call .relinquish Program.ofExcept).Leaves f (· = .ok ()) :=
  .foreign rfl fun _ => .ofExcept_of_fault

theorem closeQuietly (number : Int) (event path : String) :
    (Program.closeQuietly number event path).Leaves f (· = .ok ()) := by
  intro m same
  refine Meets.attempt (q := fun out m' => SameTree f m' ∧
      ∀ e, out = .error e → ∃ e', e = .system e') ?_ (fun _ _ reached => ⟨reached.1, rfl⟩)
    (fun e m' reached => (Leaves.log _ _ _).surely (.done rfl) m' reached.1)
    fun e _ other reached => ?_
  · refine Leaves.call (c := .close number) rfl rfl (fun m _ => .ofExcept ?_) m same
    exact changed_orderly (openFile_orderly.bind fun _ => .ok _)
  · obtain ⟨e', same⟩ := reached.2 e rfl
    exact absurd same (other e')

/-- A program whose calls are answered as on another machine has the same outcome there. -/
theorem of_replies {p : Program α} {among : Call → Prop}
    (makes : p.Makes (fun _ _ => True) among)
    (replies : ∀ c, among c → c.isForeign = false ∧ (m.reply c).2 = m ∧
      ∀ f', SameTree f f' → f'.reply c = ((m.reply c).1, f')) :
    p.Leaves f (· = (p.run layer m).1) := by
  intro f' same
  have made := makes () trivial
  clear makes
  induction p with
  | done a => exact ⟨same, rfl⟩
  | raise e => exact ⟨same, rfl⟩
  | call c next ih =>
    obtain ⟨own, still, answers⟩ := replies c made.1
    refine ⟨trivial, fun r f'' step => ?_⟩
    obtain ⟨rfl, rfl⟩ := step.answer own
    rw [answers f' same]
    have goes : ((Program.call c next).run layer m).1 =
        ((next (m.reply c).1).run layer m).1 := by
      change ((next (m.reply c).1).run layer (m.reply c).2).1 = _
      rw [still]
    rw [goes]
    exact ih _ (made.2 _ () trivial)

end Leaves

/-! ## The parts of copying an entry -/

section

variable {directory name : String} {kind : EntryType} {e : SystemError} {status : Status}

theorem isPlantedNonDirectory_leaves (failed : f.statusOf false path = .error (.system e)) :
    (isPlantedNonDirectory path).Leaves f (· = .ok false) :=
  ((Leaves.lstat path).mono fun _ same => ⟨e, same.trans failed⟩).caught fun _ => .done rfl

/-- What a directory names is planted unless it is a directory. -/
theorem isPlantedNonDirectory_leaves_taken (taken : f.Taken directory name kind)
    (full : directory ≠ "") (own : Path.IsName name)
    (text : checkText (Path.join directory name) = .ok ()) (regular : f.tree.Regular) :
    (isPlantedNonDirectory (Path.join directory name)).Leaves f
      (· = .ok (decide (kind ≠ .directory))) := by
  obtain ⟨i, n, found, here, type⟩ := taken.find full own text
  have looked : f.statusOf false (Path.join directory name) = .ok n.status := by
    rw [statusOf_eq, found]
    rfl
  have small := regular.mode i n here
  refine ((Leaves.lstat _).mono fun _ same => same.trans looked).attempted ?_
  change Leaves f _ ((ofRange (machineMode n.status.mode)).bind _)
  rw [Node.machineMode_status small]
  change Leaves f _ (if _ then _ else _)
  rw [Node.ofBits_status small, type]
  split
  · next directory => exact .done (by simp [directory])
  · next other => exact (Leaves.log _ _ _).surely (.done (by simp [other]))

theorem ensureDirectory_leaves (there : f.statusOf true path = .ok status) (uid gid mode : Int) :
    (ensureDirectory path uid gid mode).Leaves f (· = .ok (.ok (some path))) :=
  ((Leaves.stat path).mono fun _ same => same.trans there).attempted <|
    (Leaves.log _ _ _).surely (.done rfl)

theorem ensureDirectory_leaves_error (failed : f.statusOf true path = .error (.system e))
    (other : e.code? ≠ some .noEntry) (uid gid mode : Int) :
    (ensureDirectory path uid gid mode).Leaves f
      fun out => ∃ result, out = .ok result ∧ result.success = false := by
  intro m same
  refine Meets.attempt ((Leaves.stat path) m same) (fun _ _ bad => ?_) (fun e' m' reached => ?_)
    fun _ _ foreign bad => ?_
  · cases bad.2.trans failed
  · cases reached.2.trans failed
    dsimp only
    rw [if_neg other]
    refine Leaves.surely (Leaves.log _ _ _) ?_ m' reached.1
    exact .done ⟨_, rfl, rfl⟩
  · cases bad.2.trans failed
    exact absurd rfl (foreign e)

/-- What is found and is no pipe is opened. -/
theorem openRead_leaves {i : Nat} {n : Node} (found : f.find true source = .ok (i, n))
    (file : n.body ≠ .pipe) : (openRead source).Leaves f fun out => ∃ number, out = .ok number := by
  refine .call rfl rfl fun m same => .ofExcept ?_
  have opened : m.openRead source = .ok (m.opened source i) := by
    refine bind_eq_ok.mpr ⟨(i, n), same.find.trans found, ?_⟩
    dsimp only
    split
    · next pipe => exact absurd pipe file
    · rfl
  change ∃ number, (m.answered (m.openRead source)).1 = .ok number
  rw [opened]
  exact ⟨_, rfl⟩

/-- Where nothing can be made no file is copied. -/
theorem copyFile_leaves {i : Nat} {n : Node} (found : f.find true source = .ok (i, n))
    (file : n.body ≠ .pipe) (refuses : f.Refuses path) (text : checkText path = .ok ())
    (c : Cloner) (mode : Int) :
    (copyFile c source path mode).Leaves f
      fun out => ∃ message, out = .ok (.failure .openFile path message) := by
  have opens := openRead_leaves found file
  have creates : (openExclusive path).Leaves f fun out => ∃ e, out = .error (.system e) := by
    intro m same
    refine ⟨trivial, fun r m' step => ?_⟩
    obtain ⟨rfl, rfl⟩ := step.answer rfl
    have valid : checkModeArgument freshFileMode = .ok () := rfl
    obtain ⟨e, failed⟩ := (same.refuses refuses).openExclusive text valid
    have reply : m.reply (.openExclusive path freshFileMode) = (.error (.system e), m) := by
      change m.answered (m.openExclusive path freshFileMode) = _
      rw [failed]
      rfl
    rw [reply]
    exact ⟨same, e, rfl⟩
  intro m same
  refine Meets.attempt (opens m same) (fun reading m' reached => ?_) (fun _ _ bad => ?_)
    fun _ _ _ bad => ?_
  · refine Leaves.ensuring (creates.caught fun e => ?_) (Leaves.closeQuietly _ _ _) m' reached.1
    exact (Leaves.log _ _ _).surely (.done ⟨_, rfl⟩)
  · obtain ⟨_, _, bad⟩ := bad
    cases bad
  · obtain ⟨_, _, bad⟩ := bad
    cases bad

theorem placeLink_leaves {target : String}
    (refused : ∀ m, SameTree f m → ∃ e, m.symlink target path = .error (.system e)) (c : Cloner) :
    (placeLink c target path).Leaves f
      fun out => ∃ message, out = .ok (.failure .symlink path message) := by
  have places : (symlink target path).Leaves f fun out => ∃ e, out = .error (.system e) := by
    intro m same
    refine ⟨trivial, fun r m' step => ?_⟩
    obtain ⟨rfl, rfl⟩ := step.answer rfl
    obtain ⟨e, failed⟩ := refused m same
    have reply : m.reply (.symlink target path) = (.error (.system e), m) := by
      change m.changed (m.symlink target path) = _
      rw [failed]
      rfl
    rw [reply]
    exact ⟨same, e, rfl⟩
  exact places.caught fun e => (Leaves.log _ _ _).surely (.done ⟨_, rfl⟩)

end

/-! ## Looks at the skeleton -/

/-- What an entry shows that was described on a machine. -/
theorem described_ok {name : String} {entry : Entry}
    (done : ((describeEntry name path).run layer m).1 = .ok entry) :
    entry.path = path ∧ ∃ status bits, m.statusOf false path = .ok status ∧
      machineMode status.mode = .ok bits ∧ EntryType.ofBits bits = entry.type ∧
        status.identity = entry.identity := by
  change (((ofExcept (m.statusOf false path)).bind _).run layer m).1 = _ at done
  cases looked : m.statusOf false path with
  | error e => rw [looked] at done; cases done
  | ok status =>
    rw [looked] at done
    change (((ofRange (Entry.ofStatus name path status)).bind _).run layer m).1 = _ at done
    unfold Entry.ofStatus at done
    cases valid : machineMode status.mode with
    | error e => rw [valid] at done; cases done
    | ok bits =>
      rw [valid] at done
      change (Program.run layer (if _ then _ else _) m).1 = _ at done
      split at done
      · rw [bind_eq, run_bind] at done
        split at done
        · next target _ _ =>
          cases target <;> cases done <;> exact ⟨rfl, status, bits, rfl, valid, rfl, rfl⟩
        · cases done
      · cases done
        exact ⟨rfl, status, bits, rfl, valid, rfl, rfl⟩

end Program

end HomeProvision
