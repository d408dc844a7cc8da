import HomeProvision.Proofs.Evolution
import HomeProvision.Proofs.Orderly
import HomeProvision.Proofs.Requests
import HomeProvision.Proofs.Watched
import Mathlib.Data.List.Nodup

/-!
# No directory is copied twice

A file tree may have cycles, and directories with several names. Still, in one clone no directory is
listed twice, and the destination is not entered as a part of the skeleton, whatever calls fail and
whatever the cloner was used for before (`KeptCloner.clone_lists_once`).

An entry is compared with the directories entered so far by the identity that a look at it showed.
What is kept as entered is the identity that a second look showed, at the directory itself and after
other calls. The two agree because no call takes a directory away from its path (`Evolves`).
-/

namespace HomeProvision

namespace Machine

/-- What may happen on an unreliable machine: a call may fail for no reason, with its effect or
without. The hook and the privilege controller may do anything but change files. -/
inductive Unreliable : (c : Call) → Machine → c.Reply → Machine → Prop
  | answered (c : Call) (m : Machine) : Unreliable c m (m.reply c).1 (m.reply c).2
  | failed {c : Call} {r : c.Reply} (m : Machine) (fails : (c.fault? r).isSome = true) :
      Unreliable c m r m
  | failedLate {c : Call} {r : c.Reply} (m : Machine) (fails : (c.fault? r).isSome = true) :
      Unreliable c m r (m.reply c).2
  | foreign {c : Call} {m m' : Machine} (r : c.Reply) (foreign : c.isForeign = true)
      (same : SameFiles m m') : Unreliable c m r m'

theorem Unreliable.evolves {c : Call} {m m' : Machine} {r : c.Reply}
    (step : Unreliable c m r m') : Evolves m m' := by
  cases step with
  | answered => exact reply_evolves c m
  | failed => exact .refl m
  | failedLate => exact reply_evolves c m
  | foreign _ _ same => exact .of_sameTree same.tree same.current

/-- The identity of the directory that a call is to list. -/
def target? (x : Moment Machine) : Option Identity :=
  match x.call with
  | .list path => x.state.identityAt path
  | _ => none

/-- The identity of a directory that is listed. -/
def listed? (x : Moment Machine) : Option Identity :=
  match x.toExchange.listing? with
  | some (path, _) => x.state.identityAt path
  | none => none

/-- A note on the listings of a run, the last one first. -/
def noteListing (listings : List (Moment Machine)) (x : Moment Machine) : List (Moment Machine) :=
  if x.call.isListing then x :: listings else listings

end Machine

namespace Program

open Machine

variable {α : Type}

/-- What may happen on an unreliable machine while its listings are noted. -/
abbrev Noting : Rule (Machine × List (Moment Machine)) :=
  Rule.watched Unreliable (fun _ _ => True) noteListing

/-- Every call may be made. -/
def anyCall (_ : Call) (_ : Machine × List (Moment Machine)) : Prop :=
  True

/-! ## What is known of the listings -/

/-- Whether no directory was listed twice, all that were are known as entered, and only the first
listing may have been one of the destination. -/
structure Entering (destRoot : Option Identity) (entered : List Identity)
    (s : Machine × List (Moment Machine)) : Prop where
  regular : s.1.tree.Regular
  once : (s.2.filterMap listed?).Nodup
  known : ∀ id ∈ s.2.filterMap listed?, id ∈ entered
  spared : ∀ id, destRoot = some id → ∀ x ∈ s.2.dropLast, target? x ≠ some id

/-- What holds at the end of a walk, the directories it has entered being part of its result. -/
def Entered (destRoot : Option Identity) (out : Except Fault WalkState)
    (s : Machine × List (Moment Machine)) : Prop :=
  ∃ entered, Entering destRoot entered s ∧ ∀ state, out = .ok state → state.2 = entered

/-- Whether a path leads to a directory that may be entered: it was not entered yet, and if any was,
it is not the destination. -/
def MayEnter (destRoot : Option Identity) (entered : List Identity) (path : String)
    (s : Machine × List (Moment Machine)) : Prop :=
  ∀ id, s.1.identityAt path = some id → id ∉ entered ∧ (s.2 ≠ [] → destRoot ≠ some id)

/-- What calls do that list nothing. -/
def Later (s s' : Machine × List (Moment Machine)) : Prop :=
  Evolves s.1 s'.1 ∧ s'.2 = s.2

variable {destRoot : Option Identity} {entered : List Identity} {path : String}
  {s s' s'' : Machine × List (Moment Machine)}

theorem Later.refl (s : Machine × List (Moment Machine)) : Later s s :=
  ⟨.refl s.1, rfl⟩

theorem Later.trans (h : Later s s') (h' : Later s' s'') : Later s s'' :=
  ⟨h.1.trans h'.1, h'.2.trans h.2⟩

theorem Entering.later (h : Entering destRoot entered s) (later : Later s s') :
    Entering destRoot entered s' where
  regular := later.1.regular h.regular
  once := later.2 ▸ h.once
  known := later.2 ▸ h.known
  spared := later.2 ▸ h.spared

theorem Later.of_step {c : Call} {r : c.Reply} (step : Noting c s r s')
    (other : c.isListing = false) : Later s s' := by
  refine ⟨step.1.1.evolves, step.2.trans ?_⟩
  unfold noteListing
  rw [if_neg (by rw [other]; decide)]

/-- The parts of copying an entry list nothing. -/
theorem laterParts (s : Machine × List (Moment Machine)) : EntryParts Noting anyCall (Later s) :=
  .of_calls fun _ _ _ other before =>
    ⟨trivial, fun _ _ step => before.trans (.of_step step other)⟩

/-- A call that only looks changes nothing. -/
theorem same_of_step {c : Call} {r : c.Reply} (step : Noting c s r s') (own : c.isForeign = false)
    (looks : ∀ m : Machine, (m.reply c).2 = m) : s'.1 = s.1 := by
  have moves := step.1.1
  generalize s.1 = m at moves
  generalize s'.1 = m' at moves
  cases moves with
  | answered => exact looks m
  | failed => rfl
  | failedLate => exact looks m
  | foreign _ foreign => rw [own] at foreign; cases foreign

/-- A reply without a fault is the answer of the machine. -/
theorem answer_of_step {c : Call} {r : c.Reply} (step : Noting c s r s')
    (own : c.isForeign = false) (good : c.fault? r = none) : r = (s.1.reply c).1 := by
  have moves := step.1.1
  generalize s.1 = m at moves
  generalize s'.1 = m' at moves
  cases moves with
  | answered => rfl
  | failed _ fails => rw [good] at fails; cases fails
  | failedLate _ fails => rw [good] at fails; cases fails
  | foreign _ foreign => rw [own] at foreign; cases foreign

/-- The listing of a directory that may be entered. It is known as entered if it goes well. -/
theorem Entering.list {id : Identity} {r : (Call.list path).Reply}
    (h : Entering destRoot entered s) (may : MayEnter destRoot entered path s)
    (here : s.1.identityAt path = some id) (step : Noting (.list path) s r s') :
    match r with
    | .ok _ => Entering destRoot (id :: entered) s'
    | .error _ => Entering destRoot entered s' := by
  have machine : s'.1 = s.1 := same_of_step step rfl fun _ => rfl
  have noted : s'.2 = ⟨⟨.list path, r⟩, s.1⟩ :: s.2 := step.2
  obtain ⟨new, other⟩ := may id here
  have spared : ∀ d, destRoot = some d → ∀ x ∈ s'.2.dropLast, target? x ≠ some d := by
    intro d root x mem same
    rw [noted] at mem
    cases before : s.2 with
    | nil => rw [before] at mem; cases mem
    | cons last rest =>
      rw [before, List.dropLast_cons_of_ne_nil (List.cons_ne_nil last rest)] at mem
      rcases List.mem_cons.mp mem with rfl | mem
      · change s.1.identityAt path = some d at same
        rw [here] at same
        exact other (by rw [before]; simp) (root.trans same.symm)
      · exact h.spared d root x (before ▸ mem) same
  cases r with
  | error f =>
    have silent : s'.2.filterMap listed? = s.2.filterMap listed? := by
      rw [noted]
      rfl
    exact ⟨machine ▸ h.regular, silent ▸ h.once, silent ▸ h.known, spared⟩
  | ok names =>
    have counted : s'.2.filterMap listed? = id :: s.2.filterMap listed? := by
      have own : listed? ⟨⟨.list path, .ok names⟩, s.1⟩ = some id := here
      rw [noted, List.filterMap_cons_some own]
    refine ⟨machine ▸ h.regular, ?_, ?_, spared⟩
    · rw [counted]
      exact List.nodup_cons.mpr ⟨fun again => new (h.known id again), h.once⟩
    · rw [counted]
      exact List.forall_mem_cons.mpr ⟨List.mem_cons_self,
        fun i mem => List.mem_cons_of_mem _ (h.known i mem)⟩

/-! ## The walk -/

/-- What is described as a directory is what its path leads to. -/
theorem describeEntry_identifies (regular : s.1.tree.Regular) (name : String) :
    (describeEntry name path).Meets Noting anyCall (fun out s' => Later s s' ∧
      ∀ entry, out = .ok entry → entry.path = path ∧
        (entry.type = .directory → s'.1.identityAt path = some entry.identity)) s := by
  refine ⟨trivial, fun look s₁ step => ?_⟩
  have later : Later s s₁ := .of_step step rfl
  cases look with
  | error f => exact ⟨later, fun _ bad => by cases bad⟩
  | ok status =>
    have looked : s.1.statusOf false path = .ok status := (answer_of_step step rfl rfl).symm
    change ((ofRange (Entry.ofStatus name path status)).bind _).Meets _ _ _ _
    unfold Entry.ofStatus
    cases valid : machineMode status.mode with
    | error e => exact ⟨later, fun _ bad => by cases bad⟩
    | ok mode =>
      have identified : ∀ s', Later s s' → EntryType.ofBits mode = .directory →
          s'.1.identityAt path = some status.identity := fun s' later directory =>
        later.1.identityAt (identityAt_of_lstat regular looked valid directory)
      change Meets _ _ (if _ then _ else _) _ _
      split
      · refine Meets.attempt ((laterParts s).readlink path s₁ later) ?_ ?_ ?_
        · exact fun target s₂ later => ⟨later, fun entry same => by
            cases same; exact ⟨rfl, identified s₂ later⟩⟩
        · exact fun e s₂ later => ⟨later, fun entry same => by
            cases same; exact ⟨rfl, identified s₂ later⟩⟩
        · exact fun f s₂ _ later => ⟨later, fun _ bad => by cases bad⟩
      · exact ⟨later, fun entry same => by cases same; exact ⟨rfl, identified s₁ later⟩⟩

/-- A part of copying an entry, after which the directories entered are the same. -/
theorem Entering.keeps {p : Program α} (h : Entering destRoot entered s)
    (part : ∀ s₀, p.Keeps Noting anyCall (Later s₀)) :
    p.Meets Noting anyCall (fun _ s' => Entering destRoot entered s') s :=
  (part s s (.refl s)).mono fun _ _ later => h.later later

/-- A part of copying an entry, and what is noted about its result. -/
theorem Entering.records {p : Program α} {report : α → CloneReport}
    (h : Entering destRoot entered s) (part : ∀ s₀, p.Keeps Noting anyCall (Later s₀)) :
    (p.bind fun a => done (report a, entered)).Meets Noting anyCall (Entered destRoot) s :=
  (h.keeps part).bind (fun _ _ h => ⟨entered, h, fun _ same => by cases same; rfl⟩)
    fun _ _ h => ⟨entered, h, fun _ bad => by cases bad⟩

section

variable {w : Walk} {descend : String → String → List Identity → Program WalkState}
  (below : ∀ source dest entered s, Entering w.destRoot entered s →
    MayEnter w.destRoot entered source s →
      (descend source dest entered).Meets Noting anyCall (Entered w.destRoot) s)
include below

theorem cloneSubdirectory_enters (state : WalkState) (h : Entering w.destRoot state.2 s)
    {entry : Entry} (here : s.1.identityAt entry.path = some entry.identity) (dest : String) :
    (cloneSubdirectory w descend entry dest state).Meets Noting anyCall (Entered w.destRoot) s := by
  obtain ⟨report, entered⟩ := state
  have parts := laterParts
  unfold cloneSubdirectory
  dsimp only
  split
  · exact h.records fun s₀ => (parts s₀).note _ _ _
  · next other =>
    obtain ⟨new, notDest⟩ : entry.identity ∉ entered ∧ w.destRoot ≠ some entry.identity := by
      simpa using other
    refine ((parts s).isPlantedNonDirectory dest s (.refl s)).bind (fun planted s₁ later => ?_)
      fun f s₁ later => ⟨entered, h.later later, fun _ bad => by cases bad⟩
    split
    · exact ⟨entered, h.later later, fun _ same => by cases same; rfl⟩
    · refine ((parts s).directory dest _ _ _ s₁ later).bind (fun created s₂ later => ?_)
        fun f s₂ later => ⟨entered, h.later later, fun _ bad => by cases bad⟩
      split
      · exact ⟨entered, h.later later, fun _ same => by cases same; rfl⟩
      · -- the directory is still at its path, with the identity that was compared
        have may : MayEnter w.destRoot entered entry.path s₂ := by
          intro id found
          rw [later.1.identityAt here] at found
          cases found
          exact ⟨new, fun _ => notDest⟩
        refine (below entry.path dest entered s₂ (h.later later) may).bind
          (fun inner s₃ reached => ?_) fun f s₃ reached => ?_
        · obtain ⟨entered', h', same⟩ := reached
          exact ⟨entered', h', fun _ done => by cases done; exact same inner rfl⟩
        · obtain ⟨entered', h', _⟩ := reached
          exact ⟨entered', h', fun _ bad => by cases bad⟩

theorem cloneEntry_enters {state : WalkState} (h : Entering w.destRoot state.2 s)
    (name source dest : String) :
    (cloneEntry w descend name source dest state).Meets Noting anyCall (Entered w.destRoot) s := by
  obtain ⟨report, entered⟩ := state
  have parts := laterParts
  refine Meets.attempt (describeEntry_identifies h.regular name) ?_ ?_ ?_
  · rintro entry s₁ ⟨later, described⟩
    obtain ⟨rfl, identified⟩ := described entry rfl
    have h := h.later later
    dsimp only
    split
    · next type =>
      exact cloneSubdirectory_enters below (report, entered) h (identified type) dest
    · exact h.records fun s₀ => (parts s₀).file _ _ _ _
    · exact h.records fun s₀ => (parts s₀).copySymlink _ _ _ _ _ _
    · exact h.records fun s₀ => (parts s₀).note _ _ _
  · rintro e s₁ ⟨later, _⟩
    exact (h.later later).records fun s₀ => (parts s₀).note _ _ _
  · rintro f s₁ _ ⟨later, _⟩
    exact ⟨entered, h.later later, fun _ bad => by cases bad⟩

theorem cloneNames_enters (source dest : String) (names : List String) {state : WalkState}
    (h : Entering w.destRoot state.2 s) :
    (cloneNames w descend source dest names state).Meets Noting anyCall (Entered w.destRoot) s := by
  induction names generalizing state s with
  | nil => exact ⟨state.2, h, fun _ same => by cases same; rfl⟩
  | cons name rest ih =>
    refine (h.keeps fun s₀ => (laterParts s₀).pause).bind (fun _ s₁ h => ?_)
      fun f s₁ h => ⟨state.2, h, fun _ bad => by cases bad⟩
    split
    · exact ih h
    · refine (cloneEntry_enters below h name _ _).bind (fun state₁ s₂ reached => ?_)
        fun f s₂ reached => ?_
      · obtain ⟨entered, h, same⟩ := reached
        obtain rfl := same state₁ rfl
        exact ih h
      · obtain ⟨entered, h, _⟩ := reached
        exact ⟨entered, h, fun _ bad => by cases bad⟩

end

/-- Copying the content of a directory that may be entered. -/
theorem cloneDirectory_enters (w : Walk) (depth : Nat) (source dest : String)
    (h : Entering w.destRoot entered s) (may : MayEnter w.destRoot entered source s) :
    (cloneDirectory w depth source dest entered).Meets Noting anyCall (Entered w.destRoot) s := by
  induction depth generalizing source dest entered s with
  | zero => exact ⟨entered, h, fun _ bad => by cases bad⟩
  | succ depth ih =>
    have opening : (do
        let status ← stat source
        return (status, ← list source) : Program (Status × List String)).Meets Noting anyCall
        (fun out s' => match out with
          | .ok (status, _) => Entering w.destRoot (status.identity :: entered) s'
          | .error _ => Entering w.destRoot entered s') s := by
      refine ⟨trivial, fun look s₁ step => ?_⟩
      have later : Later s s₁ := .of_step step rfl
      cases look with
      | error f => exact h.later later
      | ok status =>
        have looked : s.1.statusOf true source = .ok status := (answer_of_step step rfl rfl).symm
        have here := later.1.identityAt (identityAt_of_stat looked)
        have may : MayEnter w.destRoot entered source s₁ := by
          intro id found
          rw [same_of_step step rfl fun _ => rfl] at found
          exact later.2 ▸ may id found
        refine ⟨trivial, fun listing s₂ step => ?_⟩
        have listed := (h.later later).list may here step
        cases listing with
        | error f => exact listed
        | ok names => exact listed
    refine Meets.attempt opening ?_ ?_ ?_
    · exact fun opened s₁ h => cloneNames_enters (fun source dest entered s h may =>
        ih source dest h may) source dest opened.2 h
    · exact fun e s₁ h => h.records fun s₀ => (laterParts s₀).note _ _ _
    · exact fun f s₁ _ h => ⟨entered, h, fun _ bad => by cases bad⟩

/-! ## Runs -/

variable {σ : Type} {world : Layer σ} {view : σ → Machine}

theorem foldl_noteListing (t : List (Moment Machine)) (seen : List (Moment Machine)) :
    t.foldl noteListing seen = (t.filter fun x => x.call.isListing).reverse ++ seen := by
  induction t generalizing seen with
  | nil => rfl
  | cons x rest ih =>
    rw [List.foldl_cons, ih]
    unfold noteListing
    cases listing : x.call.isListing with
    | true => simp [listing]
    | false => simp [listing]

theorem filterMap_listed (t : List (Moment Machine)) :
    (t.filter fun x => x.call.isListing).filterMap listed? = t.filterMap listed? := by
  rw [List.filterMap_filter]
  refine List.filterMap_congr fun x _ => ?_
  obtain ⟨⟨c, r⟩, m⟩ := x
  cases c <;> rfl

/-- Whether no directory is listed twice in a history, and none but the first listing is one of the
destination. -/
def ListsOnce (destRoot : Option Identity) (t : List (Moment Machine)) : Prop :=
  (t.filterMap listed?).Nodup ∧ ∀ id, destRoot = some id →
    ∀ x ∈ (t.filter fun x => x.call.isListing).tail, target? x ≠ some id

theorem Entering.listsOnce {m : Machine} {t : List (Moment Machine)}
    (h : Entering destRoot entered (m, t.foldl noteListing [])) : ListsOnce destRoot t := by
  obtain ⟨_, once, _, spared⟩ := h
  rw [foldl_noteListing, List.append_nil] at once spared
  refine ⟨?_, fun id root x mem => spared id root x ?_⟩
  · rw [← filterMap_listed]
    rw [List.filterMap_reverse] at once
    exact List.nodup_reverse.mp once
  · rw [List.dropLast_reverse]
    exact List.mem_reverse.mpr mem

/-- What comes before and lists nothing does not count. -/
theorem ListsOnce.cons {x : Moment Machine} {t : List (Moment Machine)}
    (h : ListsOnce destRoot t) (other : x.call.isListing = false) :
    ListsOnce destRoot (x :: t) := by
  have silent : listed? x = none := by
    obtain ⟨⟨c, r⟩, m⟩ := x
    cases c <;> first | rfl | cases other
  unfold ListsOnce
  rw [List.filterMap_cons_none silent, List.filter_cons_of_neg (by rw [other]; decide)]
  exact h

theorem cloneDirectory_listsOnce (keeps : world.KeepsTo Unreliable view) (w : Walk) (depth : Nat)
    (source dest : String) {s : σ} (regular : (view s).tree.Regular) :
    ListsOnce w.destRoot (((cloneDirectory w depth source dest []).bind fun state =>
      done state.1).history world view s) := by
  have start : Entering w.destRoot [] (view s, []) :=
    ⟨regular, List.nodup_nil, fun _ mem => absurd mem List.not_mem_nil,
      fun _ _ _ mem => absurd mem List.not_mem_nil⟩
  have walked : ((cloneDirectory w depth source dest []).bind fun state => done state.1).Meets
      Noting anyCall (fun _ s' => ∃ entered, Entering w.destRoot entered s') (view s, []) :=
    (cloneDirectory_enters w depth source dest start
      fun _ _ => ⟨List.not_mem_nil, fun some => absurd rfl some⟩).bind
      (fun _ _ reached => ⟨_, reached.choose_spec.1⟩) fun _ _ reached => ⟨_, reached.choose_spec.1⟩
  obtain ⟨entered, h⟩ := Meets.watched keeps (fun _ _ => trivial) walked
  exact h.listsOnce

end Program

/-- A clone begins with a look at the destination. -/
theorem Program.clone_begins (c : Cloner) (source dest : String) :
    clone c source dest = call (.stat dest) fun look =>
      let walk (destRoot : Option Identity) : Program CloneReport :=
        (cloneDirectory { cloner := c, sourceTop := source, destTop := dest, destRoot }
          c.limits.depth source dest []).bind fun state => done state.1
      match look with
      | .ok status => walk (some status.identity)
      | .error (.system _) => walk none
      | .error f => raise f := by
  refine congrArg (call _) (funext fun look => ?_)
  cases look with
  | ok status => rfl
  | error f => cases f <;> rfl

/-- What was left in a cloner has no influence. -/
theorem KeptCloner.clone_eq (k : KeptCloner) (source dest : String) :
    k.clone source dest = Program.clone k.cloner source dest := by
  refine congrArg (Program.call _) (funext fun look => ?_)
  cases look with
  | ok status => rfl
  | error f => cases f <;> rfl

open Program Machine in
/-- A clone lists no directory twice. The directory that it spares is the one that its first look
shows. -/
theorem KeptCloner.clone_listsOnce {σ : Type} {world : Layer σ} {view : σ → Machine}
    (keeps : world.KeepsTo Unreliable view) (k : KeptCloner) (source dest : String) {s : σ}
    (regular : (view s).tree.Regular) :
    ∃ destRoot, (∀ status, (world.reply (.stat dest) s).1 = .ok status →
      destRoot = some status.identity) ∧
        ListsOnce destRoot ((k.clone source dest).history world view s) := by
  have regular := (keeps (.stat dest) s).evolves.regular regular
  have walk := fun destRoot : Option Identity => cloneDirectory_listsOnce keeps
    { cloner := k.cloner, sourceTop := source, destTop := dest, destRoot }
    k.cloner.limits.depth source dest regular
  rw [k.clone_eq, clone_begins]
  dsimp only [history]
  cases (world.reply (.stat dest) s).1 with
  | ok status =>
    exact ⟨some status.identity, fun _ same => by cases same; rfl, (walk _).cons rfl⟩
  | error f =>
    refine ⟨none, fun _ bad => (by cases bad), ?_⟩
    cases f with
    | system e => exact (walk none).cons rfl
    | _ => exact ⟨List.nodup_nil, fun _ bad => by cases bad⟩

open Program Machine in
/-- No directory is copied twice. In a clone on an unreliable machine with any file tree, by a cloner
that is new or was used before, no two listings are of the same directory. Where the first look at
the destination succeeds, only the listing that the clone begins with can be one of the
destination. -/
theorem KeptCloner.clone_lists_once {σ : Type} {world : Layer σ} {view : σ → Machine}
    (keeps : world.KeepsTo Unreliable view) (k : KeptCloner) (source dest : String) {s : σ}
    (regular : (view s).tree.Regular) :
    (((k.clone source dest).history world view s).filterMap listed?).Nodup ∧
      ∀ status, (world.reply (.stat dest) s).1 = .ok status →
        ∀ x ∈ (((k.clone source dest).history world view s).filter
          fun x => x.call.isListing).tail, target? x ≠ some status.identity := by
  obtain ⟨destRoot, known, once⟩ := k.clone_listsOnce keeps source dest regular
  exact ⟨once.1, fun status looked => once.2 _ (known status looked)⟩

namespace Machine

theorem failing_unreliable (fault : Call → Machine → Option Fault) :
    (failing fault).KeepsTo Unreliable id := by
  intro c m
  rcases failing_reply fault c m with same | ⟨r, same, fails⟩
  · rw [same]
    exact .answered c m
  · rw [same]
    exact .failed m fails

open HomeProvision.Machine.Tree in
/-- A skeleton in which one directory has two names, and which leads to itself and to the
destination. -/
def tangled : Machine where
  tree :=
    { nodes := [
        { plainDirectory 1 1 with body := .directory [("skel", 1), ("home", 2)] false },
        { plainDirectory 1 2 with
          body := .directory [("a", 3), ("b", 3), ("up", 1), ("home", 2)] false },
        plainDirectory 1 3,
        plainDirectory 1 4] }

/-- The listing of one name of the directory fails. -/
def unlisted (c : Call) (_ : Machine) : Option Fault :=
  if c = .list "/skel/a" then some (refused "/skel/a" .inputOutput) else none

end Machine

open Program Machine in
/-- A cloner that has entered all directories before lists the skeleton, and the directory with two
names under the second one, since the listing under the first has failed. -/
theorem KeptCloner.clone_lists_once_tangled :
    let k : KeptCloner :=
      { cloner := { uid := 7, gid := 7, limits := { depth := 3, pieces := 3 } }
        sourceTop := "/skel", destTop := "/skel", destRoot := some ⟨1, 2⟩
        entered := [⟨1, 4⟩, ⟨1, 3⟩, ⟨1, 2⟩] }
    let listings := (k.clone "/skel" "/home").history (failing unlisted) id tangled
    listings.filterMap listed? = [⟨1, 2⟩, ⟨1, 4⟩] ∧ (listings.filterMap listed?).Nodup ∧
      ∀ x ∈ (listings.filter fun x => x.call.isListing).tail, target? x ≠ some ⟨1, 3⟩ := by
  intro k listings
  obtain ⟨once, spared⟩ := KeptCloner.clone_lists_once (failing_unreliable unlisted) k "/skel"
    "/home" (s := tangled) (by decide)
  exact ⟨by decide, once, spared _ rfl⟩

end HomeProvision
