import HomeProvision.Proofs.Confined
import HomeProvision.Proofs.EnteredOnce
import HomeProvision.Proofs.Extension
import HomeProvision.Proofs.Height

/-!
# A clone does not feed on what it makes

What a clone makes lies below the destination. If nothing there was reached from the source at the
start, except on a way through the destination, then the walk never lists a directory that it has
made: it lists directories that were there at the start, and so it has an end however many of them
it fills (`KeptCloner.clone_lists_old`).

This needs more than a source that is not inside the destination. A directory below the destination
may have another name, too, and be reached from the source under that. The walk spares the
destination, but it does not know such a directory, and what it has put there it finds as a part of
the skeleton (`KeptCloner.clone_lists_new`).
-/

namespace HomeProvision

open Relation

namespace Machine

/-! ## The two sides of a clone -/

/-- Whether names lead to nodes. -/
def Tree.Named (t : Tree) : Prop :=
  ∀ i name k, t.child? i name = some k → t.node? k ≠ none

/-- Whether a directory is reached from the source without the destination being entered. -/
def Tree.FromSource (t : Tree) (origin home : Option Nat) (i : Nat) : Prop :=
  t.isDirectory i = true ∧ ∃ o, origin = some o ∧ ReflTransGen (t.Holds home) o i

/-- Whether no directory is reached from the source, the destination not being entered, and from the
destination, too. -/
def Tree.Apart (t : Tree) (origin home : Option Nat) : Prop :=
  ∀ i d, t.FromSource origin home i → home = some d → ¬ ReflTransGen (t.Holds none) d i

/-- The number of directories in a tree. -/
def Tree.directoryCount (t : Tree) : Nat :=
  t.nodes.countP Node.isDirectory

variable {t t' : Tree} {origin home : Option Nat} {i k : Nat} {name : String}

theorem Tree.Way.reflTransGen {n o : Nat} (h : t.Way home o n i) :
    ReflTransGen (t.Holds home) o i := by
  induction h with
  | start => exact .refl
  | step _ holds ih => exact ih.tail holds

/-- If names are added below the destination only, the directories of the source side get none. -/
theorem Tree.Extends.child?_of_apart (h : t.Extends t') (named : t.Named)
    (apart : t.Apart origin home) (added : Program.AddedInside t home t')
    (from_ : t.FromSource origin home i)
    (child : t'.child? i name = some k) : t.child? i name = some k := by
  cases old : t.child? i name with
  | some j => exact (h.kept i name j old).symm.trans child
  | none =>
    obtain ⟨d, names, here, located⟩ := added i name k child old
    have below := (Tree.Way.of_locate located (Tree.isDirectory_of_child? child)).reflTransGen
    rcases h.reached named below with below | new
    · exact absurd below (apart i d from_ here)
    · exact absurd new (node?_ne_none_of_isDirectory from_.1)

/-- A call that no caller's code answers and that does not fail has the reply of the machine. -/
theorem Disturbed.answer {spared : Call → Prop} {c : Call} {r : c.Reply} {m m' : Machine}
    (step : Disturbed spared c m r m') (own : c.isForeign = false) (good : c.fault? r = none) :
    r = (m.reply c).1 ∧ m' = (m.reply c).2 := by
  cases step with
  | answered => exact ⟨rfl, rfl⟩
  | failed _ _ fails => rw [good] at fails; cases fails
  | foreign _ foreign => rw [own] at foreign; cases foreign

end Machine

namespace Program

open Machine

/-! ## The source side of a walk -/

/-- Whether a path leads to a directory that was reached from the source at the start. -/
def LeadsBack (before : Tree) (origin home : Option Nat) (path : String) (m : Machine) : Prop :=
  ∃ p, m.tree.directoryAt m.current path = .ok p ∧ before.FromSource origin home p.node

/-- Whether a path leads to such a directory if it leads to any. -/
def MayList (before : Tree) (origin home : Option Nat) (path : String) (m : Machine) : Prop :=
  ∀ p, m.tree.directoryAt m.current path = .ok p → before.FromSource origin home p.node

/-- What a clone may list: what was reached from the source at the start. -/
def listsOld (start : Machine) (origin home : Option Nat) (c : Call) (m : Machine) : Prop :=
  Since start m ∧ ∀ path, c = .list path → MayList start.tree origin home path m

/-- What may happen on a disturbed machine in a clone that stays inside the home. -/
abbrev Staying (spared : Call → Prop) (start : Machine) (home : Option Nat) (source dest : String) :
    Rule Machine :=
  fun c m r m' => confining start.tree home source dest c m ∧ Disturbed spared c m r m'

variable {spared : Call → Prop} {start m m' : Machine} {origin home : Option Nat}
  {source dest path name : String} {p : Place}

theorem LeadsBack.since (h : LeadsBack start.tree origin home path m) (since : Since m m') :
    LeadsBack start.tree origin home path m' := by
  obtain ⟨p, leads, from_⟩ := h
  exact ⟨p, since.directoryAt leads, from_⟩

theorem LeadsBack.mayList (h : LeadsBack start.tree origin home path m) :
    MayList start.tree origin home path m := by
  obtain ⟨p, leads, from_⟩ := h
  intro q leads'
  rw [leads] at leads'
  cases leads'
  exact from_

/-- The parts of copying an entry list nothing, and they keep what lasts whatever is called. -/
theorem lastingParts {kept : Machine → Prop} (since : ∀ m, kept m → Since start m)
    (lasts : ∀ m m', Since m m' → kept m → kept m') :
    EntryParts (Staying spared start home source dest) (listsOld start origin home) kept := by
  refine .of_calls fun c m _ other h => ⟨⟨since m h, fun path same => ?_⟩, fun r m' step =>
    lasts m m' (.of_disturbed step.2) h⟩
  subst same
  cases other

theorem sinceParts :
    EntryParts (Staying spared start home source dest) (listsOld start origin home)
      (Since start) :=
  lastingParts (fun _ => id) fun _ _ later since => since.trans later

theorem leadsBackParts (path : String) :
    EntryParts (Staying spared start home source dest) (listsOld start origin home)
      fun m => Since start m ∧ LeadsBack start.tree origin home path m :=
  lastingParts (fun _ h => h.1) fun _ _ later h => ⟨h.1.trans later, h.2.since later⟩

section

variable (regular : start.tree.Regular) (named : start.tree.Named)
  (apart : start.tree.Apart origin home) {w : Walk}
  (root : ∀ d, home = some d →
    ∃ n, start.tree.node? d = some n ∧ w.destRoot = some n.status.identity)
include regular named apart root

/-- What a look at an entry shows as a directory, and not as the destination, was there at the
start. -/
theorem leadsBack_of_status {status : Status} {bits : Nat} (since : Since start m)
    (added : AddedInside start.tree home m.tree)
    (above : LeadsBack start.tree origin home path m) (own : Path.IsName name)
    (looked : m.statusOf false (Path.join path name) = .ok status)
    (valid : machineMode status.mode = .ok bits) (directory : EntryType.ofBits bits = .directory)
    (other : w.destRoot ≠ some status.identity) :
    LeadsBack start.tree origin home (Path.join path name) m := by
  obtain ⟨p, leads, from_⟩ := above
  have regular := since.regular regular
  obtain ⟨i, n, child, here, rfl, reached⟩ :=
    directoryAt_of_status regular own leads looked valid directory
  -- the name was there at the start, since nothing is added on this side
  have child := since.tree.child?_of_apart named apart added from_ child
  have holds : start.tree.Holds home p.node i := by
    refine ⟨⟨name, child⟩, ?_, fun same => ?_⟩
    · rw [← since.tree.isDirectory_eq (named _ _ _ child)]
      exact Tree.isDirectory_of_directoryAt reached
    · obtain ⟨n', here', known⟩ := root i same
      obtain ⟨n'', here'', kept, _⟩ := since.node i n' here'
      rw [here] at here''
      cases here''
      exact other (known.trans (congrArg some kept.symm))
  obtain ⟨_, o, first, way⟩ := from_
  exact ⟨_, reached, holds.2.1, o, first, way.tail holds⟩

theorem describeEntry_leadsBack
    (h : Since start m ∧ LeadsBack start.tree origin home path m) (own : Path.IsName name) :
    (describeEntry name (Path.join path name)).Meets (Staying spared start home source dest)
      (listsOld start origin home)
      (fun out m' => (Since start m' ∧ LeadsBack start.tree origin home path m') ∧
        ∀ entry, out = .ok entry → entry.path = Path.join path name ∧
          (entry.type = .directory → w.destRoot ≠ some entry.identity →
            LeadsBack start.tree origin home (Path.join path name) m')) m := by
  refine ⟨⟨h.1, fun _ bad => by cases bad⟩, fun look m₁ step => ?_⟩
  obtain ⟨⟨_, added⟩, step⟩ := step
  have later : Since m m₁ := .of_disturbed step
  have h₁ : Since start m₁ ∧ LeadsBack start.tree origin home path m₁ :=
    ⟨h.1.trans later, h.2.since later⟩
  cases look with
  | error f => exact ⟨h₁, fun _ bad => by cases bad⟩
  | ok status =>
    have looked : m.statusOf false (Path.join path name) = .ok status :=
      ((step.answer rfl rfl).1).symm
    change ((ofRange (Entry.ofStatus name (Path.join path name) status)).bind _).Meets _ _ _ _
    unfold Entry.ofStatus
    cases valid : machineMode status.mode with
    | error e => exact ⟨h₁, fun _ bad => by cases bad⟩
    | ok bits =>
      change Meets _ _ (if _ then _ else _) _ _
      split
      · next link =>
        have link : EntryType.ofBits bits = .symlink := link
        have other : EntryType.ofBits bits ≠ .directory := fun type => by
          rw [link] at type
          cases type
        refine Meets.attempt ((leadsBackParts path).readlink _ m₁ h₁) ?_ ?_ ?_
        · exact fun target m₂ h => ⟨h, fun entry same => by
            cases same; exact ⟨rfl, fun type => absurd type other⟩⟩
        · exact fun e m₂ h => ⟨h, fun entry same => by
            cases same; exact ⟨rfl, fun type => absurd type other⟩⟩
        · exact fun f m₂ _ h => ⟨h, fun _ bad => by cases bad⟩
      · refine ⟨h₁, fun entry same => ?_⟩
        cases same
        exact ⟨rfl, fun directory other => (leadsBack_of_status regular named apart root h.1 added
          h.2 own looked valid directory other).since later⟩

end

section

variable {w : Walk} {descend : String → String → List Identity → Program WalkState}
  (below : ∀ path target entered m, Since start m → MayList start.tree origin home path m →
    (descend path target entered).Meets (Staying spared start home source dest)
      (listsOld start origin home) (fun _ => Since start) m)
include below

theorem cloneSubdirectory_listsOld {entry : Entry} (since : Since start m)
    (seen : w.destRoot ≠ some entry.identity → LeadsBack start.tree origin home entry.path m)
    (target : String) (state : WalkState) :
    (cloneSubdirectory w descend entry target state).Meets
      (Staying spared start home source dest) (listsOld start origin home)
      (fun _ => Since start) m := by
  obtain ⟨report, entered⟩ := state
  unfold cloneSubdirectory
  dsimp only
  split
  · exact ((sinceParts.note _ _ _).bind fun _ => .done _) m since
  next other =>
  simp only [Bool.or_eq_true, decide_eq_true_eq, not_or] at other
  refine ((leadsBackParts entry.path).isPlantedNonDirectory target m ⟨since, seen other.2⟩).bind
    (fun planted m₁ h => ?_) fun _ _ h => h.1
  split
  · exact h.1
  refine ((leadsBackParts entry.path).directory target _ _ _ m₁ h).bind
    (fun created m₂ h => ?_) fun _ _ h => h.1
  split
  · exact h.1
  · exact (below entry.path target entered m₂ h.1 h.2.mayList).bind (fun _ _ h => h)
      fun _ _ h => h

variable (regular : start.tree.Regular) (named : start.tree.Named)
  (apart : start.tree.Apart origin home)
  (root : ∀ d, home = some d →
    ∃ n, start.tree.node? d = some n ∧ w.destRoot = some n.status.identity)
include regular named apart root

theorem cloneEntry_listsOld (h : Since start m ∧ LeadsBack start.tree origin home path m)
    (own : Path.IsName name) (target : String) (state : WalkState) :
    (cloneEntry w descend name (Path.join path name) target state).Meets
      (Staying spared start home source dest) (listsOld start origin home)
      (fun _ => Since start) m := by
  refine Meets.attempt (describeEntry_leadsBack regular named apart root h own) ?_ ?_ ?_
  · rintro entry m₁ ⟨⟨since, _⟩, described⟩
    obtain ⟨same, seen⟩ := described entry rfl
    dsimp only
    split
    · next type =>
      exact cloneSubdirectory_listsOld below since (same ▸ seen type) target state
    · exact ((sinceParts.file _ _ _ _).bind fun _ => .done _) m₁ since
    · exact ((sinceParts.copySymlink _ _ _ _ _ _).bind fun _ => .done _) m₁ since
    · exact ((sinceParts.note _ _ _).bind fun _ => .done _) m₁ since
  · exact fun e m₁ reached => ((sinceParts.note _ _ _).bind fun _ => .done _) m₁ reached.1.1
  · exact fun f m₁ _ reached => reached.1.1

theorem cloneNames_listsOld (h : Since start m ∧ LeadsBack start.tree origin home path m)
    (target : String) (listed : List String)
    (valid : ∀ name ∈ listed, name = "." ∨ name = ".." ∨ Path.IsName name) (state : WalkState) :
    (cloneNames w descend path target listed state).Meets
      (Staying spared start home source dest) (listsOld start origin home)
      (fun _ => Since start) m := by
  induction listed generalizing state m with
  | nil => exact h.1
  | cons name rest ih =>
    have ih := fun {m} h => ih (m := m) h fun n mem => valid n (List.mem_cons_of_mem _ mem)
    refine ((leadsBackParts path).pause m h).bind (fun _ m₁ h => ?_) fun _ _ h => h.1
    split
    · exact ih h state
    next entry =>
    have good := isName_of_listed (valid name List.mem_cons_self) entry
    have copied := cloneEntry_listsOld below regular named apart root h good
      (Path.join target name) state
    -- the directory is still there when the entry is copied
    refine (copied.along (fun _ _ _ _ step h => LeadsBack.since h (.of_disturbed step.2))
      h.2).bind (fun state _ h => ih h state)
      fun _ _ h => h.1

end

/-- A walk may list a directory that leads back, and reads names there. -/
theorem opening_listsOld (regular : start.tree.Regular) (since : Since start m)
    (may : MayList start.tree origin home path m) :
    (do
      let status ← stat path
      return (status, ← list path) : Program (Status × List String)).Meets
      (Staying spared start home source dest) (listsOld start origin home)
      (fun out m' => Since start m' ∧ ∀ opened, out = .ok opened →
        LeadsBack start.tree origin home path m' ∧
          ∀ name ∈ opened.2, name = "." ∨ name = ".." ∨ Path.IsName name) m := by
  refine ⟨⟨since, fun _ bad => by cases bad⟩, fun look m₁ step => ?_⟩
  cases look with
  | error f => exact ⟨since.trans (.of_disturbed step.2), fun _ bad => by cases bad⟩
  | ok status =>
    obtain ⟨_, rfl⟩ := step.2.answer rfl rfl
    refine ⟨⟨since, fun _ same => by cases same; exact may⟩, fun listing m₂ step => ?_⟩
    cases listing with
    | error f => exact ⟨since.trans (.of_disturbed step.2), fun _ bad => by cases bad⟩
    | ok listed =>
      obtain ⟨found, rfl⟩ := step.2.answer rfl rfl
      obtain ⟨p, leads⟩ := directoryAt_of_namesOf found.symm
      refine ⟨since, fun opened same => ?_⟩
      cases same
      exact ⟨⟨p, leads, may p leads⟩, areNames_of_namesOf (since.regular regular) found.symm⟩

section

variable (regular : start.tree.Regular) (named : start.tree.Named)
  (apart : start.tree.Apart origin home)
include regular named apart

theorem cloneDirectory_listsOld {w : Walk} (root : ∀ d, home = some d →
      ∃ n, start.tree.node? d = some n ∧ w.destRoot = some n.status.identity)
    (depth : Nat) (target : String) (entered : List Identity) (since : Since start m)
    (may : MayList start.tree origin home path m) :
    (cloneDirectory w depth path target entered).Meets (Staying spared start home source dest)
      (listsOld start origin home) (fun _ => Since start) m := by
  induction depth generalizing path target entered m with
  | zero => exact since
  | succ depth ih =>
    refine Meets.attempt (opening_listsOld regular since may) ?_ ?_ ?_
    · rintro opened m₁ ⟨since, listed⟩
      obtain ⟨back, valid⟩ := listed opened rfl
      exact cloneNames_listsOld (fun path target entered m since may =>
        ih target entered since may) regular named apart root ⟨since, back⟩ target opened.2 valid _
    · exact fun e m₁ reached => ((sinceParts.note _ _ _).bind fun _ => .done _) m₁ reached.1
    · exact fun f m₁ _ reached => reached.1

end

/-! ## Runs -/

/-- The looks that tell a clone where it is: at the destination, and at what is below it. -/
def TellsPlace (dest : String) (c : Call) : Prop :=
  c = .stat dest ∨ ∃ path, IsBelow dest path ∧ c = .lstat path

theorem text_of_statusOf_error {follow : Bool} {e : SystemError}
    (looked : m.statusOf follow path = .error (.system e)) : checkText path = .ok () := by
  cases text : checkText path with
  | ok _ => rfl
  | error f =>
    have refused : m.statusOf follow path = .error f := by
      unfold statusOf find Machine.resolve
      rw [text]
      rfl
    rw [looked] at refused
    cases refused
    unfold checkText at text
    split at text <;> cases text

/-- A look at the destination shows the identity of the directory that it leads to. -/
theorem identity_of_status {status : Status} (looked : start.statusOf true dest = .ok status) :
    ∀ d, homeAt start dest = some d →
      ∃ n, start.tree.node? d = some n ∧ some status.identity = some n.status.identity := by
  intro d here
  obtain ⟨_, found, _⟩ := bind_eq_ok.mp looked
  obtain ⟨n, node, same⟩ := statusOf_of_homeAt (find_valid found) here
  cases looked.symm.trans same
  exact ⟨n, node, rfl⟩

/-- The walk of a clone knows the directory that it fills. -/
theorem clone_meets {rule : Rule Machine} {guard : Call → Machine → Prop}
    {post : Except Fault CloneReport → Machine → Prop}
    (disturbed : ∀ c m r m', rule c m r m' → Disturbed (TellsPlace dest) c m r m')
    (allowed : guard (.stat dest) start) (c : Cloner)
    (failed : ∀ f, post (.error f) start)
    (walk : ∀ destRoot, (∀ d, homeAt start dest = some d →
        ∃ n, start.tree.node? d = some n ∧ destRoot = some n.status.identity) →
      (cloneDirectory ⟨c, source, dest, destRoot⟩ c.limits.depth source dest []).Meets rule guard
        (fun out m' => post (out.map Prod.fst) m') start) :
    (clone c source dest).Meets rule guard post start := by
  have walked : ∀ destRoot, (∀ d, homeAt start dest = some d →
      ∃ n, start.tree.node? d = some n ∧ destRoot = some n.status.identity) →
      ((cloneDirectory ⟨c, source, dest, destRoot⟩ c.limits.depth source dest []).bind
        fun state => done state.1).Meets rule guard post start :=
    fun destRoot known => (walk destRoot known).bind (fun _ _ h => h) fun _ _ h => h
  rw [clone_begins]
  refine ⟨allowed, fun look m step => ?_⟩
  have step := disturbed _ _ _ _ step
  have same : m = start ∧ look = start.statusOf true dest := by
    cases step with
    | answered => exact ⟨rfl, rfl⟩
    | failed _ exposed => exact absurd (.inl rfl) exposed
    | foreign _ foreign => cases foreign
  obtain ⟨rfl, rfl⟩ := same
  cases looked : m.statusOf true dest with
  | ok status => exact walked (some status.identity) (identity_of_status looked)
  | error f =>
    cases f with
    | system e =>
      refine walked none fun d here => ?_
      obtain ⟨n, _, found⟩ := statusOf_of_homeAt (text_of_statusOf_error looked) here
      cases looked.symm.trans found
    | _ => exact failed _

/-- Everything that a clone lists was reached from the source at the start. -/
theorem clone_listsOld (full : dest ≠ "") (regular : start.tree.Regular)
    (named : start.tree.Named)
    (apart : start.tree.Apart (homeAt start source) (homeAt start dest)) (c : Cloner) :
    (clone c source dest).Meets (Disturbed (TellsPlace dest))
      (fun c m => confining start.tree (homeAt start dest) source dest c m ∧
        listsOld start (homeAt start source) (homeAt start dest) c m)
      (fun _ _ => True) start := by
  have confined : (clone c source dest).Meets (Disturbed (TellsPlace dest))
      (confining start.tree (homeAt start dest) source dest)
      (fun _ => Inside start.tree (homeAt start dest) dest []) start :=
    Inside.keeps_clone full (fun path below => .inr ⟨path, below, rfl⟩) c start
      (Inside.start regular)
  have may : MayList start.tree (homeAt start source) (homeAt start dest) source start :=
    fun p leads => ⟨Tree.isDirectory_of_directoryAt leads, p.node, by rw [homeAt, leads]; rfl, .refl⟩
  have lists : (clone c source dest).Meets
      (Staying (TellsPlace dest) start (homeAt start dest) source dest)
      (listsOld start (homeAt start source) (homeAt start dest)) (fun _ _ => True) start := by
    refine clone_meets (fun _ _ _ _ step => step.2) ⟨.refl start, fun _ bad => by cases bad⟩ c
      (fun _ => trivial) fun destRoot known => ?_
    exact (cloneDirectory_listsOld regular named apart known c.limits.depth dest [] (.refl start)
      may).mono fun _ _ _ => trivial
  exact (confined.and lists).mono fun _ _ _ => trivial

/-- What a disturbed machine lists, if the listing goes well, is a directory. -/
theorem directoryAt_of_listed {x : Moment Machine} {id : Identity} {m' : Machine}
    (step : Disturbed spared x.call x.state x.reply m') (found : listed? x = some id) :
    ∃ path p n, x.call = .list path ∧ x.state.tree.directoryAt x.state.current path = .ok p ∧
      x.state.tree.node? p.node = some n ∧ n.status.identity = id := by
  obtain ⟨⟨c, r⟩, m⟩ := x
  cases c with
  | list path =>
    cases r with
    | error f => cases found
    | ok names =>
      obtain ⟨listing, _⟩ := step.answer rfl rfl
      obtain ⟨p, leads⟩ := directoryAt_of_namesOf listing.symm
      have identity : m.identityAt path = some id := found
      obtain ⟨resolved, dir⟩ := Tree.directoryAt_eq_ok_iff.mp leads
      obtain ⟨n, here, _⟩ := Tree.isDirectory_iff.mp dir
      obtain ⟨_, there, _⟩ := bind_eq_ok.mp listing.symm
      rw [identityAt_of_find (find_eq_ok (find_valid there) resolved here)] at identity
      exact ⟨path, p, n, rfl, leads, here, Option.some.inj identity⟩
  | _ => cases found

/-- The identity of a directory that is listed is one of those that were there at the start. -/
theorem listed_mem {x : Moment Machine} {id : Identity}
    (old : listsOld start origin home x.call x.state)
    (step : ∃ m', Disturbed spared x.call x.state x.reply m') (found : listed? x = some id) :
    id ∈ (start.tree.nodes.filter Node.isDirectory).map fun n => n.status.identity := by
  obtain ⟨since, may⟩ := old
  obtain ⟨m', step⟩ := step
  obtain ⟨path, p, n, same, leads, here, rfl⟩ := directoryAt_of_listed step found
  obtain ⟨dir, _⟩ := may path same p leads
  obtain ⟨n', here', dir⟩ := Tree.isDirectory_iff.mp dir
  obtain ⟨n'', here'', identity, _⟩ := since.node _ n' here'
  rw [here] at here''
  cases here''
  refine List.mem_map.mpr ⟨n', List.mem_filter.mpr ⟨List.mem_of_getElem? here', dir⟩, identity.symm⟩

end Program

theorem Machine.Disturbed.unreliable {spared : Call → Prop} {c : Call} {r : c.Reply}
    {m m' : Machine} (step : Machine.Disturbed spared c m r m') :
    Machine.Unreliable c m r m' := by
  cases step with
  | answered => exact .answered c m
  | failed _ _ fails => exact .failed m fails
  | foreign _ foreign same => exact .foreign r foreign same

open Program in
/-- A clone does not feed on what it makes: the directories that it lists were directories at the
start, and it lists no more than there were. Calls may fail, except for the looks at places of the
destination (`TellsPlace`). -/
theorem KeptCloner.clone_lists_old {σ : Type} {world : Layer σ} {view : σ → Machine}
    {source dest : String} (full : dest ≠ "")
    (keeps : world.KeepsTo (Machine.Disturbed (TellsPlace dest)) view) (k : KeptCloner) {s : σ}
    (regular : (view s).tree.Regular) (named : (view s).tree.Named)
    (apart : (view s).tree.Apart (homeAt (view s) source) (homeAt (view s) dest)) :
    (∀ x ∈ (k.clone source dest).history world view s, ∀ path, x.call = .list path →
      ∀ p, x.state.tree.directoryAt x.state.current path = .ok p →
        (view s).tree.isDirectory p.node = true) ∧
      (((k.clone source dest).history world view s).filterMap Machine.listed?).length ≤
        (view s).tree.directoryCount := by
  have made := Meets.history keeps (clone_listsOld full regular named apart k.cloner)
  rw [← k.clone_eq] at made
  refine ⟨fun x mem path same p leads => ((made x mem).1.2.2 path same p leads).1, ?_⟩
  obtain ⟨_, _, once, _⟩ :=
    k.clone_listsOnce (fun c s => (keeps c s).unreliable) source dest regular
  have among : ((k.clone source dest).history world view s).filterMap Machine.listed? ⊆
      ((view s).tree.nodes.filter Machine.Node.isDirectory).map fun n => n.status.identity := by
    intro id mem
    obtain ⟨x, mem, found⟩ := List.mem_filterMap.mp mem
    exact listed_mem (made x mem).1.2 (made x mem).2 found
  have fewer := (List.Nodup.subperm once among).length_le
  rw [List.length_map] at fewer
  exact fewer.trans_eq List.countP_eq_length_filter.symm

namespace Machine

/-! ## Trees with aliases -/

namespace Tree

variable {t : Tree} {origin home : Option Nat} {i o k : Nat} {side : List Nat}

/-- What a set of directories contains that no name leads out of. -/
theorem mem_of_reflTransGen (closed : ∀ i ∈ side, ∀ entry ∈ (t.entries? i).getD [],
      t.isDirectory entry.2 = true → home ≠ some entry.2 → entry.2 ∈ side)
    (first : o ∈ side) (way : ReflTransGen (t.Holds home) o k) : k ∈ side := by
  induction way with
  | refl => exact first
  | @tail i k _ holds mem =>
    obtain ⟨⟨name, child⟩, dir, other⟩ := holds
    obtain ⟨entries, listed, _⟩ := Option.bind_eq_some_iff.mp child
    have all := closed i mem
    rw [listed] at all
    exact all (name, k) (mem_of_child? listed child) dir other

theorem Named.of_nodes (named : ∀ i < t.nodes.length, ∀ entry ∈ (t.entries? i).getD [],
    entry.2 < t.nodes.length) : t.Named := by
  intro i name k child
  obtain ⟨entries, listed, _⟩ := Option.bind_eq_some_iff.mp child
  have all := named i (lt_of_isDirectory (isDirectory_of_child? child))
  rw [listed] at all
  unfold node?
  rw [List.getElem?_eq_getElem (all (name, k) (mem_of_child? listed child))]
  simp

/-- Two sets of directories that are reached from the source and from the destination. -/
theorem Apart.of_sides (outside inside : List Nat) (first : ∀ o, origin = some o → o ∈ outside)
    (closed : ∀ i ∈ outside, ∀ entry ∈ (t.entries? i).getD [],
      t.isDirectory entry.2 = true → home ≠ some entry.2 → entry.2 ∈ outside)
    (first' : ∀ d, home = some d → d ∈ inside)
    (closed' : ∀ i ∈ inside, ∀ entry ∈ (t.entries? i).getD [],
      t.isDirectory entry.2 = true → none ≠ some entry.2 → entry.2 ∈ inside)
    (apart : ∀ i ∈ outside, i ∉ inside) : t.Apart origin home := by
  rintro i d ⟨_, o, own, way⟩ here below
  exact apart i (mem_of_reflTransGen closed (first o own) way)
    (mem_of_reflTransGen closed' (first' d here) below)

end Tree

end Machine

open Program Machine in
/-- In a skeleton that leads to itself, to the destination, and to one directory by two names, two
directories are listed. -/
theorem KeptCloner.clone_lists_old_tangled :
    let k : KeptCloner :=
      { cloner := { uid := 7, gid := 7, limits := { depth := 3, pieces := 3 } }
        sourceTop := "", destTop := "", destRoot := none, entered := [] }
    let listings := (k.clone "/skel" "/home").history layer id tangled
    listings.filterMap listed? = [⟨1, 2⟩, ⟨1, 4⟩] ∧
      (∀ x ∈ listings, ∀ path, x.call = .list path →
        ∀ p, x.state.tree.directoryAt x.state.current path = .ok p →
          tangled.tree.isDirectory p.node = true) ∧
      (listings.filterMap listed?).length ≤ 4 := by
  intro k listings
  have apart : tangled.tree.Apart (homeAt tangled "/skel") (homeAt tangled "/home") :=
    .of_sides [1, 3] [2] (by decide) (by decide) (by decide) (by decide) (by decide)
  obtain ⟨old, few⟩ := KeptCloner.clone_lists_old (by decide)
    (layer_keepsTo (TellsPlace "/home")) k (s := tangled) (by decide) (.of_nodes (by decide)) apart
  exact ⟨by decide, old, few⟩

namespace Machine

open HomeProvision.Machine.Tree

/-- A home in which a directory of the skeleton has a name. Neither of the two contains the
other. -/
def crossed : Machine where
  tree :=
    { nodes := [
        { plainDirectory 1 1 with body := .directory [("skel", 1), ("home", 2)] false },
        { plainDirectory 1 2 with body := .directory [("a", 3), ("b", 4)] false },
        { plainDirectory 1 3 with body := .directory [("a", 4)] false },
        { plainDirectory 1 4 with body := .directory [("c", 5)] false },
        plainDirectory 1 5,
        plainDirectory 1 6] }

/-- A process in a directory of the skeleton. -/
def within : Machine where
  tree :=
    { nodes := [
        { plainDirectory 1 1 with body := .directory [("skel", 1)] false },
        { plainDirectory 1 2 with body := .directory [("a", 2)] false },
        plainDirectory 1 3] }
  current := "/skel/a"

end Machine

open Program Machine in
/-- A source that is neither the destination nor below it is not enough. Where a directory of the
skeleton lies in the home, too, a directory that was copied into it is listed; and where the
destination has an empty path, the copies are made in the current directory, which the walk may
still come to. -/
theorem KeptCloner.clone_lists_new :
    let k : KeptCloner :=
      { cloner := { uid := 7, gid := 7, limits := { depth := 3, pieces := 3 } }
        sourceTop := "", destTop := "", destRoot := none, entered := [] }
    ((homeAt crossed "/skel" = some 1 ∧ homeAt crossed "/home" = some 2 ∧
        ¬ ReflTransGen (crossed.tree.Holds none) 2 1) ∧
      ∃ x ∈ (k.clone "/skel" "/home").history layer id crossed, x.call = .list "/skel/b/c" ∧
        (x.state.tree.directoryAt x.state.current "/skel/b/c").map
          (fun p => crossed.tree.isDirectory p.node) = .ok false) ∧
    homeAt within "" = none ∧
      ∃ x ∈ (k.clone "/skel" "").history layer id within, x.call = .list "/skel/a/a" ∧
        (x.state.tree.directoryAt x.state.current "/skel/a/a").map
          (fun p => within.tree.isDirectory p.node) = .ok false := by
  intro k
  refine ⟨⟨⟨by decide, by decide, fun way => ?_⟩, by decide +kernel⟩, by decide, by decide +kernel⟩
  have closed : ∀ i ∈ [2, 4], ∀ entry ∈ (crossed.tree.entries? i).getD [],
      crossed.tree.isDirectory entry.2 = true → none ≠ some entry.2 → entry.2 ∈ [2, 4] := by decide
  exact absurd (Tree.mem_of_reflTransGen closed (by decide) way) (by decide)

end HomeProvision
