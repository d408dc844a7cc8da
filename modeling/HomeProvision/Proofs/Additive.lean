import HomeProvision.Proofs.CallContract
import HomeProvision.Proofs.Requests
import HomeProvision.Proofs.Status

/-!
# Provisioning only adds

Whatever fails on the way, every node that was there before a request is there afterwards as it was,
under all its names; directories may have further names, and nothing else has changed
(`provision_grows`).

Owners, modes and lengths are set by path, and paths follow links. What makes this safe is that the
path was created by the same run, right before: it leads to a node that the tree did not have at the
start (`Fresh`), and so does the descriptor that content is written to (`FreshFile`). No call between
the creation and the change can make the path lead elsewhere, since names are only added.
-/

namespace HomeProvision.Program

open Machine

variable {α σ : Type} {spared : Call → Prop}

/-! ## Invariants -/

/-- Whether names were added to a tree, and nothing else changed. -/
def Adds (before : Tree) (m : Machine) : Prop :=
  before.Grows m.tree

/-- Moreover, what a path leads to was not there before. -/
structure Fresh (before : Tree) (follow : Bool) (path : String) (m : Machine) : Prop where
  grows : before.Grows m.tree
  new : ∀ p, m.tree.resolve m.current follow path = .ok p → before.node? p.node = none

/-- Moreover, neither was the open file with a number. -/
structure FreshFile (before : Tree) (number : Int) (path : String) (m : Machine) : Prop extends
    Fresh before true path m where
  openNew : ∀ i, (m.descriptor? number).map Descriptor.node = some i → before.node? i = none

variable {before : Tree} {path : String} {number : Int} {follow : Bool}

/-- Every call is made while names were only added. -/
def adding (before : Tree) (_ : Call) (m : Machine) : Prop :=
  Adds before m

/-- An invariant of the tree under which names were only added. -/
structure OfTree (before : Tree) (invariant : Machine → Prop) : Prop where
  adds : ∀ m, invariant m → Adds before m
  same : ∀ m m', m'.tree = m.tree → m'.current = m.current → invariant m → invariant m'

/-- An invariant of the tree and the open files under which names were only added. -/
structure OfFiles (before : Tree) (invariant : Machine → Prop) : Prop where
  adds : ∀ m, invariant m → Adds before m
  same : ∀ m m', SameFiles m m' → invariant m → invariant m'

theorem OfTree.ofFiles {invariant : Machine → Prop} (h : OfTree before invariant) :
    OfFiles before invariant :=
  ⟨h.adds, fun m m' same => h.same m m' same.tree same.current⟩

theorem Adds.same (m m' : Machine) (tree : m'.tree = m.tree) (_ : m'.current = m.current)
    (h : Adds before m) : Adds before m' := by
  unfold Adds
  rw [tree]
  exact h

theorem Fresh.same (m m' : Machine) (tree : m'.tree = m.tree) (current : m'.current = m.current)
    (h : Fresh before follow path m) : Fresh before follow path m' := by
  constructor
  · rw [tree]
    exact h.grows
  · rw [tree, current]
    exact h.new

theorem FreshFile.same (m m' : Machine) (same : SameFiles m m') (h : FreshFile before number path m) :
    FreshFile before number path m' := by
  refine ⟨h.toFresh.same m m' same.tree same.current, ?_⟩
  unfold descriptor?
  rw [same.descriptors]
  exact h.openNew

theorem Adds.ofTree : OfTree before (Adds before) :=
  ⟨fun _ h => h, Adds.same⟩

theorem Adds.ofFiles : OfFiles before (Adds before) :=
  Adds.ofTree.ofFiles

theorem Adds.sameFiles {m m' : Machine} (h : Adds before m) (same : SameFiles m m') :
    Adds before m' :=
  Adds.ofFiles.same m m' same h

theorem Fresh.ofTree : OfTree before (Fresh before follow path) :=
  ⟨fun _ h => h.grows, Fresh.same⟩

theorem FreshFile.ofFiles : OfFiles before (FreshFile before number path) :=
  ⟨fun _ h => h.grows, FreshFile.same⟩

/-- A node that is created is not one of those that were there before. -/
theorem new_of_grows {m : Machine} (h : before.Grows m.tree) :
    before.node? m.tree.nextPlace = none :=
  List.getElem?_eq_none h.length_le

theorem Fresh.of_created {m m' : Machine} {bits : Nat} {body : Body} {s : Tree.Spot}
    (h : Adds before m) (made : Created m path bits body s m')
    (noLink : (∀ target, body ≠ .link target) ∨ (follow = false ∧ Path.endsInSlash path = false))
    (fits : Path.endsInSlash path = true → ∃ entries dots, body = .directory entries dots) :
    Fresh before follow path m' := by
  refine ⟨h.trans made.grows, fun p leads => ?_⟩
  obtain ⟨above, there⟩ := made.resolve_new noLink fits
  rw [there] at leads
  cases leads
  exact new_of_grows h

/-- A change of a new node leaves the old ones alone, and every path leads where it led. -/
theorem Fresh.of_changed {m m' : Machine} {i : Nat} {f : Node → Node}
    (h : Fresh before follow path m) (new : before.node? i = none) (changed : Changed m i f m') :
    Fresh before follow path m' := by
  constructor
  · rw [changed.tree]
    exact h.grows.modify f new
  · rw [changed.sameShape.resolve, changed.current]
    exact h.new

theorem FreshFile.of_changed {m m' : Machine} {i : Nat} {f : Node → Node}
    (h : FreshFile before number path m) (new : before.node? i = none) (changed : Changed m i f m') :
    FreshFile before number path m' := by
  refine ⟨h.toFresh.of_changed new changed, ?_⟩
  unfold descriptor?
  rw [changed.descriptors]
  exact h.openNew

/-! ## Calls that keep an invariant -/

variable {invariant : Machine → Prop} {c : Call} {next : c.Reply → Program α}

theorem keeps_quiet (quiet : c.changesTree = false) (ofTree : OfTree before invariant)
    (onward : ∀ r, (next r).Keeps (Disturbed spared) (adding before) invariant) :
    (call c next).Keeps (Disturbed spared) (adding before) invariant :=
  .quiet quiet ofTree.adds ofTree.same onward

theorem keeps_still (quiet : c.changesTree = false) (still : c.changesFiles = false)
    (ofFiles : OfFiles before invariant)
    (onward : ∀ r, (next r).Keeps (Disturbed spared) (adding before) invariant) :
    (call c next).Keeps (Disturbed spared) (adding before) invariant :=
  .still quiet still ofFiles.adds ofFiles.same onward

/-- Noting an event keeps every invariant of the tree and the open files. -/
theorem keeps_log (ofFiles : OfFiles before invariant) (level : Level) (event : String)
    (details : List (String × Detail)) :
    (log level event details).Keeps (Disturbed spared) (adding before) invariant :=
  keeps_still rfl rfl ofFiles .done

/-! ## Directories and links -/

/-- Making a directory changes the new one only. -/
theorem directoryCalls (path : String) (uid gid mode : Int) :
    DirectoryCalls (Disturbed spared) (adding before) (Adds before) (Fresh before true path)
      path uid gid mode where
  note := keeps_log Adds.ofFiles
  stat := keeps_quiet rfl Adds.ofTree Keeps.ofExcept
  umask := fun _ => keeps_still rfl rfl Adds.ofFiles Keeps.ofExcept
  umaskNew := fun _ => keeps_still rfl rfl Fresh.ofTree.ofFiles Keeps.ofExcept
  mkdir := by
    refine fun m h => meets_mkdir h (fun m' done => ?_) fun f => ⟨h, fun _ bad => by cases bad⟩
    obtain ⟨s, made⟩ := mkdir_ok done
    have fresh : Fresh before true path m' :=
      Fresh.of_created h made (.inl (by simp)) fun _ => ⟨_, _, rfl⟩
    exact ⟨fresh.grows, fun _ _ => fresh⟩
  chown := by
    refine fun m h => meets_chown h.grows (fun m' done => ?_) fun _ => h
    obtain ⟨i, above, leads, changed⟩ := chown_ok done
    exact h.of_changed (h.new _ leads) changed
  leave := fun _ h => h.grows

/-- Making a link changes the new one only, and not what it leads to. -/
theorem linkCalls (path : String) (uid gid : Int) (target : String) :
    LinkCalls (Disturbed spared) (adding before) (Adds before) (Fresh before false path) path uid
      gid target where
  note := keeps_log Adds.ofFiles
  symlink := by
    refine fun m h => meets_symlink h (fun m' done => ?_) fun f =>
      ⟨h, fun _ bad => by cases bad⟩
    obtain ⟨bare, s, made⟩ := symlink_ok done
    have fresh : Fresh before false path m' :=
      Fresh.of_created h made (.inr ⟨rfl, bare⟩) fun ends => by rw [bare] at ends; cases ends
    exact ⟨fresh.grows, fun _ _ => fresh⟩
  lchown := by
    refine fun m h => meets_lchown h.grows (fun m' done => ?_) fun _ => h
    obtain ⟨i, above, leads, changed⟩ := chown_ok done
    exact h.of_changed (h.new _ leads) changed
  leave := fun _ h => h.grows

/-! ## Files -/

/-- A file that was just created is open, and both its path and its descriptor lead to it. -/
theorem FreshFile.of_openExclusive {m m' : Machine} {mode : Int} (h : Adds before m)
    (done : m.openExclusive path mode = .ok (number, m')) : FreshFile before number path m' := by
  obtain ⟨bare, s, created, made, opened⟩ := openExclusive_ok done
  have fresh : Fresh before true path created :=
    Fresh.of_created h made (.inl (by simp)) fun ends => by rw [bare] at ends; cases ends
  have own : number = (created.opened path m.tree.nextPlace).1 := congrArg Prod.fst opened
  have after : m' = (created.opened path m.tree.nextPlace).2 := congrArg Prod.snd opened
  subst own after
  refine ⟨fresh.same created _ rfl rfl, fun i found => ?_⟩
  rw [descriptor?_opened] at found
  cases found
  exact new_of_grows h

/-- Filling a new file changes no other one. -/
theorem FreshFile.fileCalls (reading mode : Int) :
    FileCalls (Disturbed spared) (adding before) (FreshFile before number path) reading number
      path mode where
  note := keeps_log FreshFile.ofFiles
  read := by
    refine fun size m h => meets_read h.grows (fun bytes m' done => ?_) fun _ => h
    obtain ⟨tree, current, still⟩ := read_ok done
    refine ⟨h.toFresh.same m m' tree current, fun i found => h.openNew i ?_⟩
    rw [← still]
    exact found
  write := by
    refine fun bytes m h => meets_write h.grows (fun written m' done => ?_) fun _ => h
    obtain ⟨d, found, _, changed⟩ := write_ok done
    have here : (m.descriptor? number).map Descriptor.node = some d.node := by
      rw [openFile_eq_ok.mp found]
      rfl
    exact h.of_changed (h.openNew d.node here) changed
  pause := keeps_still rfl rfl FreshFile.ofFiles Keeps.ofExcept
  truncate := by
    refine fun m h => meets_truncate h.grows (fun m' done => ?_) fun _ => h
    obtain ⟨i, above, leads, changed⟩ := truncate_ok done
    exact h.of_changed (h.new _ leads) changed
  chown := by
    refine fun uid gid m h => meets_chown h.grows (fun m' done => ?_) fun _ => h
    obtain ⟨i, above, leads, changed⟩ := chown_ok done
    exact h.of_changed (h.new _ leads) changed
  chmod := by
    refine fun m h => meets_chmod h.grows (fun m' done => ?_) fun _ => h
    obtain ⟨i, above, leads, changed⟩ := chmod_ok done
    exact h.of_changed (h.new _ leads) changed

theorem copyCalls (source path : String) (mode : Int) :
    CopyCalls (Disturbed spared) (adding before) (Adds before)
      (fun number => FreshFile before number path) source path mode where
  note := keeps_log Adds.ofFiles
  openRead := keeps_quiet rfl Adds.ofTree Keeps.ofExcept
  close := fun _ => keeps_quiet rfl Adds.ofTree Keeps.ofExcept
  openExclusive := by
    refine fun m h => meets_openExclusive h (fun writing m' done => ?_) fun f =>
      ⟨h, fun _ bad => by cases bad⟩
    have fresh := FreshFile.of_openExclusive h done
    exact ⟨fresh.grows, fun _ same => by cases same; exact fresh⟩
  file := fun reading _ => FreshFile.fileCalls reading mode
  leave := fun _ _ h => h.grows

/-! ## Requests -/

/-- Names are only added by every part of a request. -/
theorem requestParts : RequestParts (Disturbed spared) (adding before) (Adds before) where
  note := keeps_log Adds.ofFiles
  stat := fun _ => keeps_quiet rfl Adds.ofTree Keeps.ofExcept
  lstat := fun _ => keeps_quiet rfl Adds.ofTree Keeps.ofExcept
  list := fun _ => keeps_quiet rfl Adds.ofTree Keeps.ofExcept
  readlink := fun _ => keeps_quiet rfl Adds.ofTree Keeps.ofExcept
  pause := keeps_quiet rfl Adds.ofTree Keeps.ofExcept
  directory := fun path uid gid mode => (directoryCalls path uid gid mode).ensureDirectory
  file := fun c source path mode => (copyCalls source path mode).copyFile c
  link := fun c target path => (linkCalls path c.uid c.gid target).placeLink

theorem keeps_elevated {body : Program α}
    (h : body.Keeps (Disturbed spared) (adding before) (Adds before)) :
    (elevated body).Keeps (Disturbed spared) (adding before) (Adds before) :=
  Keeps.bind (keeps_quiet rfl Adds.ofTree Keeps.ofExcept) fun _ =>
    h.ensuring (keeps_quiet rfl Adds.ofTree Keeps.ofExcept)

theorem keeps_provision (r : Request) (user : String) (chunkSize : Option Int) (limits : Limits) :
    (provision r user chunkSize limits).Keeps (Disturbed spared) (adding before) (Adds before) := by
  refine (keeps_elevated (requestParts.establishHome r user chunkSize limits)).bind fun outcome => ?_
  dsimp only
  split
  · exact (keeps_log Adds.ofFiles _ _ _).bind fun _ => .done _
  · exact .done _

/-! ## Privileges -/

section

variable {m : Machine} (start : Adds before m)
include start

/-- Changing the identity leaves every file alone. -/
theorem Adds.identity : OfFiles before (SameFiles m) :=
  ⟨fun _ same => start.sameFiles same, fun _ _ step same => same.trans step⟩

theorem keeps_switchUid (current wanted : Int) :
    (Controller.switchUid current wanted).Keeps (Disturbed spared) (adding before)
      (SameFiles m) := by
  unfold Controller.switchUid
  split
  · exact .done _
  · exact (keeps_still rfl rfl start.identity Keeps.ofExcept).outcome

theorem keeps_switchGid (current wanted : Int) :
    (Controller.switchGid current wanted).Keeps (Disturbed spared) (adding before)
      (SameFiles m) := by
  unfold Controller.switchGid
  split
  · exact .done _
  · exact (keeps_still rfl rfl start.identity Keeps.ofExcept).outcome

theorem keeps_takeOver :
    Controller.takeOver.Keeps (Disturbed spared) (adding before) (SameFiles m) := by
  refine keeps_still rfl rfl start.identity fun uid =>
    keeps_still rfl rfl start.identity fun gid => (keeps_switchUid start uid 0).bind
      fun switched => ?_
  cases switched with
  | error f => exact .done _
  | ok _ =>
    refine (keeps_switchGid start gid 0).bind fun switched => ?_
    cases switched with
    | ok _ => exact .done _
    | error f =>
      cases f with
      | system e =>
        refine (keeps_switchUid start 0 uid).bind fun back => ?_
        cases back <;> exact .done _
      | _ => exact .done _

theorem keeps_giveBack (uid gid : Int) :
    (Controller.giveBack uid gid).Keeps (Disturbed spared) (adding before) (SameFiles m) := by
  refine keeps_still rfl rfl start.identity fun current =>
    (keeps_switchGid start current gid).bind fun switched => ?_
  cases switched with
  | error f => exact .done _
  | ok _ =>
    exact keeps_still rfl rfl start.identity fun current => keeps_switchUid start current uid

theorem keeps_elevate (c : Controller) :
    c.elevate.Keeps (Disturbed spared) (adding before) (SameFiles m) := by
  unfold Controller.elevate
  split
  · exact keeps_takeOver start
  · exact .done _
  · exact .done _

theorem keeps_relinquish (c : Controller) :
    c.relinquish.Keeps (Disturbed spared) (adding before) (SameFiles m) := by
  unfold Controller.relinquish
  split
  · exact .done _
  · exact (keeps_giveBack start _ _).bind fun _ => .done _
  · exact .done _
  · exact .done _

end

/-- What is kept at every call and at the end is true at the start. -/
theorem Adds.of_meets {body : Program α} {m : Machine}
    (h : body.Meets (Disturbed spared) (adding before) (fun _ => Adds before) m) :
    Adds before m := by
  cases body with
  | done a => exact h
  | raise f => exact h
  | call c next => exact h.1

/-- What a program keeps whatever the privilege controller answers, it keeps when a given controller
does its work, since that changes no file. -/
theorem meets_under {body : Program α} {c : Controller} {m : Machine}
    (h : body.Meets (Disturbed spared) (adding before) (fun _ => Adds before) m) :
    (under c body).Meets (Disturbed spared) (adding before) (fun _ => Adds before) m := by
  have start := Adds.of_meets h
  induction body generalizing c m with
  | done a => exact h
  | raise f => exact h
  | call other next ih =>
    have onward : ∀ r m' c, Disturbed spared other m r m' →
        (under c (next r)).Meets (Disturbed spared) (adding before) (fun _ => Adds before) m' :=
      fun r m' c step => ih r (h.2 r m' step) (Adds.of_meets (h.2 r m' step))
    -- an answer of the privilege controller is one that the world could have given
    cases other with
    | elevate =>
      exact (keeps_elevate start c m (.refl m)).bind
        (fun r m' same => onward r.1 m' r.2 (.foreign (c := .elevate) r.1 rfl same))
        fun _ _ same => start.sameFiles same
    | relinquish =>
      exact (keeps_relinquish start c m (.refl m)).bind
        (fun r m' same => onward r.1 m' r.2 (.foreign (c := .relinquish) r.1 rfl same))
        fun _ _ same => start.sameFiles same
    | _ => exact ⟨start, fun r m' step => onward r m' c step⟩

theorem keeps_withPrivileges (p : Privileges) {body : Program α}
    (h : body.Keeps (Disturbed spared) (adding before) (Adds before)) :
    (withPrivileges p body).Keeps (Disturbed spared) (adding before) (Adds before) := by
  have running : ∀ c : Controller, ((under c body).bind fun r => ofExcept r.1).Keeps
      (Disturbed spared) (adding before) (Adds before) :=
    fun c => Keeps.bind (fun m start => meets_under (h m start)) fun r => .ofExcept r.1
  cases p with
  | world => exact h
  | fresh c => exact running c
  | automatic =>
    refine Keeps.bind (keeps_still rfl rfl Adds.ofFiles fun uid => ?_) running
    change Keeps _ _ _ (if _ then _ else _)
    split
    · exact .done _
    · exact (keeps_log Adds.ofFiles _ _ _).bind fun _ => .done _

/-- Provisioning only adds. Whatever calls fail, and however it ends, the tree afterwards has every
node that it had, unchanged except for further names in directories, and every path that led to a
node leads to it still. -/
theorem provision_grows {world : Layer σ} {view : σ → Machine}
    (keeps : world.KeepsTo (Disturbed fun _ => False) view) (p : Privileges) (r : Request)
    (user : String) (chunkSize : Option Int) (limits : Limits) {s s' : σ}
    {outcome : Except Fault ProvisionResult}
    (ends : (withPrivileges p (provision r user chunkSize limits)).run world s = (outcome, s')) :
    (view s).tree.Grows (view s').tree ∧
      ∀ current follow path place, (view s).tree.node? place.node ≠ none →
        (view s).tree.resolve current follow path = .ok place →
          (view s').tree.resolve current follow path = .ok place := by
  have kept : (withPrivileges p (provision r user chunkSize limits)).Keeps
      (Disturbed fun _ => False) (adding (view s).tree) (Adds (view s).tree) :=
    keeps_withPrivileges p (keeps_provision r user chunkSize limits)
  have grows := Meets.run keeps (kept (view s) (Tree.Grows.refl _))
  rw [ends] at grows
  exact ⟨grows, fun current follow path place there leads => Tree.Grows.resolve grows there leads⟩

/-- A home is created where no owner can be changed. -/
theorem provision_grows_without_owners :
    sample.tree.Grows ((withPrivileges .automatic
      (provision { target := "/home/u", ownerUid := 7, ownerGid := 7, skeleton := some "/skel" }
        "u")).run (refusing givesAway (refusedDescriptor .notPermitted)) sample).2.tree :=
  (provision_grows (refusing_keepsTo fun _ _ h => h) .automatic _ "u" none {} (Prod.eta _).symm).1

end HomeProvision.Program
