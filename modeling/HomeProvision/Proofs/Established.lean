import HomeProvision.Proofs.Extension
import HomeProvision.Proofs.Places
import HomeProvision.Proofs.Reported

/-!
# What success says of a home

A request succeeds if a look at its target goes well in the end. The look does not tell what is
there. On the way to a home directories are made and nothing else, so that a target which is new is
a directory. But a file or a pipe that was at the target before is taken for a home as it is
(`provision_stands`, `provision_stands_file`).

All this holds on disturbed machines, too: a call that fails adds nothing.
-/

namespace HomeProvision

namespace Machine

variable {spared : Call → Prop} {m m' : Machine} {start : Tree} {path : String} {c : Call}
  {r : c.Reply} {i : Nat} {n : Node}

/-- Whether everything that is new in a tree is a directory. -/
def Tree.AddsDirectories (t t' : Tree) : Prop :=
  t.Adds (·.isDirectory = true) t'

/-- A step of the way adds nothing but directories. -/
theorem Tree.AddsDirectories.step (h : start.AddsDirectories m.tree)
    (moves : Disturbed spared c m r m') (step : c.isStep = true) :
    start.AddsDirectories m'.tree := by
  have kept : m'.tree = m.tree → start.AddsDirectories m'.tree := fun same => same ▸ h
  by_cases quiet : c.changesTree = false
  · exact kept (Program.sameTree_of_disturbed moves quiet).1
  cases moves with
  | failed => exact h
  | foreign _ _ same => exact kept same.tree
  | answered =>
    cases c with
    | mkdir path mode =>
      simp only [reply]
      cases done : m.mkdir path mode with
      | error f => exact h
      | ok made =>
        obtain ⟨s, created⟩ := mkdir_ok done
        change start.AddsDirectories made.tree
        rw [created.tree]
        exact Adds.create h (lt_of_isDirectory created.isDirectory) rfl fun n f directory =>
          (n.mapEntries_isDirectory f).trans directory
    | chown path uid gid =>
      simp only [reply]
      cases done : m.chown true path uid gid with
      | error f => exact h
      | ok changed =>
        obtain ⟨i, _, _, change⟩ := chown_ok done
        change start.AddsDirectories changed.tree
        rw [change.tree]
        exact Adds.modify h i fun _ directory => directory
    | stat | umask | log | pause => exact absurd rfl quiet
    | _ => cases step

/-- What is found at a path is found there later. -/
theorem Since.find (later : Since m m') (found : m.find true path = .ok (i, n)) :
    ∃ n', m'.find true path = .ok (i, n') ∧ n'.isDirectory = n.isDirectory := by
  obtain ⟨⟨above, leads⟩, here⟩ := find_ok found
  obtain ⟨n', here', _, directory⟩ := later.node i n here
  have leads' := later.resolve true path ⟨i, above⟩ (by simp [here]) leads
  rw [← later.current] at leads'
  exact ⟨n', find_eq_ok (find_valid found) leads' here', directory⟩

/-- Whether a path leads to a directory, or to a node that was in a tree before. -/
def Established (start : Tree) (path : String) (m : Machine) : Prop :=
  ∃ i n, m.find true path = .ok (i, n) ∧ (n.isDirectory = true ∨ start.node? i ≠ none)

theorem Established.since (h : Established start path m) (later : Since m m') :
    Established start path m' := by
  obtain ⟨i, n, found, either⟩ := h
  obtain ⟨n', found', directory⟩ := later.find found
  exact ⟨i, n', found', either.imp_left directory.trans⟩

theorem Tree.AddsDirectories.established (h : start.AddsDirectories m.tree)
    (found : m.find true path = .ok (i, n)) : Established start path m := by
  refine ⟨i, n, found, ?_⟩
  cases old : start.node? i with
  | none => exact .inl (h i n (find_ok found).2 old)
  | some _ => exact .inr (by simp)

end Machine

namespace Program

open Machine

variable {α β : Type} {spared : Call → Prop} {m : Machine} {start : Tree} {path : String}

/-- What lasts as long as the machine runs is kept by every program. -/
theorem keeps_lasting {kept : Machine → Prop} (lasts : ∀ m m', Since m m' → kept m → kept m')
    (p : Program α) : p.Keeps (Disturbed spared) (fun _ _ => True) kept := by
  intro m h
  induction p generalizing m with
  | done a => exact h
  | raise f => exact h
  | call c next ih =>
    exact ⟨trivial, fun r m' moves => ih r m' (lasts m m' (.of_disturbed moves) h)⟩

theorem meets_anything (p : Program α) (m : Machine) :
    p.Meets (Disturbed spared) (fun _ _ => True) (fun _ _ => True) m :=
  keeps_lasting (fun _ _ _ h => h) p m trivial

/-- A look that goes well finds something. -/
theorem exists?_finds (path : String) (m : Machine) :
    (exists? path).Meets (Disturbed spared) (fun _ _ => True)
      (fun out m' => out = .ok true → ∃ i n, m'.find true path = .ok (i, n)) m := by
  have looked : (stat path).Meets (Disturbed spared) (fun _ _ => True)
      (fun out m' => ∀ status, out = .ok status → ∃ i n, m'.find true path = .ok (i, n)) m := by
    refine meets_call_of rfl trivial ?_ fun _ _ =>
      meets_of_fault fun _ _ bad => by cases bad
    refine meets_ofExcept.mpr fun status same => ?_
    obtain ⟨⟨i, n⟩, found, _⟩ := bind_eq_ok.mp same
    exact ⟨i, n, found⟩
  exact looked.attempt (fun status _ found _ => found status rfl) (fun _ _ _ bad => by cases bad)
    fun _ _ _ _ bad => by cases bad

theorem ensurePath_finds (path user : String) (uid gid intermediateMode finalMode : Int)
    (m : Machine) :
    (ensurePath path user uid gid intermediateMode finalMode).Meets (Disturbed spared)
      (fun _ _ => True)
      (fun out m' => ∀ result, out = .ok result → result.success = true →
        ∃ i n, m'.find true path = .ok (i, n)) m := by
  have lasts : ∀ m m', Since m m' → (∃ i n, m.find true path = .ok (i, n)) →
      ∃ i n, m'.find true path = .ok (i, n) := by
    rintro m m' later ⟨i, n, found⟩
    obtain ⟨n', found', _⟩ := later.find found
    exact ⟨i, n', found'⟩
  refine ensurePath_succeeds (fun _ => True)
    ((exists?_finds path m).mono fun _ _ found there same => ⟨fun good => ?_, fun _ => trivial⟩)
    (fun _ _ => keeps_lasting (fun _ _ _ h => h) _)
    (fun m₂ _ => (meets_anything _ m₂).mono fun _ _ _ _ _ => trivial)
    (fun _ m₃ _ => exists?_finds path m₃) (fun _ _ => keeps_lasting lasts _)
  exact found (same.trans (congrArg _ good))

theorem ensurePath_establishes (path user : String) (uid gid intermediateMode finalMode : Int)
    (h : start.AddsDirectories m.tree) :
    (ensurePath path user uid gid intermediateMode finalMode).Meets (Disturbed spared)
      (fun _ _ => True)
      (fun out m' => ∀ result, out = .ok result → result.success = true →
        Established start path m') m := by
  have way : WayParts (Disturbed spared) (fun _ _ => True)
      (fun m : Machine => start.AddsDirectories m.tree) _ fun _ => True :=
    .of_calls fun c _ step _ h => ⟨trivial, fun _ _ moves => h.step moves step⟩
  have adds : (ensurePath path user uid gid intermediateMode finalMode).Keeps (Disturbed spared)
      (fun _ _ => True) fun m => start.AddsDirectories m.tree :=
    (way.ensurePath trivial (fun _ _ => trivial) user uid gid intermediateMode finalMode).keeps
  have finds : (ensurePath path user uid gid intermediateMode finalMode).Meets (Disturbed spared)
      (fun _ _ => True) _ m := ensurePath_finds path user uid gid intermediateMode finalMode m
  refine ((finds.both (adds m h)).guarded fun _ _ _ => trivial).mono
    fun _ m' reached result same good => ?_
  obtain ⟨i, n, found⟩ := reached.1 result same good
  exact reached.2.established found

/-! ## Requests -/

/-- Whether a target is established, if an outcome is a success. -/
def Grounded (start : Tree) (target : String) (outcome : ProvisionOutcome) (m : Machine) : Prop :=
  (ProvisionResult.mk target outcome).success = true → Established start target m

section

variable (r : Request) (user : String) (chunkSize : Option Int) (limits : Limits)

theorem establishHome_establishes (h : start.AddsDirectories m.tree) :
    (establishHome r user chunkSize limits).Meets (Disturbed spared) (fun _ _ => True)
      (fun out m' => ∀ outcome, out = .ok outcome → Grounded start r.target outcome m') m := by
  refine (ensurePath_establishes r.target user r.ownerUid r.ownerGid r.intermediateMode.toInt
    r.finalMode.toInt h).onward fun step m₁ reached => ?_
  split
  · next good =>
    refine (keeps_lasting (fun _ _ later h => Established.since h later) _ m₁
      (reached step rfl good)).mono fun _ _ established _ _ _ => established
  · refine (meets_anything (log _ _ _) m₁).onward fun _ m₂ _ outcome same good => ?_
    cases same
    cases good

theorem provision_establishes (m : Machine) :
    (provision r user chunkSize limits).Meets (Disturbed spared) (fun _ _ => True)
      (fun out m' => ∀ result, out = .ok result → result.success = true →
        Established m.tree r.target m') m := by
  have lasts : ∀ {outcome : Except Fault ProvisionOutcome} m₁ m₂, Since m₁ m₂ →
      (∀ a, outcome = .ok a → Grounded m.tree r.target a m₁) →
        ∀ a, outcome = .ok a → Grounded m.tree r.target a m₂ :=
    fun _ _ later h a same good => (h a same good).since later
  rw [provision_eq]
  have opened : (call .elevate ofExcept : Program Unit).Meets (Disturbed spared) (fun _ _ => True)
      (fun _ m' => m.tree.AddsDirectories m'.tree) m := by
    refine ⟨trivial, fun r m' moves => meets_ofExcept.mpr ?_⟩
    rw [(sameTree_of_disturbed moves rfl).1]
    exact Tree.Adds.refl _ _
  have worked : (elevated (establishHome r user chunkSize limits)).Meets (Disturbed spared)
      (fun _ _ => True)
      (fun out m' => ∀ outcome, out = .ok outcome → Grounded m.tree r.target outcome m') m := by
    refine opened.onward fun _ m₁ adds => ?_
    exact (establishHome_establishes r user chunkSize limits adds).ensuring_lasting
      fun out m₂ grounded => keeps_lasting lasts _ m₂ grounded
  refine worked.onward fun outcome m₁ grounded => ?_
  cases outcome with
  | ready report =>
    refine (keeps_lasting lasts _ m₁ grounded).mono fun _ _ grounded _ _ _ => ?_
    exact grounded _ rfl rfl
  | skipped => exact fun _ _ _ => grounded _ rfl rfl
  | failed kind message =>
    intro result same good
    cases same
    cases good

/-- A request that succeeds leaves a directory at its target, or something that was there before. -/
theorem provision_stands {σ : Type} {world : Layer σ} {view : σ → Machine}
    (keeps : world.KeepsTo (Disturbed spared) view) {s s' : σ} {result : ProvisionResult}
    (ends : (provision r user chunkSize limits).run world s = (.ok result, s'))
    (good : result.success = true) : Established (view s).tree r.target (view s') := by
  have established := Meets.run keeps (provision_establishes r user chunkSize limits (view s))
  rw [ends] at established
  exact established result rfl good

end

/-- A file at the target is taken for a home. -/
theorem provision_stands_file :
    let home :=
      (provision { target := "/skel/f", ownerUid := 7, ownerGid := 7 } "f").run layer sample
    home.1 = .ok ⟨"/skel/f", .ready none⟩ ∧ Established sample.tree "/skel/f" home.2 ∧
      (home.2.find true "/skel/f").toOption.map (·.2.body) = some (.file [104, 105]) := by
  intro home
  have ends : home.1 = .ok ⟨"/skel/f", .ready none⟩ := by decide +kernel
  have run : home = (.ok ⟨"/skel/f", .ready none⟩, home.2) := Prod.ext ends rfl
  exact ⟨ends, provision_stands _ _ _ _ (layer_keepsTo fun _ => True) run rfl, by decide +kernel⟩

end Program

end HomeProvision
