import HomeProvision.Proofs.Additive
import HomeProvision.Proofs.Approach
import HomeProvision.Proofs.Reported
import HomeProvision.Proofs.Retraced

/-!
# Provisioning again

A request that has succeeded may be carried out any number of times. Each run succeeds, it leaves
the tree as the first one has left it, and its report refuses the files and links that the first run
has copied (`provision_idempotent`).

For this the skeleton and the home must have no directory in common but what is below the home
(`Parted`). Where the home was there before, the request says so (`Outside`). Where it was made, it
is empty when the clone starts, wherever it lies (`Readied.parted`), so that the skeleton may contain
it: the first walk passes over the home, and so does each later one.
-/

namespace HomeProvision

open Relation

namespace Machine

variable {m m' f : Machine} {origin home : Option Nat} {d o : Nat} {path : String}

theorem Untroubled.disturbed {spared : Call → Prop} {c : Call} {r : c.Reply}
    (step : Untroubled c m r m') : Disturbed spared c m r m' := by
  cases step.1 with
  | answered => exact .answered c m
  | failed _ exposed => exact absurd trivial exposed
  | foreign _ foreign same => exact .foreign r foreign same

/-- A path that leads to a node leads to it later, too. -/
theorem Since.statusOf {status : Status} (later : Since m f)
    (looked : m.statusOf true path = .ok status) :
    ∃ status', f.statusOf true path = .ok status' ∧ status'.identity = status.identity := by
  have found := later.toEvolves.identityAt (identityAt_of_stat looked)
  rw [statusOf_eq]
  unfold Machine.identityAt at found
  split at found
  · next i n there =>
    rw [there]
    exact ⟨n.status, rfl, Option.some.inj found⟩
  · cases found

theorem nonempty_of_statusOf {status : Status} (looked : m.statusOf true path = .ok status) :
    path ≠ "" := by
  obtain ⟨⟨i, n⟩, found, _⟩ := bind_eq_ok.mp looked
  obtain ⟨⟨above, leads⟩, _⟩ := find_ok found
  obtain ⟨_, valid, _⟩ := bind_eq_ok.mp leads
  exact Tree.nonempty_of_checkPath valid

/-- In a plain tree one way leads to a directory. Unless the source is inside the home, what is
reached from both of them is reached from the source through the home. -/
theorem Tree.Plain.apart {t : Tree} (plain : t.Plain)
    (outside : ∀ o d, origin = some o → home = some d → ¬ ReflTransGen (t.Holds none) d o) :
    t.Apart origin home := by
  rintro i d ⟨-, o, own, way⟩ here below
  induction way with
  | refl => exact outside o d own here below
  | @tail j i _ holds ih =>
    rcases below.cases_tail with rfl | ⟨j', below, holds'⟩
    · exact holds.2.2 here
    · cases holds.unique plain.single holds'
      exact ih below

end Machine

namespace Program

open Machine CloneReport

variable {α : Type} {start m m' f : Machine} {source dest path : String}

theorem Leaves.same {p : Program α} {good : Except Fault α → Prop} (h : p.Leaves f good)
    (same : SameTree f m) : p.Leaves m good :=
  fun m' same' => (h m' (same.trans same')).mono fun _ _ reached =>
    ⟨same.symm.trans reached.1, reached.2⟩

/-! ## Clones -/

theorem cloneNames_leaves_dots {w : Walk}
    {descend : String → String → List Identity → Program WalkState} {listed : List String}
    (dots : ∀ name ∈ listed, name = "." ∨ name = "..") (state : WalkState) :
    (cloneNames w descend source dest listed state).Leaves f (· = .ok state) := by
  induction listed with
  | nil => exact .done rfl
  | cons name rest ih =>
    refine Leaves.pause.surely ?_
    have dot : (name = "." || name = "..") = true := by simpa using dots name List.mem_cons_self
    rw [if_pos dot]
    exact ih fun n mem => dots n (List.mem_cons_of_mem _ mem)

/-- A walk whose source cannot be opened, or lists no names, makes an empty report. -/
theorem cloneDirectory_empty (w : Walk) (depth : Nat) (source dest : String)
    (entered : List Identity) {seen : Except Fault (Status × List String)}
    (dots : ∀ opened, seen = .ok opened → ∀ name ∈ opened.2, name = "." ∨ name = "..") :
    ∃ out, (∀ state, out = .ok state → ∃ outcome, state.1 = { outcome }) ∧
      ∀ f, opening f source = seen →
        (cloneDirectory w depth source dest entered).Leaves f (· = out) := by
  cases depth with
  | zero => exact ⟨.error .limit, fun _ bad => (by cases bad), fun _ _ => .raise rfl⟩
  | succ depth =>
    have opens : ∀ f, opening f source = seen → (attempt (do
        let status ← stat source
        return (status, ← list source) : Program (Status × List String))).Leaves f
        (· = attempted seen) :=
      fun f same => same ▸ (opening_leaves f source).attempt
    cases outcome : attempted seen with
    | error g =>
      refine ⟨.error g, fun _ bad => (by cases bad), fun f same => ?_⟩
      refine (opens f same).bind (fun _ here => ?_) fun _ here => ?_
      · cases here.trans outcome
      · cases here.trans outcome
        rfl
    | ok result =>
      have opens := fun f same => (opens f same).mono fun _ here => here.trans outcome
      cases result with
      | ok opened =>
        refine ⟨.ok ({ outcome := .ok (some source) }, opened.1.identity :: entered),
          fun _ same => (by cases same; exact ⟨_, rfl⟩), fun f same => (opens f same).surely ?_⟩
        exact cloneNames_leaves_dots (dots opened (attempted_eq_ok outcome)) _
      | error e =>
        refine ⟨.ok ({ outcome := .failure .openFile source e.message }, entered),
          fun _ same => (by cases same; exact ⟨_, rfl⟩), fun f same => (opens f same).surely ?_⟩
        exact (Leaves.log _ _ _).surely (.done rfl)

/-- A clone whose destination stands walks. -/
theorem clone_leaves {c : Cloner} {status : Status} {good : Except Fault CloneReport → Prop}
    (looked : f.statusOf true dest = .ok status)
    (walk : (cloneDirectory ⟨c, source, dest, some status.identity⟩ c.limits.depth source dest
      []).Leaves f fun out => good (out.map Prod.fst)) :
    (clone c source dest).Leaves f good := by
  rw [clone_begins]
  refine .call rfl rfl fun m same => ?_
  have reply : (m.reply (.stat dest)).1 = .ok status := same.statusOf.trans looked
  rw [reply]
  exact walk.bind (fun _ ended => .done ended) fun _ ended => ended

/-- Whether no directory is reached both from a source and from a destination, or nothing is in the
source. -/
def Parted (start : Machine) (source dest : String) : Prop :=
  start.tree.Apart (homeAt start source) (homeAt start dest) ∨
    ∀ o, homeAt start source = some o → start.tree.entries? o = some []

theorem Parted.same (h : Parted m source dest) (same : SameTree m m') : Parted m' source dest := by
  unfold Parted
  rw [same.homeAt, same.tree]
  exact h

section

variable (regular : start.tree.Regular) (plain : start.tree.Plain)
include regular

/-- In a clone names are added below the destination only. -/
theorem cloneTree_filled (full : dest ≠ "") (uid gid : Int) (chunkSize : Option Int)
    (limits : Limits) :
    (cloneTree source dest uid gid chunkSize limits).Meets Untroubled
      (fun _ => Filled start (homeAt start dest)) (fun _ => Filled start (homeAt start dest))
      start := by
  have inside : (cloneTree source dest uid gid chunkSize limits).Meets Untroubled
      (confining start.tree (homeAt start dest) source dest)
      (fun _ => Inside start.tree (homeAt start dest) dest []) start :=
    (Inside.keeps_clone full (fun path below => .inr ⟨path, below, rfl⟩)
      (Cloner.make uid gid chunkSize limits) start (.start regular)).of_guarded
        fun _ _ _ _ _ step => (step.disturbed : Disturbed (TellsPlace dest) _ _ _ _)
  have grows : (cloneTree source dest uid gid chunkSize limits).Meets Untroubled
      (adding start.tree) (fun _ => Adds start.tree) start :=
    (requestParts.cloneTree source dest uid gid chunkSize limits start (.refl _)).of_guarded
      fun _ _ _ _ _ step => (step.disturbed : Disturbed (fun _ => False) _ _ _ _)
  have lasts : (cloneTree source dest uid gid chunkSize limits).Meets Untroubled
      (fun _ => Since start) (fun _ => Since start) start :=
    .always (fun _ _ later since => since.trans later) (.refl start)
  have filled := inside.both (grows.both lasts)
  exact (filled.guarded fun _ _ h => ⟨h.2.2, h.2.1, h.1.2⟩).mono
    fun _ _ h => ⟨h.2.2, h.2.1, h.1.added⟩

/-- A source is apart from the destination and leads to a directory, or no names are read there. -/
theorem Parted.leads_or (side : Parted start source dest) :
    (start.tree.Apart (homeAt start source) (homeAt start dest) ∧
      LeadsBack start.tree (homeAt start source) (homeAt start dest) source start) ∨
    ∀ opened, opening start source = .ok opened → ∀ name ∈ opened.2, name = "." ∨ name = ".." := by
  refine or_iff_not_imp_right.mpr fun names => ?_
  simp only [not_forall] at names
  obtain ⟨opened, here, name, mem, entry⟩ := names
  obtain ⟨_, _, listing⟩ := bind_eq_ok.mp here
  obtain ⟨_, found, same⟩ := bind_eq_ok.mp listing
  cases same
  obtain ⟨p, leads⟩ := directoryAt_of_namesOf found
  have origin : homeAt start source = some p.node := by rw [homeAt, leads]; rfl
  rcases side with apart | bare
  · exact ⟨apart, p, leads, Tree.isDirectory_of_directoryAt leads, p.node, origin, .refl⟩
  · -- an empty directory lists no name
    rcases children_of_namesOf regular leads found name mem with dot | dot | ⟨_, _, child⟩
    · exact absurd (.inl dot) entry
    · exact absurd (.inr dot) entry
    · simp [Tree.child?, bare p.node origin] at child

include plain

variable {status : Status} (text : checkText dest = .ok ())
  (looked : start.statusOf true dest = .ok status) (side : Parted start source dest) (c : Cloner)
include text looked side

/-- What the walk of a clone has left is left by the same walk. -/
theorem cloneDirectory_repeats (depth : Nat) :
    (cloneDirectory ⟨c, source, dest, some status.identity⟩ depth source dest []).Meets
      (Cloning start (homeAt start dest)) (fun _ _ => True)
      (fun out m' => ∀ state, out = .ok state → Filled start (homeAt start dest) m' →
        (cloneDirectory ⟨c, source, dest, some status.identity⟩ depth source dest []).Leaves m'
          (Comes m' state)) start := by
  rcases side.leads_or regular with ⟨apart, back⟩ | empty
  · have revisits := cloneDirectory_revisits regular plain apart
      (w := ⟨c, source, dest, some status.identity⟩) (identity_of_status looked) depth source dest []
      start (nonempty_of_statusOf looked) text (.refl start) back (stands_of_statusOf looked)
    exact revisits.mono fun _ m' ended state same filled => ended state same m' (.refl m') filled
  · obtain ⟨out, empty, leaves⟩ :=
      cloneDirectory_empty ⟨c, source, dest, some status.identity⟩ depth source dest [] empty
    refine (leaves start rfl start (.refl start)).cloning.mono ?_
    rintro _ m' ⟨same, rfl⟩ state rfl _
    refine ((leaves start rfl).same same).mono ?_
    rintro _ rfl
    obtain ⟨outcome, own⟩ := empty state rfl
    exact ⟨state.1, rfl, own ▸ .start outcome⟩

theorem clone_repeats :
    (clone c source dest).Meets (Cloning start (homeAt start dest)) (fun _ _ => True)
      (fun out m' => ∀ report, out = .ok report → Filled start (homeAt start dest) m' →
        (clone c source dest).Leaves m' fun out =>
          ∃ again, out = .ok again ∧ Redone m'.kindAt report again) start := by
  nth_rewrite 1 [clone_begins]
  refine ⟨trivial, fun look m' step => ?_⟩
  obtain ⟨answer, same⟩ := step.2.answer rfl
  rw [answer.trans looked, show m' = start from same]
  refine (cloneDirectory_repeats regular plain text looked side c c.limits.depth).onward
    fun state m' ended report same filled => ?_
  cases same
  obtain ⟨status', looked', known⟩ := filled.since.statusOf looked
  refine clone_leaves looked' ?_
  rw [known]
  refine (ended state rfl filled).mono ?_
  rintro _ ⟨again, rfl, redone⟩
  exact ⟨again, rfl, redone⟩

end

/-! ## Requests -/

variable {status : Status}

/-- Whether the skeleton of a request is neither its target nor inside it. -/
def Outside (r : Request) (m : Machine) : Prop :=
  ∀ source o d, r.skeleton = some source → homeAt m source = some o →
    homeAt m r.target = some d → ¬ ReflTransGen (m.tree.Holds none) d o

theorem Outside.same {r : Request} (h : Outside r m) (same : SameTree m m') : Outside r m' := by
  unfold Outside
  rw [same.homeAt, same.tree]
  exact h

/-- If the skeleton was not inside the home, or the home is empty, then they are parted. -/
theorem Readied.parted {r : Request} (h : Readied start r.target m) (plain : start.tree.Plain)
    (later : Since start m) (outside : Outside r start)
    (absolute : Path.isAbsolute r.target = true) {source : String}
    (own : r.skeleton = some source) : Parted m source r.target := by
  have plain := later.plain plain
  rcases h.approached with same | bare
  · refine .inl (plain.apart fun o d origin home => ?_)
    rw [same.tree]
    rw [same.homeAt] at origin home
    exact outside source o d own origin home
  by_cases only : ∀ o, homeAt m source = some o → homeAt m r.target = some o
  · exact .inr fun o here => bare.homeAt absolute (only o here)
  · refine .inl (plain.apart fun o d origin home way => only fun o' origin' => ?_)
    rw [origin] at origin'
    cases origin'
    rcases way.cases_head with rfl | ⟨k, ⟨⟨name, child⟩, _⟩, _⟩
    · exact home
    · simp [Tree.child?, bare.homeAt absolute home] at child

theorem noteReport_leaves (source : String) (report : CloneReport) :
    (noteReport source report).Leaves f (· = .ok (some report)) := by
  unfold noteReport
  split
  · exact (Leaves.log _ _ _).surely (.done rfl)
  · exact .done rfl

theorem conclude_leaves (r : Request) (user : String) (outcome : ProvisionOutcome) :
    (conclude r user outcome).Leaves f (· = .ok ⟨r.target, outcome⟩) := by
  cases outcome with
  | ready report => exact (Leaves.log _ _ _).surely (.done rfl)
  | _ => exact .done rfl

section

variable {r : Request} {user : String} {chunkSize : Option Int} {limits : Limits}

/-- Whether a request that ended as given leaves the tree when it is carried out again. -/
def Again (r : Request) (user : String) (chunkSize : Option Int) (limits : Limits)
    (out : Except Fault ProvisionOutcome) (m : Machine) : Prop :=
  ∀ outcome, out = .ok outcome → (∃ kind message, outcome = .failed kind message) ∨
    ∃ first, outcome = .ready first ∧
      (establishHome r user chunkSize limits).Leaves m fun out =>
        ∃ again, out = .ok (.ready again) ∧ Option.Rel (Redone m.kindAt) first again

theorem Again.same {out : Except Fault ProvisionOutcome} (h : Again r user chunkSize limits out m)
    (same : SameTree m m') : Again r user chunkSize limits out m' := by
  refine fun outcome here => (h outcome here).imp_right fun ready => ?_
  obtain ⟨first, known, leaves⟩ := ready
  refine ⟨first, known, ?_⟩
  rw [same.kindAt]
  exact leaves.same same

variable (chunkSize limits) (regular : m.tree.Regular) (plain : m.tree.Plain)
include regular plain

theorem fillHome_repeats (looked : m.statusOf true r.target = .ok status)
    (side : ∀ source, r.skeleton = some source → Parted m source r.target) :
    (fillHome r chunkSize limits).Meets Untroubled (fun _ _ => True)
      (fun out m' => ∀ first, out = .ok first →
        (fillHome r chunkSize limits).Leaves m' fun out =>
          ∃ again, out = .ok again ∧ Option.Rel (Redone m'.kindAt) first again) m := by
  by_cases bare : ∀ source, r.skeleton = some source → source = ""
  · rw [fillHome_eq_none bare]
    intro _ same
    cases same
    exact .done ⟨none, rfl, .none⟩
  simp only [not_forall] at bare
  obtain ⟨source, own, some⟩ := bare
  rw [fillHome_eq own some]
  refine (Leaves.log _ _ _).ahead fun m₁ same => ?_
  have looked := same.statusOf.trans looked
  have regular := same.since.regular regular
  obtain ⟨_, there, _⟩ := bind_eq_ok.mp looked
  have cloned := (cloneTree_filled regular (nonempty_of_statusOf looked)
    r.ownerUid r.ownerGid chunkSize limits).and (clone_repeats regular (same.since.plain plain)
      (find_valid there) looked ((side source own).same same)
      (Cloner.make r.ownerUid r.ownerGid chunkSize limits))
  refine (cloned.guarded fun _ _ _ => trivial).onward fun report m₂ ended => ?_
  refine (noteReport_leaves source report m₂ (.refl m₂)).mono fun _ m₃ noted first here => ?_
  cases here.symm.trans noted.2
  refine (Leaves.log _ _ _).surely ?_
  refine ((ended.2 report rfl ended.1).same noted.1).onward ?_
  rintro _ ⟨again, rfl, redone⟩
  refine ⟨again, rfl, (noteReport_leaves source again).mono fun _ out => ⟨_, out, .some ?_⟩⟩
  rw [noted.1.kindAt]
  exact redone

variable (absolute : Path.isAbsolute r.target = true)
  (ordinary : ∀ name ∈ Path.components r.target, Path.IsName name) (outside : Outside r m)
include absolute ordinary outside

theorem establishHome_repeats :
    (establishHome r user chunkSize limits).Meets Untroubled (fun _ _ => True)
      (Again r user chunkSize limits) m := by
  have found : (wayToHome r user).Meets Untroubled (fun _ _ => True)
      (fun out m' => (∀ result, out = .ok result → result.success = true →
        Readied m r.target m') ∧ Since m m') m :=
    (ensurePath_readies ordinary _ _ _ _ _ m).later
  refine found.onward fun result m₁ reached => ?_
  split
  · next good =>
    obtain ⟨readied, later⟩ := reached
    have readied := readied result rfl good
    obtain ⟨status, looked⟩ := readied.looks
    have filled := (fillHome_repeats chunkSize limits (later.regular regular) (later.plain plain) looked
      fun source own => readied.parted plain later outside absolute own).later
    refine filled.onward fun first m₂ ended outcome same => ?_
    cases same
    obtain ⟨repeats, since⟩ := ended
    obtain ⟨status, looked, _⟩ := since.statusOf looked
    refine .inr ⟨first, rfl, (ensurePath_leaves looked _ _ _ _ _).surely ?_⟩
    refine (repeats first rfl).onward ?_
    rintro _ ⟨again, rfl, redone⟩
    exact ⟨again, rfl, .done ⟨again, rfl, redone⟩⟩
  · refine (Leaves.log _ _ _).ahead fun _ _ _ same => ?_
    cases same
    exact .inl ⟨_, _, rfl⟩

/-- What a request that went well has left is left by the same request. -/
theorem provision_repeats :
    (provision r user chunkSize limits).Meets Untroubled (fun _ _ => True)
      (fun out m' => ∀ first, out = .ok first → first.success = true →
        (provision r user chunkSize limits).Leaves m' fun out => ∃ again, out = .ok again ∧
          again.success = true ∧ Option.Rel (Redone m'.kindAt) first.skeleton again.skeleton) m := by
  rw [provision_eq]
  have established : (elevated (establishHome r user chunkSize limits)).Meets Untroubled
      (fun _ _ => True) (Again r user chunkSize limits) m := by
    refine Leaves.elevate.ahead fun m₁ same => ?_
    refine (establishHome_repeats chunkSize limits (same.since.regular regular) (same.since.plain plain) absolute
      ordinary (outside.same same)).ensuring fun out m₂ ended => ?_
    refine (Leaves.relinquish m₂ (.refl m₂)).mono fun _ m₃ closed => ?_
    rw [closed.2]
    exact ended.same closed.1
  refine established.onward fun outcome m₁ ended => ?_
  refine (conclude_leaves r user outcome m₁ (.refl m₁)).mono fun _ m₂ done first same good => ?_
  cases same.symm.trans done.2
  rcases ended.same done.1 outcome rfl with ⟨_, _, rfl⟩ | ⟨first, rfl, leaves⟩
  · cases good
  have elevated : (elevated (establishHome r user chunkSize limits)).Leaves m₂ fun out =>
      ∃ again, out = .ok (.ready again) ∧ Option.Rel (Redone m₂.kindAt) first again :=
    Leaves.elevate.surely (leaves.ensuring Leaves.relinquish)
  refine elevated.onward ?_
  rintro _ ⟨again, rfl, redone⟩
  exact ⟨_, rfl, (conclude_leaves r user _).mono fun _ out => ⟨_, out, rfl, redone⟩⟩

end

/-- Provisioning is idempotent. After a request has succeeded, each further run of it succeeds,
leaves the tree as the first one has left it, and skips what the first one skipped. Of what the first
run copied the directories are copied again, and each file or link is refused at its path. -/
theorem provision_idempotent {σ : Type} {world : Layer σ} {view : σ → Machine}
    (keeps : world.KeepsTo Untroubled view) (r : Request) (user : String)
    (chunkSize : Option Int) (limits : Limits) {s s' : σ} {first : ProvisionResult}
    (regular : (view s).tree.Regular) (plain : (view s).tree.Plain)
    (absolute : Path.isAbsolute r.target = true)
    (ordinary : ∀ name ∈ Path.components r.target, Path.IsName name)
    (outside : Outside r (view s))
    (ends : (provision r user chunkSize limits).run world s = (.ok first, s'))
    (good : first.success = true) (n : Nat) :
    let run := (provision r user chunkSize limits).run world
    let last := (fun s => (run s).2)^[n] s'
    ∃ again, (run last).1 = .ok again ∧ again.success = true ∧
      (view (run last).2).tree = (view s').tree ∧
      ∀ report, first.skeleton = some report → ∃ report', again.skeleton = some report' ∧
        report'.skipped = report.skipped ∧ ∀ path ∈ report.copied,
          (view s').kindAt path = some .directory ∧ path ∈ report'.copied ∨
            report'.Denies (view s').kindAt path ∧ path ∉ report'.copied := by
  intro run last
  have repeats : (provision r user chunkSize limits).Meets _ _ _ (view s) :=
    provision_repeats chunkSize limits regular plain absolute ordinary outside
  have leaves := Meets.run keeps repeats
  rw [ends] at leaves
  have leaves := leaves first rfl good
  -- however often the request is repeated, the tree is the one that the first run has left
  have still : SameTree (view s') (view last) := by
    have all : ∀ n, SameTree (view s') (view ((fun s => (run s).2)^[n] s')) := by
      intro n
      induction n with
      | zero => exact .refl _
      | succ n ih =>
        rw [Function.iterate_succ_apply']
        exact (Meets.run keeps (leaves _ ih)).1
    exact all n
  obtain ⟨same, again, done, success, redone⟩ := Meets.run keeps (leaves _ still)
  refine ⟨again, done, success, same.tree, fun report skeleton => ?_⟩
  rw [skeleton] at redone
  cases shown : again.skeleton with
  | none => rw [shown] at redone; cases redone
  | some report' =>
    rw [shown] at redone
    cases redone with
    | some redone => exact ⟨report', rfl, redone.skipped, fun _ => redone.copied_or_denied⟩

/-- A request for a home inside its skeleton, carried out on a machine. -/
def provideInside : Machine → Except Fault ProvisionResult × Machine :=
  (provision { target := "/skel/u", ownerUid := 7, ownerGid := 7, skeleton := some "/skel" } "u"
    none { depth := 4, pieces := 4 }).run layer

/-- A home is made in its skeleton and filled, and then the request is carried out three more times.
At the end the home is passed over as before, and the file is refused that was copied at first. -/
theorem provision_idempotent_inside :
    (provideInside sample).1 = .ok ⟨"/skel/u", .ready (some
      { outcome := .ok (some "/skel"), copied := ["/skel/u/d", "/skel/u/f", "/skel/u/l"]
        skipped := ["/skel/u"] })⟩ ∧
    ∃ again report,
      (provideInside ((fun m => (provideInside m).2)^[2] (provideInside sample).2)).1 = .ok again ∧
      again.success = true ∧
      (provideInside ((fun m => (provideInside m).2)^[2] (provideInside sample).2)).2.tree =
        (provideInside sample).2.tree ∧
      again.skeleton = some report ∧ report.skipped = ["/skel/u"] ∧
      report.Denies (provideInside sample).2.kindAt "/skel/u/f" := by
  have ends : (provideInside sample).1 = .ok ⟨"/skel/u", .ready (some
      { outcome := .ok (some "/skel"), copied := ["/skel/u/d", "/skel/u/f", "/skel/u/l"]
        skipped := ["/skel/u"] })⟩ := by
    decide +kernel
  have file : (provideInside sample).2.kindAt "/skel/u/f" = some .regularFile := by decide +kernel
  have new : homeAt sample "/skel/u" = none := by decide
  refine ⟨ends, ?_⟩
  have run : provideInside sample = (_, (provideInside sample).2) := Prod.ext ends rfl
  -- from here on nothing is known of the machine but what the theorem says
  generalize (provideInside sample).2 = m at file run ⊢
  obtain ⟨again, done, success, still, reports⟩ := provision_idempotent layer_untroubled
    { target := "/skel/u", ownerUid := 7, ownerGid := 7, skeleton := some "/skel" } "u" none
    { depth := 4, pieces := 4 } (s := sample) sample_regular
    (.of_nodes (by decide) (by decide)) (by decide) (by decide)
    (fun _ _ _ _ _ home => by cases new.symm.trans home) run rfl 2
  simp only [id_eq] at still reports
  unfold provideInside
  obtain ⟨report, shown, skipped, copies⟩ := reports _ rfl
  refine ⟨again, report, done, success, still, shown, skipped, ?_⟩
  rcases copies "/skel/u/f" (by decide) with ⟨directory, _⟩ | ⟨denies, _⟩
  · cases file.symm.trans directory
  · exact denies

end Program

end HomeProvision
