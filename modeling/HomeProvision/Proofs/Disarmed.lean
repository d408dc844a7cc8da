import HomeProvision.Proofs.Modes
import HomeProvision.Proofs.Places
import HomeProvision.Proofs.Status
import HomeProvision.Proofs.Watched

/-!
# Copies lend no rights

A file with one of the set-ID bits lends the rights of its owner or its group to whoever runs it. A
clone never asks for these bits: a mode that it passes to a call is that of the entry which it
copies, as this was looked at last, without them, or that of a fresh file. So in a system that
grants only what is asked for, nothing that a clone creates has one of them, at any moment
(`cloneTree_disarms`). The calls may answer what they like and may fail.
-/

namespace HomeProvision

/-! ## Modes of copies -/

/-- Whether a path belongs to the skeleton as another one belongs to the destination. -/
inductive Corresponds (source dest : String) : String → String → Prop
  | top : Corresponds source dest source dest
  | entry {origin path : String} (name : String) (above : Corresponds source dest origin path) :
      Corresponds source dest (Path.join origin name) (Path.join path name)

/-- Whether the last look at an entry, apart from those at the path of its copy, showed a status. -/
def LastShown (origin path : String) (status : Status) (seen : List Exchange) : Prop :=
  ∃ before between, seen = before ++ ⟨.lstat origin, .ok status⟩ :: between ∧
    ∀ x ∈ between, ∀ p, x.call = .lstat p → p = path

/-- Whether a mode for a path of the destination is that of the entry of the skeleton, as it was
looked at last, without the set-ID bits. -/
def IsCopyMode (source dest : String) (seen : List Exchange) (path : String) (mode : Int) : Prop :=
  ∃ above below name status, Corresponds source dest above below ∧ path = Path.join below name ∧
    LastShown (Path.join above name) path status seen ∧
      mode = ((askedBits status.mode &&& 0o1777 : Nat) : Int)

/-- Whether a call may be made as far as its mode goes: directories and finished files have the mode
of their entry, new files are their owner's only. -/
def SetsMode (source dest : String) (seen : List Exchange) : Call → Prop
  | .mkdir path mode | .chmod path mode => IsCopyMode source dest seen path mode
  | .openExclusive path mode =>
      mode = 0o600 ∧ ∃ above below name, Corresponds source dest above below ∧
        path = Path.join below name
  | _ => True

/-- Whether a call asks for no set-ID bits. -/
def Call.IsHarmless (c : Call) : Prop :=
  ∀ mode, c.mode? = some mode → askedBits mode &&& 0o6000 = 0

variable {source dest origin path : String} {status : Status} {seen : List Exchange}

theorem LastShown.snoc {x : Exchange} (h : LastShown origin path status seen)
    (own : ∀ p, x.call = .lstat p → p = path) : LastShown origin path status (seen ++ [x]) := by
  obtain ⟨before, between, rfl, others⟩ := h
  refine ⟨before, between ++ [x], by simp, fun y mem => ?_⟩
  rcases List.mem_append.mp mem with mem | mem
  · exact others y mem
  · rw [List.mem_singleton.mp mem]
    exact own

theorem setsMode_of_none {c : Call} (none : c.mode? = none) : SetsMode source dest seen c := by
  cases c <;> trivial

theorem askedBits_natCast (n : Nat) : askedBits n = n &&& 0o7777 := by
  rw [show (0o7777 : Nat) = 2 ^ 12 - 1 from rfl, Nat.and_two_pow_sub_one_eq_mod]
  unfold askedBits
  omega

theorem withoutSetId_status {mode : Int} {bits : Nat} (valid : machineMode mode = .ok bits) :
    withoutSetId (permissionBits bits) = askedBits mode &&& 0o1777 := by
  unfold machineMode at valid
  split at valid
  · cases valid
  split at valid
  · cases valid
  split at valid
  · cases valid
  next negative _ _ =>
  cases valid
  obtain ⟨n, rfl⟩ := Int.eq_ofNat_of_zero_le (Int.not_lt.mp negative)
  rw [askedBits_natCast]
  rfl

/-- What may be asked for holds no set-ID bits. -/
theorem SetsMode.isHarmless {c : Call} (h : SetsMode source dest seen c) : c.IsHarmless := by
  have copied : ∀ {path mode}, IsCopyMode source dest seen path mode →
      askedBits mode &&& 0o6000 = 0 := by
    rintro path mode ⟨_, _, _, status, _, _, _, rfl⟩
    rw [askedBits_natCast, Nat.and_assoc, Nat.and_assoc]
    exact Nat.and_zero _
  intro mode given
  cases c <;> cases given
  · exact copied h
  · exact copied h
  · rw [h.1]
    rfl

namespace Program

variable {α : Type}

/-! ## One entry -/

/-- What may happen in any world, the calls being recorded. -/
abbrev Recording : Rule (List Exchange) :=
  noting (fun _ _ => True) record

/-- Every call may be made as far as its mode goes. -/
def settingModes (source dest : String) (c : Call) (seen : List Exchange) : Prop :=
  SetsMode source dest seen c

/-- Whether every call of a program may be made as far as its mode goes, whatever was seen. -/
def SetsModes (source dest : String) (p : Program α) : Prop :=
  p.Keeps Recording (settingModes source dest) fun _ => True

/-- A call that is given no mode. -/
theorem modeless {c : Call} {next : c.Reply → Program α} {invariant : List Exchange → Prop}
    (none : c.mode? = none)
    (lasts : ∀ seen r, invariant seen → invariant (seen ++ [⟨c, r⟩]))
    (onward : ∀ r, (next r).Keeps Recording (settingModes source dest) invariant) :
    (call c next).Keeps Recording (settingModes source dest) invariant := by
  refine fun seen h => ⟨setsMode_of_none none, fun r seen' step => onward r seen' ?_⟩
  rw [step.2]
  exact lasts seen r h

theorem modeless_any {c : Call} {next : c.Reply → Program α} (none : c.mode? = none)
    (onward : ∀ r, (next r).SetsModes source dest) : (call c next).SetsModes source dest :=
  modeless none (fun _ _ _ => trivial) onward

theorem modeless_log : KeepsLog Recording (settingModes source dest) fun _ => True :=
  fun _ _ _ => modeless_any rfl fun _ => .done _

theorem modeless_looks : LookParts Recording (settingModes source dest) fun _ => True :=
  .of_calls fun c seen light _ =>
    ⟨setsMode_of_none (by cases c <;> first | rfl | cases light), fun _ _ _ => trivial⟩

section

variable {above below name : String} {mode : Nat}
  (pair : Corresponds source dest above below)
  (own : mode = askedBits status.mode &&& 0o1777)
include pair own

/-- A call of copying an entry, after the entry was looked at. Its mode is the one of the copy. -/
theorem keeps_lastShown {c : Call} {next : c.Reply → Program α}
    (other : ∀ p, c = .lstat p → p = Path.join below name)
    (given : c.mode? = none ∨ c = .mkdir (Path.join below name) mode ∨
      c = .chmod (Path.join below name) mode ∨ c = .openExclusive (Path.join below name) freshFileMode)
    (onward : ∀ r, (next r).Keeps Recording (settingModes source dest)
      (LastShown (Path.join above name) (Path.join below name) status)) :
    (call c next).Keeps Recording (settingModes source dest)
      (LastShown (Path.join above name) (Path.join below name) status) := by
  refine fun seen h => ⟨?_, fun r seen' step => onward r seen' ?_⟩
  · have follows : IsCopyMode source dest seen (Path.join below name) mode :=
      ⟨above, below, name, status, pair, rfl, h, by rw [own]⟩
    rcases given with none | rfl | rfl | rfl
    · exact setsMode_of_none none
    · exact follows
    · exact follows
    · exact ⟨rfl, above, below, name, pair, rfl⟩
  · rw [step.2]
    exact h.snoc other

theorem lastShown_log : KeepsLog Recording (settingModes source dest)
    (LastShown (Path.join above name) (Path.join below name) status) :=
  fun _ _ _ => keeps_lastShown pair own (by simp) (.inl rfl) fun _ => .done _

theorem lastShown_directory (uid gid : Int) :
    (ensureDirectory (Path.join below name) uid gid mode).Keeps Recording (settingModes source dest)
      (LastShown (Path.join above name) (Path.join below name) status) := by
  have calls : DirectoryCalls Recording (settingModes source dest)
      (LastShown (Path.join above name) (Path.join below name) status)
      (LastShown (Path.join above name) (Path.join below name) status)
      (Path.join below name) uid gid mode :=
    { note := lastShown_log pair own
      stat := keeps_lastShown pair own (by simp) (.inl rfl) .ofExcept
      umask := fun _ => keeps_lastShown pair own (by simp) (.inl rfl) .ofExcept
      umaskNew := fun _ => keeps_lastShown pair own (by simp) (.inl rfl) .ofExcept
      mkdir := fun seen h => (keeps_lastShown pair own (by simp) (.inr (.inl rfl)) .ofExcept seen
        h).mono fun _ _ kept => ⟨kept, fun _ _ => kept⟩
      chown := keeps_lastShown pair own (by simp) (.inl rfl) .ofExcept
      leave := fun _ h => h }
  exact calls.ensureDirectory

theorem lastShown_copyFile (c : Cloner) :
    (copyFile c (Path.join above name) (Path.join below name) mode).Keeps Recording
      (settingModes source dest)
      (LastShown (Path.join above name) (Path.join below name) status) := by
  have calls : CopyCalls Recording (settingModes source dest)
      (LastShown (Path.join above name) (Path.join below name) status)
      (fun _ => LastShown (Path.join above name) (Path.join below name) status)
      (Path.join above name) (Path.join below name) mode :=
    { note := lastShown_log pair own
      openRead := keeps_lastShown pair own (by simp) (.inl rfl) .ofExcept
      close := fun _ => keeps_lastShown pair own (by simp) (.inl rfl) .ofExcept
      openExclusive := fun seen h => (keeps_lastShown pair own (by simp)
        (.inr (.inr (.inr rfl))) .ofExcept seen h).mono fun _ _ kept => ⟨kept, fun _ _ => kept⟩
      file := fun _ _ =>
        { note := lastShown_log pair own
          read := fun _ => keeps_lastShown pair own (by simp) (.inl rfl) .ofExcept
          write := fun _ => keeps_lastShown pair own (by simp) (.inl rfl) .ofExcept
          pause := keeps_lastShown pair own (by simp) (.inl rfl) .ofExcept
          truncate := keeps_lastShown pair own (by simp) (.inl rfl) .ofExcept
          chown := fun _ _ => keeps_lastShown pair own (by simp) (.inl rfl) .ofExcept
          chmod := keeps_lastShown pair own (by simp) (.inr (.inr (.inl rfl))) .ofExcept }
      leave := fun _ _ h => h }
  exact calls.copyFile c

theorem lastShown_planted :
    (isPlantedNonDirectory (Path.join below name)).Keeps Recording (settingModes source dest)
      (LastShown (Path.join above name) (Path.join below name) status) := by
  refine Keeps.attempted (keeps_lastShown pair own (by simp) (.inl rfl) .ofExcept)
    (fun status => ?_) fun _ => .done _
  refine Keeps.bind (Keeps.ofExcept _) fun mode => ?_
  split
  · exact .done _
  · exact (lastShown_log pair own _ _ _).bind fun _ => .done _

end

/-- What is known of an entry that was described: the look at it, and the mode that its copy has. -/
def ShownAs (origin path : String) (entry : Entry) (seen : List Exchange) : Prop :=
  entry.path = origin ∧ ∃ status, LastShown origin path status seen ∧
    withoutSetId entry.mode = askedBits status.mode &&& 0o1777

theorem describeEntry_describes (name origin path : String) (seen : List Exchange) :
    (describeEntry name origin).Meets Recording (settingModes source dest)
      (fun out seen' => ∀ entry, out = .ok entry → ShownAs origin path entry seen') seen := by
  refine ⟨trivial, fun look seen' step => ?_⟩
  cases look with
  | error f => exact fun _ bad => by cases bad
  | ok status =>
    have shown : LastShown origin path status seen' :=
      ⟨seen, [], step.2, fun _ mem => absurd mem List.not_mem_nil⟩
    change ((ofRange (Entry.ofStatus name origin status)).bind _).Meets _ _ _ _
    unfold Entry.ofStatus
    cases valid : machineMode status.mode with
    | error e => exact fun _ bad => by cases bad
    | ok bits =>
      change (if _ then _ else _ : Program Entry).Meets _ _ _ _
      split
      · refine ⟨trivial, fun target seen'' step' => ?_⟩
        have shown' : LastShown origin path status seen'' := by
          rw [step'.2]
          exact shown.snoc (by simp)
        cases target with
        | ok target =>
          intro entry same
          cases same
          exact ⟨rfl, status, shown', withoutSetId_status valid⟩
        | error f =>
          cases f with
          | system e =>
            intro entry same
            cases same
            exact ⟨rfl, status, shown', withoutSetId_status valid⟩
          | _ => exact fun _ bad => by cases bad
      · intro entry same
        cases same
        exact ⟨rfl, status, shown, withoutSetId_status valid⟩

/-! ## The walk -/

section

variable {w : Walk} {descend : String → String → List Identity → Program WalkState}
  (below_ : ∀ origin path entered, Corresponds source dest origin path →
    (descend origin path entered).SetsModes source dest)
  {above below : String} (pair : Corresponds source dest above below)
include below_ pair

theorem cloneSubdirectory_setsModes {entry : Entry} {name : String} (state : WalkState)
    (described : ShownAs (Path.join above name) (Path.join below name) entry seen) :
    (cloneSubdirectory w descend entry (Path.join below name) state).Meets Recording
      (settingModes source dest) (fun _ _ => True) seen := by
  obtain ⟨own, status, shown, mode⟩ := described
  obtain ⟨report, entered⟩ := state
  unfold cloneSubdirectory
  dsimp only
  split
  · exact (modeless_log _ _ _).bind (fun _ => .done _) seen trivial
  · refine (lastShown_planted pair mode seen shown).bind (fun planted seen shown => ?_)
      fun _ _ _ => trivial
    split
    · trivial
    refine (lastShown_directory pair mode _ _ seen shown).bind (fun created seen _ => ?_)
      fun _ _ _ => trivial
    split
    · trivial
    · rw [own]
      exact Keeps.bind (below_ _ _ entered (.entry name pair)) (fun _ => .done _) seen trivial

theorem cloneEntry_setsModes (name : String) (state : WalkState) :
    (cloneEntry w descend name (Path.join above name) (Path.join below name) state).SetsModes
      source dest := by
  intro seen _
  refine Meets.attempt (describeEntry_describes name _ (Path.join below name) seen)
    (fun entry seen described => ?_) (fun e seen _ => ?_) fun _ _ _ _ => trivial
  · have described := described entry rfl
    dsimp only
    split
    · exact cloneSubdirectory_setsModes below_ pair state described
    · obtain ⟨_, status, shown, mode⟩ := described
      exact (lastShown_copyFile pair mode w.cloner seen shown).bind (fun _ _ _ => trivial)
        fun _ _ _ => trivial
    · exact (modeless_looks.copySymlink _ _ _ _ _ _).bind (fun _ => .done _) seen trivial
    · exact (modeless_log _ _ _).bind (fun _ => .done _) seen trivial
  · exact (modeless_log _ _ _).bind (fun _ => .done _) seen trivial

theorem cloneNames_setsModes (names : List String) (state : WalkState) :
    (cloneNames w descend above below names state).SetsModes source dest := by
  induction names generalizing state with
  | nil => exact .done _
  | cons name rest ih =>
    refine Keeps.bind (modeless_any rfl .ofExcept) fun _ => ?_
    split
    · exact ih state
    · exact (cloneEntry_setsModes below_ pair name state).bind ih

end

theorem cloneDirectory_setsModes (w : Walk) (depth : Nat) {above below : String}
    (pair : Corresponds source dest above below) (entered : List Identity) :
    (cloneDirectory w depth above below entered).SetsModes source dest := by
  induction depth generalizing above below entered with
  | zero => exact .raise _
  | succ depth ih =>
    refine Keeps.attempted ?_
      (fun opened => cloneNames_setsModes (fun _ _ entered pair => ih pair entered) pair opened.2 _)
      fun e => (modeless_log _ _ _).bind fun _ => .done _
    exact Keeps.bind (modeless_any rfl .ofExcept) fun status =>
      Keeps.bind (modeless_any rfl .ofExcept) fun names => .done _

theorem cloneTree_setsModes (source dest : String) (uid gid : Int) (chunkSize : Option Int)
    (limits : Limits) :
    (cloneTree source dest uid gid chunkSize limits).SetsModes source dest :=
  Keeps.attempted (modeless_any rfl .ofExcept)
    (fun _ => (cloneDirectory_setsModes _ _ .top []).bind fun _ => .done _)
    fun _ => (cloneDirectory_setsModes _ _ .top []).bind fun _ => .done _

/-! ## Runs -/

/-- Whether nothing that was not there at the start has a set-ID bit. -/
def NewUnarmed {ν : Type} (start now : ν → Option Nat) : Prop :=
  ∀ i, start i = none → ∀ bits, now i = some bits → bits &&& 0o6000 = 0

/-- Harmless calls arm nothing. -/
theorem NewUnarmed.step {ν : Type} {start before after : ν → Option Nat} {c : Call} {r : c.Reply}
    (h : NewUnarmed start before) (harmless : c.IsHarmless) (grants : Grants c before r after) :
    NewUnarmed start after := by
  intro i new bits here
  rcases grants i bits here with ⟨old, there, within⟩ | ⟨mode, given, within⟩
  · exact within.and_eq_zero (h i new old there)
  · exact within.and_eq_zero (harmless mode given)

/-- A copy lends no rights. Every mode that a clone passes to a call is the one of the entry that it
copies, as this was looked at last, without the set-ID bits, or that of a fresh file. Where no bits
are granted but those asked for, nothing new has a set-ID bit at any moment. -/
theorem cloneTree_disarms {σ : Type} (world : Layer σ) (source dest : String) (uid gid : Int)
    (chunkSize : Option Int) (limits : Limits) (s : σ) :
    let work := cloneTree source dest uid gid chunkSize limits
    (∀ before x after, work.trace world s = before ++ x :: after →
      SetsMode source dest before x.call) ∧
    ∀ {ν : Type} (bitsAt : σ → ν → Option Nat), world.KeepsTo Grants bitsAt →
      (∀ step ∈ work.steps world s, NewUnarmed (bitsAt s) (bitsAt step.2)) ∧
        NewUnarmed (bitsAt s) (bitsAt (work.run world s).2) := by
  intro work
  have sets : work.SetsModes source dest := cloneTree_setsModes source dest uid gid chunkSize limits
  refine ⟨(Yields.run_of_trace (fun _ _ => trivial) (sets [] trivial).yields_record).2, ?_⟩
  intro ν bitsAt keeps
  have harmless : work.Makes (fun _ _ => True) Call.IsHarmless :=
    .of_noting (sets [] trivial) fun c seen may => may.isHarmless
  have kept : work.Keeps Grants (fun _ bits => NewUnarmed (bitsAt s) bits)
      (NewUnarmed (bitsAt s)) :=
    harmless.keeps fun c bits may unarmed =>
      ⟨unarmed, fun r bits' grants => ⟨trivial, unarmed.step may grants⟩⟩
  have start : NewUnarmed (bitsAt s) (bitsAt s) := by
    intro i none bits here
    rw [none] at here
    cases here
  exact ⟨Meets.steps keeps (kept (bitsAt s) start), Meets.run keeps (kept (bitsAt s) start)⟩

/-- A directory with a set-ID bit is copied where no owner can be changed. -/
theorem cloneTree_disarms_directory :
    let world := Machine.failing fun c _ =>
      if Machine.givesAway c then some (Machine.refusedDescriptor .notPermitted) else none
    let work := cloneTree "/skel" "/home" 7 7 none { depth := 3, pieces := 3 }
    Machine.sample.bitsAt 2 = some 0o2750 ∧ Machine.sample.bitsAt 6 = none ∧
      (work.run world Machine.sample).2.bitsAt 6 = some 0o750 ∧ 0o750 &&& 0o6000 = 0 := by
  intro world work
  have unarmed : NewUnarmed Machine.sample.bitsAt (work.run world Machine.sample).2.bitsAt :=
    ((cloneTree_disarms world "/skel" "/home" 7 7 none { depth := 3, pieces := 3 }
      Machine.sample).2 Machine.bitsAt (Machine.failing_grants _)).2
  have there : (work.run world Machine.sample).2.bitsAt 6 = some 0o750 := by decide
  exact ⟨by decide, by decide, there, unarmed 6 (by decide) _ there⟩

end Program

end HomeProvision
