import HomeProvision.Proofs.Governed
import HomeProvision.Proofs.Heeded
import HomeProvision.Proofs.Modes

/-!
# What the hook finds

The hook gets control in the middle of a request. It finds the creation mask of the start and one
window more than at the start, and no file open but, between two pieces of a file, the two that are
being copied from and to. The second of these was created by the request and is its owner's only
(`provision_handsOver`). The calls may answer what they like and may fail, the one of `umask`
included.
-/

namespace HomeProvision

variable {α σ : Type}

/-! ## Open files -/

/-- The descriptors that are open after one more exchange. One that was passed to a call of `close`
counts as closed. -/
def hold (held : List Int) (x : Exchange) : List Int :=
  match x.handling? with
  | some (.opens n) => n :: held
  | some (.closes n) => held.erase n
  | _ => held

/-- The descriptors that are open after some exchanges, the last one first. -/
def heldAfter (t : List Exchange) : List Int :=
  t.foldl hold []

/-- Whether a call belongs to the copy of the content of one open file to another. -/
def Call.IsCopying (reading writing : Int) (path : String) : Call → Prop
  | .truncate p _ => p = path
  | .read n _ => n = reading
  | .write n _ => n = writing
  | .pause | .log _ => True
  | _ => False

/-- Whether a file is being copied: the source was opened and the destination was created, with a
mode for its owner only, and since then there was only the copy of the content. -/
structure MidCopy (source path : String) (reading writing : Int) (t during : List Exchange) :
    Prop where
  opened : ∃ before, t = before ++ ⟨.openRead source, .ok reading⟩ ::
    ⟨.openExclusive path 0o600, .ok writing⟩ :: during
  held : heldAfter t = [writing, reading]
  only : ∀ x ∈ during, x.call.IsCopying reading writing path

theorem heldAfter_snoc (t : List Exchange) (x : Exchange) :
    heldAfter (t ++ [x]) = hold (heldAfter t) x := by
  rw [heldAfter, List.foldl_append]
  rfl

/-- Whether a call neither opens nor closes a file, writes none and does not concern the rights of
the process. -/
def Call.isUnseen : Call → Bool
  | .umask _ | .openRead _ | .openExclusive _ _ | .write _ _ | .close _ | .elevate | .relinquish => false
  | _ => true

theorem Call.isUnseen_of_isLight (c : Call) (light : c.isLight = true) : c.isUnseen = true := by
  cases c <;> first | rfl | cases light

theorem hold_copying {held : List Int} {c : Call} {r : c.Reply} {reading writing : Int}
    {path : String} (own : c.IsCopying reading writing path) : hold held ⟨c, r⟩ = held := by
  cases c <;> first | rfl | cases own

/-- The copy of the content goes on. -/
theorem MidCopy.snoc {source path : String} {reading writing : Int} {t during : List Exchange}
    {c : Call} {r : c.Reply} (h : MidCopy source path reading writing t during)
    (own : c.IsCopying reading writing path) :
    MidCopy source path reading writing (t ++ [⟨c, r⟩]) (during ++ [⟨c, r⟩]) := by
  obtain ⟨before, split⟩ := h.opened
  refine ⟨⟨before, by rw [split]; simp⟩, ?_, fun x mem => ?_⟩
  · rw [heldAfter_snoc, h.held, hold_copying own]
  · rcases List.mem_append.mp mem with mem | mem
    · exact h.only x mem
    · rw [List.mem_singleton.mp mem]
      exact own

/-! ## What was seen between two calls -/

/-- Whether some descriptors are open and nothing was just written. -/
def Resting (held : List Int) (t : List Exchange) : Prop :=
  heldAfter t = held ∧ betweenPieces t = false

/-- Whether a file is being copied. -/
def Busy (source path : String) (reading writing : Int) (t : List Exchange) : Prop :=
  ∃ during, MidCopy source path reading writing t during

/-- What the hook may find: a file that is being copied, right after a piece of it was written, and
no open file otherwise. -/
def Findable (t : List Exchange) : Prop :=
  if betweenPieces t then ∃ source path reading writing, Busy source path reading writing t
  else heldAfter t = []

variable {held : List Int} {t : List Exchange} {source path : String} {reading writing : Int}

theorem Resting.snoc {c : Call} {r : c.Reply} (h : Resting held t) (unseen : c.isUnseen = true) :
    Resting held (t ++ [⟨c, r⟩]) := by
  refine ⟨?_, ?_⟩
  · rw [heldAfter_snoc, h.1]
    cases c <;> first | rfl | cases unseen
  · rw [betweenPieces_snoc]
    cases c <;> first | rfl | cases unseen

theorem Resting.findable (h : Resting [] t) : Findable t := by
  unfold Findable
  rw [h.2]
  exact h.1

theorem Busy.resting (h : Busy source path reading writing t) (unwritten : betweenPieces t = false) :
    Resting [writing, reading] t := by
  obtain ⟨during, copying⟩ := h
  exact ⟨copying.held, unwritten⟩

theorem Busy.snoc {c : Call} {r : c.Reply} (h : Busy source path reading writing t)
    (own : c.IsCopying reading writing path) : Busy source path reading writing (t ++ [⟨c, r⟩]) :=
  h.imp' _ fun _ copying => copying.snoc own

namespace Program

/-! ## What is known between two calls -/

/-- What happens in a governed world, the calls being recorded. -/
abbrev HandingOver : Rule ((Nat × Controller) × List Exchange) :=
  Rule.watched Governing (fun _ _ => True) fun seen x => record seen x.toExchange

/-- What is known between two calls: the mask, the number of windows and what was seen. -/
structure Within (mask depth : Nat) (told : List Exchange → Prop)
    (s : (Nat × Controller) × List Exchange) : Prop where
  mask : s.1.1 = mask
  depth : s.1.2.depth = depth
  told : told s.2

/-- The hook gets control only where it may find what there is. -/
def handsOver (mask depth : Nat) (c : Call) (s : (Nat × Controller) × List Exchange) : Prop :=
  c = .pause → Within mask depth Findable s

theorem handsOver_of_ne {mask depth : Nat} {c : Call} {s : (Nat × Controller) × List Exchange}
    (other : c ≠ .pause) : handsOver mask depth c s :=
  fun same => absurd same other

/-- Anything may be true after a fault that ends the request. -/
def anyEnd (_ : Fault) (_ : (Nat × Controller) × List Exchange) : Prop :=
  True

variable {mask mask' depth : Nat} {told told' : List Exchange → Prop}
  {s s' : (Nat × Controller) × List Exchange}

theorem Within.mono (h : Within mask depth told s) (weaker : told s.2 → told' s.2) :
    Within mask depth told' s :=
  ⟨h.mask, h.depth, weaker h.told⟩

/-- A call that concerns neither the mask nor the windows. -/
theorem Within.step {c : Call} {r : c.Reply} (h : Within mask depth told s)
    (step : HandingOver c s r s') (other : c.isUmask = false) (own : c.isWindow = false)
    (now : told' (s.2 ++ [⟨c, r⟩])) : Within mask depth told' s' := by
  have same : s'.1.1 = s.1.1 ∧ s'.1.2 = s.1.2 := by
    have governing := step.1.1
    cases c <;> first | exact governing | (cases other; done) | cases own
  exact ⟨same.1.trans h.mask, (congrArg Controller.depth same.2).trans h.depth,
    (show s'.2 = s.2 ++ [⟨c, r⟩] from step.2) ▸ now⟩

/-- One call that is none of the hook, and a way to go on. -/
theorem within_one {c : Call} {next : c.Reply → Program α} (none : c ≠ .pause)
    (other : c.isUmask = false) (own : c.isWindow = false)
    (lasts : ∀ t r, told t → told (t ++ [⟨c, r⟩]))
    (onward : ∀ r, (next r).Keeps HandingOver (handsOver mask depth) (Within mask' depth told)) :
    (call c next).Keeps HandingOver (handsOver mask depth) (Within mask' depth told) :=
  fun s h => ⟨handsOver_of_ne none, fun r s' step =>
    onward r s' (h.step step other own (lasts s.2 r h.told))⟩

theorem resting_one {c : Call} {next : c.Reply → Program α} (none : c ≠ .pause)
    (unseen : c.isUnseen = true)
    (onward : ∀ r, (next r).Keeps HandingOver (handsOver mask depth)
      (Within mask' depth (Resting held))) :
    (call c next).Keeps HandingOver (handsOver mask depth) (Within mask' depth (Resting held)) :=
  within_one none (by cases c <;> first | rfl | cases unseen)
    (by cases c <;> first | rfl | cases unseen) (fun _ _ h => h.snoc unseen) onward

theorem resting_log :
    KeepsLog HandingOver (handsOver mask depth) (Within mask' depth (Resting held)) :=
  fun _ _ _ => resting_one (by simp) rfl fun _ => .done _

theorem carries_of_keeps {p : Program α} {invariant : (Nat × Controller) × List Exchange → Prop}
    (h : p.Keeps HandingOver (handsOver mask depth) invariant) :
    p.Carries HandingOver (handsOver mask depth) invariant anyEnd :=
  .of_keeps (fun _ _ _ => trivial) h

/-- Before an entry or after a step, the hook finds no open file. -/
theorem pause_handsOver :
    pause.Keeps HandingOver (handsOver mask depth) (Within mask depth (Resting [])) :=
  fun _ h => ⟨fun _ => h.mono Resting.findable, fun r s' step =>
    Keeps.ofExcept r s' (h.step step rfl rfl (h.told.snoc rfl))⟩

/-! ## Directories -/

theorem createDirectory_rests (path : String) (mode : Int) :
    (createDirectory path mode).Keeps HandingOver (handsOver mask depth)
      (Within mask' depth (Resting held)) := by
  refine Keeps.attempted (resting_one (by simp) rfl .ofExcept) (fun _ => .done _) fun e => ?_
  dsimp only
  split
  · exact (resting_log _ _ _).bind fun _ => .done _
  · exact (resting_log _ _ _).bind fun _ => .done _

/-- The mask is clear only while a directory is created. -/
theorem withClearMask_carries (nine : mask < 0o1000) (path : String) (mode : Int) :
    (withClearMask (createDirectory path mode)).Carries HandingOver (handsOver mask depth)
      (Within mask depth (Resting held)) anyEnd := by
  refine fun s h => ⟨handsOver_of_ne (by simp), fun r s₁ step => ?_⟩
  cases r with
  | error f => trivial
  | ok old =>
    obtain ⟨⟨⟨rfl, cleared⟩, same⟩, _⟩ := step.1
    have clear : Within 0 depth (Resting held) s₁ :=
      ⟨cleared, (congrArg Controller.depth same).trans h.depth,
        (show s₁.2 = s.2 ++ [_] from step.2) ▸ ⟨by rw [heldAfter_snoc, h.told.1]; rfl,
          by rw [betweenPieces_snoc]; rfl⟩⟩
    refine (createDirectory_rests path mode s₁ clear).ensuring fun out s₂ clear => ?_
    refine ⟨handsOver_of_ne (by simp), fun r s₃ step => ?_⟩
    cases r with
    | error f => trivial
    | ok old =>
      cases out with
      | error f => trivial
      | ok result =>
        obtain ⟨⟨⟨_, restored⟩, same⟩, _⟩ := step.1
        refine ⟨restored.trans ?_, (congrArg Controller.depth same).trans clear.depth,
          (show s₃.2 = s₂.2 ++ [_] from step.2) ▸ ⟨by rw [heldAfter_snoc, clear.told.1]; rfl,
            by rw [betweenPieces_snoc]; rfl⟩⟩
        rw [h.mask]
        exact Holding.grantedBits_mask nine

theorem ensureDirectory_carries (nine : mask < 0o1000) (path : String) (uid gid mode : Int) :
    (ensureDirectory path uid gid mode).Carries HandingOver (handsOver mask depth)
      (Within mask depth (Resting held)) anyEnd := by
  have noted : ∀ level event details (result : StepResult),
      ((log level event details).bind fun _ => done result).Keeps HandingOver
        (handsOver mask depth) (Within mask depth (Resting held)) :=
    fun _ _ _ _ => (resting_log _ _ _).bind fun _ => .done _
  refine (carries_of_keeps (Keeps.attempt (resting_one (by simp) rfl .ofExcept))).bind
    fun looked => ?_
  cases looked with
  | ok _ => exact carries_of_keeps (noted _ _ _ _)
  | error e =>
    dsimp only
    split
    · refine (withClearMask_carries nine path mode).bind fun made => carries_of_keeps ?_
      cases made with
      | some result => exact .done _
      | none =>
        exact Keeps.attempted (resting_one (by simp) rfl .ofExcept) (fun _ => noted _ _ _ _)
          fun e => (resting_log _ _ _).bind fun _ => noted _ _ _ _
    · exact carries_of_keeps (noted _ _ _ _)

/-! ## Files -/

/-- A clean-up closes what it is to close, and if it fails the request ends. -/
theorem closeQuietly_rests {n : Int} {event path : String}
    (h : Within mask depth (Resting (n :: held)) s) :
    (closeQuietly n event path).Meets HandingOver (handsOver mask depth)
      (Carried (Within mask depth (Resting held)) anyEnd) s := by
  have closed : (close n).Meets HandingOver (handsOver mask depth)
      (fun _ s' => Within mask depth (Resting held) s') s := by
    refine ⟨handsOver_of_ne (by simp), fun r s' step => meets_ofExcept.mpr ?_⟩
    refine h.step step rfl rfl ⟨?_, by rw [betweenPieces_snoc]; rfl⟩
    rw [heldAfter_snoc, h.told.1]
    simp [hold, Exchange.handling?]
  refine Meets.attempt closed (fun _ _ rests => rests) (fun e s' rests => ?_) fun _ _ _ _ => trivial
  exact carries_of_keeps (resting_log _ _ _) s' rests

theorem closeQuietly_any (n : Int) (event path : String) :
    (closeQuietly n event path).Keeps HandingOver (handsOver mask depth) fun _ => True := by
  have one : ∀ {c : Call} {next : c.Reply → Program Unit}, c ≠ .pause →
      (∀ r, (next r).Keeps HandingOver (handsOver mask depth) fun _ => True) →
      (call c next).Keeps HandingOver (handsOver mask depth) fun _ => True :=
    fun none onward s _ => ⟨handsOver_of_ne none, fun r s' _ => onward r s' trivial⟩
  exact Keeps.attempted (one (by simp) .ofExcept) (fun _ => .done _)
    fun _ => one (by simp) fun _ => .done _

theorem ensuring_closes {body : Program α} {n : Int} {event path : String}
    (h : body.Meets HandingOver (handsOver mask depth)
      (Carried (Within mask depth (Resting (n :: held))) anyEnd) s) :
    (ensuring body (closeQuietly n event path)).Meets HandingOver (handsOver mask depth)
      (Carried (Within mask depth (Resting held)) anyEnd) s := by
  refine h.ensuring fun out s' reached => ?_
  cases out with
  | ok a =>
    refine (closeQuietly_rests reached).mono fun out' s'' closed => ?_
    cases out' with
    | ok _ => exact closed
    | error f => trivial
  | error f =>
    refine (closeQuietly_any n event path s' trivial).mono fun out' s'' _ => ?_
    cases out' <;> trivial

/-- Between two pieces the hook finds the two files of the copy. -/
theorem copyPieces_handsOver (size : Int) (pieces : Nat)
    (h : Within mask depth (Busy source path reading writing) s) :
    (copyPieces reading writing size pieces).Meets HandingOver (handsOver mask depth)
      (fun out s' => Within mask depth (Busy source path reading writing) s' ∧
        (out = .ok none → betweenPieces s'.2 = false)) s := by
  induction pieces generalizing s with
  | zero => exact ⟨h, fun bad => by cases bad⟩
  | succ pieces ih =>
    refine ⟨handsOver_of_ne (by simp), fun r s₁ step => ?_⟩
    have h₁ := h.step step rfl rfl (h.told.snoc rfl)
    cases r with
    | error f => exact ⟨h₁, fun bad => by cases bad⟩
    | ok chunk =>
      change (if _ then _ else _ : Program (Option (Int × Nat))).Meets _ _ _ _
      split
      · refine ⟨h₁, fun _ => ?_⟩
        rw [show s₁.2 = s.2 ++ [_] from step.2, betweenPieces_snoc]
        rfl
      refine ⟨handsOver_of_ne (by simp), fun r s₂ step => ?_⟩
      have h₂ := h₁.step step rfl rfl (h₁.told.snoc rfl)
      cases r with
      | error f => exact ⟨h₂, fun bad => by cases bad⟩
      | ok written =>
        change (if _ then _ else _ : Program (Option (Int × Nat))).Meets _ _ _ _
        split
        · exact ⟨h₂, fun bad => by cases bad⟩
        have wrote : betweenPieces s₂.2 = true := by
          rw [show s₂.2 = s₁.2 ++ [_] from step.2, betweenPieces_snoc]
          rfl
        refine ⟨fun _ => h₂.mono fun busy => ?_, fun r s₃ step => ?_⟩
        · unfold Findable
          rw [wrote]
          exact ⟨source, path, reading, writing, busy⟩
        · have h₃ := h₂.step step rfl rfl (h₂.told.snoc trivial)
          cases r with
          | error f => exact ⟨h₃, fun bad => by cases bad⟩
          | ok _ => exact ih h₃

/-- Noting an event ends the copy of the content. -/
theorem busy_log {level : Level} {event : String} {details : List (String × Detail)}
    {result : StepResult} (h : Within mask depth (Busy source path reading writing) s) :
    ((log level event details).bind fun _ => done result).Meets HandingOver (handsOver mask depth)
      (fun out s' => out = .ok result ∧ Within mask depth (Resting [writing, reading]) s') s := by
  refine ⟨handsOver_of_ne (by simp), fun r s' step => ⟨rfl, ?_⟩⟩
  refine h.step step rfl rfl (Busy.resting (h.told.snoc trivial) ?_)
  rw [betweenPieces_snoc]
  rfl

theorem stream_handsOver (c : Cloner) (h : Within mask depth (Busy source path reading writing) s) :
    (stream c reading writing path).Meets HandingOver (handsOver mask depth)
      (Carried (Within mask depth (Resting [writing, reading])) anyEnd) s := by
  refine Meets.attempt (q := Carried (Within mask depth (Resting [writing, reading])) fun _ =>
    Within mask depth (Busy source path reading writing)) ?_ (fun _ _ rests => rests)
    (fun e s' busy => ?_) fun _ _ _ _ => trivial
  · refine (copyPieces_handsOver c.chunkSize c.limits.pieces h).bind (fun copied s' reached => ?_)
      fun f s' reached => reached.1
    cases copied with
    | none => exact reached.1.mono fun busy => busy.resting (reached.2 rfl)
    | some short =>
      exact (busy_log reached.1).mono fun _ s'' ⟨same, rests⟩ => same ▸ rests
  · exact (busy_log busy).mono fun _ s'' ⟨same, rests⟩ => same ▸ rests

theorem fillFile_handsOver (c : Cloner) (mode : Int)
    (h : Within mask depth (Busy source path reading writing) s) :
    (fillFile c reading writing path mode).Meets HandingOver (handsOver mask depth)
      (Carried (Within mask depth (Resting [reading])) anyEnd) s := by
  have finishing : FinishCalls HandingOver (handsOver mask depth)
      (Within mask depth (Resting [writing, reading])) path mode :=
    { note := resting_log
      chown := fun _ _ => resting_one (by simp) rfl .ofExcept
      chmod := resting_one (by simp) rfl .ofExcept }
  have filled : ∀ s, Within mask depth (Busy source path reading writing) s →
      (ensuring
        (do
          let result ← stream c reading writing path
          let result ← finishOwner c path result
          finishMode path mode result)
        (closeQuietly writing "Error closing destination file" path)).Meets HandingOver
          (handsOver mask depth) (Carried (Within mask depth (Resting [reading])) anyEnd) s :=
    fun s h => ensuring_closes ((stream_handsOver c h).bind (fun result s' rests =>
      carries_of_keeps ((finishing.finishOwner c result).bind finishing.finishMode) s' rests)
      fun _ _ _ => trivial)
  have cut : (truncate path 0).Meets HandingOver (handsOver mask depth)
      (fun _ => Within mask depth (Busy source path reading writing)) s :=
    ⟨handsOver_of_ne (by simp), fun r s' step =>
      meets_ofExcept.mpr (h.step step rfl rfl (h.told.snoc rfl))⟩
  refine Meets.attempt cut (fun _ s' busy => filled s' busy) (fun e s' busy => ?_)
    fun _ _ _ _ => trivial
  refine ⟨handsOver_of_ne (by simp), fun r s'' step => filled s'' ?_⟩
  exact busy.step step rfl rfl (busy.told.snoc trivial)

theorem copyFile_carries (c : Cloner) (source path : String) (mode : Int) :
    (copyFile c source path mode).Carries HandingOver (handsOver mask depth)
      (Within mask depth (Resting [])) anyEnd := by
  intro s h
  have noted : ∀ {held : List Int} level event details (result : StepResult),
      ((log level event details).bind fun _ => done result).Carries HandingOver
        (handsOver mask depth) (Within mask depth (Resting held)) anyEnd :=
    fun _ _ _ _ => carries_of_keeps ((resting_log _ _ _).bind fun _ => .done _)
  have opened : (openRead source).Meets HandingOver (handsOver mask depth)
      (fun out s' => (∀ f, out = .error f → Within mask depth (Resting []) s') ∧
        ∀ reading, out = .ok reading → Within mask depth (Resting [reading]) s' ∧
          ∃ before, s'.2 = before ++ [⟨.openRead source, .ok reading⟩]) s := by
    refine ⟨handsOver_of_ne (by simp), fun r s' step => meets_ofExcept.mpr ⟨?_, ?_⟩⟩
    · rintro f rfl
      exact h.step step rfl rfl ⟨by rw [heldAfter_snoc, h.told.1]; rfl,
        by rw [betweenPieces_snoc]; rfl⟩
    · rintro reading rfl
      exact ⟨h.step step rfl rfl ⟨by rw [heldAfter_snoc, h.told.1]; rfl,
        by rw [betweenPieces_snoc]; rfl⟩, s.2, step.2⟩
  refine Meets.attempt opened (fun reading s' reached => ?_) (fun e s' reached => ?_)
    fun _ _ _ _ => trivial
  · obtain ⟨rests, before, last⟩ := reached.2 reading rfl
    refine ensuring_closes ?_
    have made : (openExclusive path).Meets HandingOver (handsOver mask depth)
        (fun out s'' => (∀ f, out = .error f → Within mask depth (Resting [reading]) s'') ∧
          ∀ writing, out = .ok writing →
            Within mask depth (Busy source path reading writing) s'') s' := by
      refine ⟨handsOver_of_ne (by simp), fun r s'' step => meets_ofExcept.mpr ⟨?_, ?_⟩⟩
      · rintro f rfl
        exact rests.step step rfl rfl ⟨by rw [heldAfter_snoc, rests.told.1]; rfl,
          by rw [betweenPieces_snoc]; rfl⟩
      · rintro writing rfl
        refine rests.step step rfl rfl ⟨[], ⟨before, ?_⟩, ?_, fun _ mem => ?_⟩
        · rw [last, List.append_assoc]
          rfl
        · rw [heldAfter_snoc, rests.told.1]
          rfl
        · cases mem
    refine Meets.attempt made (fun writing s'' reached => ?_) (fun e s'' reached => ?_)
      fun _ _ _ _ => trivial
    · exact fillFile_handsOver c mode (reached.2 writing rfl)
    · exact noted _ _ _ _ s'' (reached.1 _ rfl)
  · exact noted _ _ _ _ s' (reached.1 _ rfl)

/-! ## Requests -/

/-- The parts of a request hand over what the hook may find. -/
theorem handingParts (nine : mask < 0o1000) :
    CarryingParts HandingOver (handsOver mask depth) (Within mask depth (Resting [])) anyEnd :=
  have looks : LookParts HandingOver (handsOver mask depth) (Within mask depth (Resting [])) :=
    .of_calls fun c s light h => ⟨handsOver_of_ne (by rintro rfl; cases light), fun r s' step =>
      h.step step (by cases c <;> first | rfl | cases light)
        (by cases c <;> first | rfl | cases light) (h.told.snoc (c.isUnseen_of_isLight light))⟩
  { looks with
    leave := fun _ _ _ => trivial
    list := fun _ => resting_one (by simp) rfl .ofExcept
    pause := carries_of_keeps pause_handsOver
    directory := ensureDirectory_carries nine
    file := copyFile_carries }

theorem elevated_handsOver {body : Program α} {c : Controller}
    (h : body.Carries HandingOver (handsOver mask (c.depth + 1))
      (Within mask (c.depth + 1) (Resting [])) anyEnd) :
    (elevated body).Meets HandingOver (handsOver mask (c.depth + 1)) (fun _ _ => True)
      ((mask, c), []) := by
  refine ⟨handsOver_of_ne (by simp), fun r s' step => ?_⟩
  cases r with
  | error f => trivial
  | ok _ =>
    have inside : Within mask (c.depth + 1) (Resting []) s' := by
      refine ⟨step.1.1.1, step.1.1.2 rfl, ?_⟩
      rw [show s'.2 = [⟨.elevate, .ok ()⟩] from step.2]
      exact ⟨rfl, rfl⟩
    refine (h s' inside).ensuring fun out s'' _ => ⟨handsOver_of_ne (by simp), fun r _ _ => ?_⟩
    cases r <;> trivial

theorem provision_carries (nine : mask < 0o1000) (c : Controller) (r : Request) (user : String)
    (chunkSize : Option Int) (limits : Limits) :
    (provision r user chunkSize limits).Meets HandingOver (handsOver mask (c.depth + 1))
      (fun _ _ => True) ((mask, c), []) := by
  refine (elevated_handsOver ((handingParts nine).establishHome r user chunkSize limits)).bind
    (fun outcome s' _ => ?_) fun _ _ _ => trivial
  cases outcome with
  | ready report => exact ⟨handsOver_of_ne (by simp), fun _ _ _ => trivial⟩
  | _ => trivial

/-- What the hook finds between two pieces of a file: the source and the destination are open and
nothing else is. The destination was created with a mode for its owner only, and since then there
was only the copy of the content. Where no bits are granted but those asked for, nobody but its
owner had access to it at any moment. -/
def FindsCopy (world : Layer σ) (before : List (Moment (σ × Controller)))
    (x : Moment (σ × Controller)) : Prop :=
  ∃ source path reading writing earlier opens during, before = earlier ++ opens :: during ∧
    opens.call = .openExclusive path 0o600 ∧
    MidCopy source path reading writing (before.map Moment.toExchange)
      (during.map Moment.toExchange) ∧
    ∀ {ν : Type} (bitsAt : σ → ν → Option Nat), world.KeepsTo Grants bitsAt →
      ∀ i, bitsAt opens.state.1 i = none → ∀ y ∈ during ++ [x], ∀ bits,
        bitsAt y.state.1 i = some bits → BitsWithin bits 0o600

/-- A file that was created for its owner only stays so while its content is copied. -/
theorem findsCopy_of_busy {world : Layer σ} {p : Program α} {s : σ × Controller}
    {before after : List (Moment (σ × Controller))} {x : Moment (σ × Controller)}
    (here : p.history world.governed id s = before ++ x :: after)
    (busy : Busy source path reading writing (before.map Moment.toExchange)) :
    FindsCopy world before x := by
  obtain ⟨during, copying⟩ := busy
  obtain ⟨seen, opened⟩ := copying.opened
  obtain ⟨earlier, rest, rfl, _, opened⟩ := List.map_eq_append_iff.mp opened
  obtain ⟨reads, rest, rfl, _, opened⟩ := List.map_eq_cons_iff.mp opened
  obtain ⟨opens, during, rfl, created, rfl⟩ := List.map_eq_cons_iff.mp opened
  have asks : opens.call = .openExclusive path 0o600 := congrArg Exchange.call created
  refine ⟨source, path, reading, writing, earlier ++ [reads], opens, during, by simp, asks, copying,
    ?_⟩
  intro ν bitsAt keeps i new
  have later : p.history world.governed id s =
      (earlier ++ [reads]) ++ (opens :: during ++ x :: after) := by simpa using here
  obtain ⟨q, s', rest, _⟩ := history_rest later
  have first : opens.state = s' := history_head rest
  have lasts := history_lasts
    (fun s => ∀ bits, bitsAt s.1 i = some bits → BitsWithin bits 0o600) rest
    (fun bits there => by rw [← first, new] at there; cases there) ?_
  · exact fun y mem => lasts y (List.mem_cons_of_mem _ mem)
  intro y mem old
  have harmless : y.call.isWindow = false ∧
      ∀ mode, y.call.mode? = some mode → BitsWithin (askedBits mode) 0o600 := by
    rcases List.mem_cons.mp mem with rfl | mem
    · rw [asks]
      exact ⟨rfl, fun mode given => by cases given; rfl⟩
    · have own := copying.only _ (List.mem_map_of_mem mem)
      cases call : y.call <;> rw [call] at own <;>
        first | cases own; done | exact ⟨rfl, fun _ given => by cases given⟩
  rw [Layer.governed_reply harmless.1]
  exact (keeps y.call y.state.1).within harmless.2 old

/-- The state is safe whenever control is given away. When the hook gets control, the creation mask
is that of the start, and one window more is open than at the start. Between two pieces of a file it
finds this copy only, and otherwise no open file. -/
theorem provision_handsOver {world : Layer σ} {mask : σ → Nat} (keeps : world.KeepsTo Masking mask)
    (c : Controller) (r : Request) (user : String) (chunkSize : Option Int) (limits : Limits)
    {s : σ} (nine : mask s < 0o1000) {before after : List (Moment (σ × Controller))}
    {x : Moment (σ × Controller)} (here : (provision r user chunkSize limits).history
      world.governed id (s, c) = before ++ x :: after)
    (control : x.call = .pause) :
    mask x.state.1 = mask s ∧ x.state.2.depth = c.depth + 1 ∧
      if betweenPieces (before.map Moment.toExchange) then FindsCopy world before x
      else heldAfter (before.map Moment.toExchange) = [] := by
  have found := Meets.moments (governed_keepsTo keeps)
    (provision_carries nine c r user chunkSize limits) before x after here (fun _ _ => trivial) control
  rw [foldl_record, List.nil_append] at found
  refine ⟨found.mask, found.depth, ?_⟩
  have files := found.told
  unfold Findable at files
  split
  · next wrote =>
    simp only [wrote, if_true] at files
    obtain ⟨source, path, reading, writing, busy⟩ := files
    exact findsCopy_of_busy here busy
  · next unwritten =>
    simpa only [unwritten, if_false, Bool.false_eq_true] using files

/-- A process with changed rights hands over control between two pieces of a file, where no owner can
be changed. -/
theorem provision_handsOver_copy :
    let request : Request :=
      { target := "/home", ownerUid := 7, ownerGid := 7, skeleton := some "/skel" }
    let world := Machine.failing fun c _ =>
      if Machine.givesAway c then some (Machine.refusedDescriptor .notPermitted) else none
    let m : Machine := { Machine.sample with effectiveUid := 7, effectiveGid := 7 }
    let moments := (provision request "u" none { depth := 3, pieces := 3 }).history
      world.governed id (m, .administrator 0 none)
    ∃ x, moments[25]? = some x ∧ x.state.1.mask = 0o022 ∧ x.state.2.depth = 1 ∧
      FindsCopy world (moments.take 25) x := by
  intro request world m moments
  have control : moments[25]?.map (·.call) = some .pause := by decide +kernel
  have wrote : betweenPieces ((moments.take 25).map Moment.toExchange) = true := by decide +kernel
  obtain ⟨x, there, control⟩ := Option.map_eq_some_iff.mp control
  obtain ⟨bound, rfl⟩ := List.getElem?_eq_some_iff.mp there
  have here : moments = moments.take 25 ++ moments[25] :: moments.drop 26 := by
    rw [← List.drop_eq_getElem_cons bound, List.take_append_drop]
  have found := provision_handsOver (Machine.failing_masks _) (.administrator 0 none) request "u"
    none _ (by decide) here control
  rw [if_pos wrote] at found
  exact ⟨moments[25], there, found⟩

end Program

end HomeProvision
