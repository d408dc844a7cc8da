import HomeProvision.Proofs.Ledger
import HomeProvision.Proofs.Lending
import HomeProvision.Proofs.Orderly
import HomeProvision.Proofs.Requests
import HomeProvision.Proofs.Status
import HomeProvision.Proofs.Watched

/-!
# What is borrowed is given back

A request borrows descriptors, clears the creation mask for a moment and works with the
administrator's rights. However it ends, and whatever fails on the way, all of this is given back
(`provision_givesBack`): every descriptor is closed once and not used afterwards, and the mask, the
effective identity and the number of open windows are what they were.

The calls that set the mask and the identity are granted (`Granted`), since nothing could be put
back otherwise. Everything else may fail, the clean-up itself included, and the hook may raise
anything.
-/

namespace HomeProvision

/-- Whether an exchange lets a process give back what it borrows: the calls that set the mask and the
identity go well, and cutting a file fails only with errors of the system. -/
def Exchange.isGranted : Exchange → Bool
  | ⟨.umask _, .error _⟩ => false
  | ⟨.setEffectiveUid _, .error _⟩ => false
  | ⟨.setEffectiveGid _, .error _⟩ => false
  | ⟨.truncate _ _, .error (.system _)⟩ => true
  | ⟨.truncate _ _, .error _⟩ => false
  | _ => true

/-- The replies of a world that lets a process give back what it borrows. -/
def Granted (c : Call) (r : c.Reply) : Prop :=
  (⟨c, r⟩ : Exchange).isGranted = true

instance (c : Call) (r : c.Reply) : Decidable (Granted c r) :=
  inferInstanceAs (Decidable (_ = true))

/-- Whether a call is one to the privilege controller. -/
def Call.isWindow : Call → Bool
  | .elevate | .relinquish => true
  | _ => false

/-- Whether a call neither handles a descriptor nor concerns the rights of the process. -/
def Call.isIdle : Call → Bool
  | .umask _ | .openRead _ | .openExclusive _ _ | .read _ _ | .write _ _ | .close _
  | .setEffectiveUid _ | .setEffectiveGid _ | .elevate | .relinquish => false
  | _ => true

namespace Program

variable {α β σ : Type}

/-- What calls do to a process while the ledger of its descriptors is kept. -/
abbrev Lending : Rule (Process × Option (List Int)) :=
  Rule.watched Lends Granted fun book x => book.bind (lend · x.toExchange)

/-- No call is one to the privilege controller. -/
def noWindow (c : Call) (_ : Process × Option (List Int)) : Prop :=
  c.isWindow = false

/-- Whether a process has some rights and has some descriptors on loan. -/
structure Holding (rights : Rights) (loans : List Int) (s : Process × Option (List Int)) :
    Prop where
  book : s.2 = some loans
  taken : ∀ n ∈ loans, n ∈ s.1.taken
  rights : s.1.rights = rights

variable {rights : Rights} {loans : List Int} {n : Int} {path : String}
  {s s' : Process × Option (List Int)}

namespace Holding

/-! ## Calls -/

theorem next {rights' : Rights} (h : Holding rights loans s)
    (book : s'.2 = some loans) (becomes : s.1.Becomes rights' s'.1) : Holding rights' loans s' :=
  ⟨book, fun n mem => becomes.1 n (h.taken n mem), becomes.2⟩

/-- The ledger after a call. -/
theorem lend {c : Call} {r : c.Reply} (h : Holding rights loans s)
    (step : Lending c s r s') : s'.2 = HomeProvision.lend loans ⟨c, r⟩ := by
  have book := step.2
  rw [h.book] at book
  exact book

theorem idle {c : Call} {r : c.Reply} (idle : c.isIdle = true) (h : Holding rights loans s)
    (step : Lending c s r s') : Holding rights loans s' := by
  have becomes : s.1.Becomes s.1.rights s'.1 := by
    have lends := step.1.1
    cases c <;> first | exact lends | exact lends.2 | cases idle
  have other : (⟨c, r⟩ : Exchange).handling? = none := by
    cases c <;> first | rfl | cases idle
  exact h.next ((h.lend step).trans (lend_other other)) (h.rights ▸ becomes)

theorem keeps_idle {c : Call} {next : c.Reply → Program α} (idle : c.isIdle = true)
    (onward : ∀ r, (next r).Keeps Lending noWindow (Holding rights loans)) :
    (call c next).Keeps Lending noWindow (Holding rights loans) := by
  refine fun s h => ⟨?_, fun r s' step => onward r s' (h.idle idle step)⟩
  cases c <;> first | rfl | cases idle

theorem keeps_note : KeepsLog Lending noWindow (Holding rights loans) :=
  fun _ _ _ => keeps_idle rfl fun _ => .done _

/-- A descriptor that is on loan may be read from and written to. -/
theorem keeps_handled {c : Call} {next : c.Reply → Program α} (held : n ∈ loans)
    (uses : ∀ r, (⟨c, r⟩ : Exchange).handling? = some (.uses n)) (own : c.isWindow = false)
    (becomes : ∀ p r p', Lends c p r p' → p.Becomes p.rights p')
    (onward : ∀ r, (next r).Keeps Lending noWindow (Holding rights loans)) :
    (call c next).Keeps Lending noWindow (Holding rights loans) := by
  refine fun s h => ⟨own, fun r s' step => onward r s' ?_⟩
  exact h.next ((h.lend step).trans (lend_uses (uses r) held))
    (h.rights ▸ becomes s.1 r s'.1 step.1.1)

theorem opened {c : Call} {r : c.Reply} (h : Holding rights loans s)
    (step : Lending c s r s') (opens : (⟨c, r⟩ : Exchange).handling? = some (.opens n))
    (lends : n ∉ s.1.taken ∧ n ∈ s'.1.taken ∧ s.1.Becomes s.1.rights s'.1) :
    n ∉ loans ∧ Holding rights (n :: loans) s' := by
  obtain ⟨new, open_, still, same⟩ := lends
  have free : n ∉ loans := fun held => new (h.taken n held)
  refine ⟨free, (h.lend step).trans (lend_opens opens free), ?_, same.trans h.rights⟩
  exact List.forall_mem_cons.mpr ⟨open_, fun k held => still k (h.taken k held)⟩

/-- What opening a file ends with: one more descriptor on loan, unless it fails. -/
def Opened (rights : Rights) (loans : List Int) (out : Except Fault Int)
    (s : Process × Option (List Int)) : Prop :=
  match out with
  | .ok n => n ∉ loans ∧ Holding rights (n :: loans) s
  | .error _ => Holding rights loans s

theorem meets_openRead (h : Holding rights loans s) :
    (openRead path).Meets Lending noWindow (Opened rights loans) s := by
  refine ⟨rfl, fun r s' step => meets_ofExcept.mpr ?_⟩
  cases r with
  | ok n => exact h.opened step rfl step.1.1
  | error f => exact h.next ((h.lend step).trans (lend_other rfl)) (h.rights ▸ step.1.1)

theorem meets_openExclusive (h : Holding rights loans s) :
    (openExclusive path).Meets Lending noWindow (Opened rights loans) s := by
  refine ⟨rfl, fun r s' step => meets_ofExcept.mpr ?_⟩
  cases r with
  | ok n => exact h.opened step rfl step.1.1
  | error f => exact h.next ((h.lend step).trans (lend_other rfl)) (h.rights ▸ step.1.1)

/-- A descriptor that is closed is on loan no more, even where closing fails. -/
theorem meets_close (free : n ∉ loans) (h : Holding rights (n :: loans) s) :
    (close n).Meets Lending noWindow (fun _ s' => Holding rights loans s') s := by
  refine ⟨rfl, fun r s' step => meets_ofExcept.mpr ?_⟩
  obtain ⟨others, same⟩ := step.1.1
  refine ⟨(h.lend step).trans (lend_closes rfl free), fun k held => ?_, same.trans h.rights⟩
  exact others k (h.taken k (List.mem_cons_of_mem _ held)) fun same => free (same ▸ held)

/-- The mask is set and the one before is known. -/
theorem meets_umask (mask : Int) (h : Holding rights loans s) :
    (umask mask).Meets Lending noWindow (fun out s' =>
      out = .ok (rights.mask : Int) ∧
        Holding { rights with mask := Machine.grantedBits mask 0o777 } loans s') s := by
  refine ⟨rfl, fun r s' step => meets_ofExcept.mpr ?_⟩
  cases r with
  | error f => cases step.1.2
  | ok old =>
    obtain ⟨same, becomes⟩ := step.1.1
    rw [h.rights] at same becomes
    exact ⟨congrArg _ same, h.next ((h.lend step).trans (lend_other rfl)) becomes⟩

/-! ## Directories -/

/-- A mask of nine bits is put back as it was. -/
theorem grantedBits_mask {mask : Nat} (nine : mask < 0o1000) :
    Machine.grantedBits (mask : Int) 0o777 = mask := by
  have small : ((mask : Int) % (0o10000 : Int)).toNat = mask := by omega
  unfold Machine.grantedBits
  rw [small]
  exact Nat.and_two_pow_sub_one_of_lt_two_pow nine (n := 9)

theorem keeps_withClearMask {body : Program α} (nine : rights.mask < 0o1000)
    (h : ∀ rights', body.Keeps Lending noWindow (Holding rights' loans)) :
    (withClearMask body).Keeps Lending noWindow (Holding rights loans) := by
  refine fun s held => (meets_umask 0 held).bind (fun old s₁ cleared => ?_) fun f s₁ failed => ?_
  · obtain ⟨same, cleared⟩ := cleared
    cases same
    refine (h _ s₁ cleared).ensuring fun r s₂ held => ?_
    refine (meets_umask _ held).bind (fun _ s₃ back => ?_) fun f s₃ failed => ?_
    · have back := back.2
      dsimp only at back
      rw [grantedBits_mask nine] at back
      exact back
    · cases failed.1
  · cases failed.1

theorem keeps_ensureDirectory (nine : rights.mask < 0o1000) (path : String) (uid gid mode : Int) :
    (ensureDirectory path uid gid mode).Keeps Lending noWindow (Holding rights loans) := by
  have creates : ∀ rights', (createDirectory path mode).Keeps Lending noWindow
      (Holding rights' loans) := by
    refine fun rights' => Keeps.attempted (keeps_idle rfl Keeps.ofExcept) (fun _ => .done _)
      fun e => ?_
    dsimp only
    split
    · exact (keeps_note _ _ _).bind fun _ => .done _
    · exact (keeps_note _ _ _).bind fun _ => .done _
  have makes : (makeDirectory path uid gid mode).Keeps Lending noWindow
      (Holding rights loans) := by
    refine (keeps_withClearMask nine creates).bind fun made => ?_
    cases made with
    | some result => exact .done _
    | none =>
      exact Keeps.attempted (keeps_idle rfl Keeps.ofExcept)
        (fun _ => (keeps_note _ _ _).bind fun _ => .done _)
        fun e => (keeps_note _ _ _).bind fun _ => (keeps_note _ _ _).bind fun _ => .done _
  refine Keeps.attempted (keeps_idle rfl Keeps.ofExcept)
    (fun _ => (keeps_note _ _ _).bind fun _ => .done _) fun e => ?_
  dsimp only
  split
  · exact makes
  · exact (keeps_note _ _ _).bind fun _ => .done _

/-! ## Files -/

theorem fileCalls {reading writing mode : Int} (reads : reading ∈ loans) (writes : writing ∈ loans) :
    FileCalls Lending noWindow (Holding rights loans) reading writing path mode where
  note := keeps_note
  read := fun _ => keeps_handled reads (fun _ => rfl) rfl (fun _ _ _ lends => lends) Keeps.ofExcept
  write := fun _ =>
    keeps_handled writes (fun _ => rfl) rfl (fun _ _ _ lends => lends) Keeps.ofExcept
  pause := keeps_idle rfl Keeps.ofExcept
  truncate := keeps_idle rfl Keeps.ofExcept
  chown := fun _ _ => keeps_idle rfl Keeps.ofExcept
  chmod := keeps_idle rfl Keeps.ofExcept

theorem meets_closeQuietly (free : n ∉ loans) (h : Holding rights (n :: loans) s)
    (event path : String) :
    (closeQuietly n event path).Meets Lending noWindow (fun _ s' => Holding rights loans s') s := by
  refine Meets.attempt (meets_close free h) ?_ ?_ fun _ _ _ => id
  · exact fun _ _ held => held
  · exact fun e s' => keeps_note _ _ _ s'

/-- A clean-up that gives back one descriptor, however the program before it ends. -/
theorem meets_ensuring_close {body : Program α} {event path : String} (free : n ∉ loans)
    (h : body.Meets Lending noWindow (fun _ s' => Holding rights (n :: loans) s') s) :
    (ensuring body (closeQuietly n event path)).Meets Lending noWindow
      (fun _ s' => Holding rights loans s') s := by
  refine h.ensuring fun r s' held => (meets_closeQuietly free held event path).mono ?_
  intro r' s'' held
  cases r' with
  | ok _ => exact held
  | error f => exact held

theorem meets_fillFile {reading writing : Int} (reads : reading ∈ loans) (free : writing ∉ loans)
    (h : Holding rights (writing :: loans) s) (c : Cloner) (path : String) (mode : Int) :
    (fillFile c reading writing path mode).Meets Lending noWindow
      (fun _ s' => Holding rights loans s') s := by
  have calls : FileCalls Lending noWindow (Holding rights (writing :: loans)) reading writing path
      mode := fileCalls (List.mem_cons_of_mem _ reads) List.mem_cons_self
  have filled : ∀ s', Holding rights (writing :: loans) s' →
      (ensuring ((stream c reading writing path).bind fun result => do
          let result ← finishOwner c path result
          finishMode path mode result)
        (closeQuietly writing "Error closing destination file" path)).Meets Lending noWindow
          (fun _ s'' => Holding rights loans s'') s' :=
    fun s' held => meets_ensuring_close free
      (((calls.stream c).bind fun result => (calls.finishOwner c result).bind
        calls.finishMode) s' held)
  -- cutting the file is not cleaned up after, so it must not fail in any other way
  have cut : (truncate path 0).Meets Lending noWindow
      (fun out s' => FailsOrderly out ∧ Holding rights (writing :: loans) s') s := by
    refine ⟨rfl, fun r s' step => meets_ofExcept.mpr ⟨?_, h.idle rfl step⟩⟩
    rintro f rfl
    have granted := step.1.2
    cases f <;> first | exact ⟨_, rfl⟩ | cases granted
  refine Meets.attempt cut ?_ ?_ fun f s' other failed => ?_
  · exact fun _ s' held => filled s' held.2
  · exact fun e s' held => ⟨rfl, fun _ s'' step => filled s'' (held.2.idle rfl step)⟩
  · obtain ⟨e, same⟩ := failed.1 f rfl
    exact absurd same (other e)

theorem keeps_copyFile (c : Cloner) (source path : String) (mode : Int) :
    (copyFile c source path mode).Keeps Lending noWindow (Holding rights loans) := by
  refine fun s h => Meets.attempt (meets_openRead h) ?_ ?_ fun _ _ _ => id
  · intro reading s₁ opened
    obtain ⟨free, held⟩ := opened
    refine meets_ensuring_close free ?_
    refine Meets.attempt (meets_openExclusive held) ?_ ?_ fun _ _ _ => id
    · exact fun writing s₂ opened =>
        meets_fillFile List.mem_cons_self opened.1 opened.2 c path mode
    · exact fun e s₂ held => ((keeps_note _ _ _).bind fun _ => .done _) s₂ held
  · exact fun e s₁ held => ((keeps_note _ _ _).bind fun _ => .done _) s₁ held

theorem keeps_placeLink (c : Cloner) (target path : String) :
    (placeLink c target path).Keeps Lending noWindow (Holding rights loans) := by
  refine Keeps.attempted (keeps_idle rfl Keeps.ofExcept) (fun _ => ?_)
    fun e => (keeps_note _ _ _).bind fun _ => .done _
  exact Keeps.attempted (keeps_idle rfl Keeps.ofExcept) (fun _ => .done _)
    fun e => (keeps_note _ _ _).bind fun _ => .done _

/-- Every part of a request gives back what it borrows. -/
theorem lendingParts (nine : rights.mask < 0o1000) :
    RequestParts Lending noWindow (Holding rights loans) where
  note := keeps_note
  stat := fun _ => keeps_idle rfl Keeps.ofExcept
  lstat := fun _ => keeps_idle rfl Keeps.ofExcept
  list := fun _ => keeps_idle rfl Keeps.ofExcept
  readlink := fun _ => keeps_idle rfl Keeps.ofExcept
  pause := keeps_idle rfl Keeps.ofExcept
  directory := keeps_ensureDirectory nine
  file := keeps_copyFile
  link := keeps_placeLink

/-! ## Windows -/

/-- A program that makes no call to the privilege controller leaves it as it is. -/
theorem meets_under {c : Controller} {p : Program α}
    {post : Except Fault α → Process × Option (List Int) → Prop}
    (h : p.Meets Lending noWindow post s) :
    (under c p).Meets Lending noWindow (fun out s' => ∃ r, out = .ok (r, c) ∧ post r s') s := by
  induction p generalizing s with
  | done a => exact ⟨_, rfl, h⟩
  | raise f => exact ⟨_, rfl, h⟩
  | call other next ih =>
    cases other with
    | elevate => exact absurd h.1 (by simp [noWindow, Call.isWindow])
    | relinquish => exact absurd h.1 (by simp [noWindow, Call.isWindow])
    | _ => exact ⟨rfl, fun r s' step => ih r (h.2 r s' step)⟩

theorem under_bind (c : Controller) (p : Program α) (k : α → Program β) :
    under c (p.bind k) = (under c p).bind fun r =>
      match r.1 with
      | .ok a => under r.2 (k a)
      | .error f => done (.error f, r.2) := by
  induction p generalizing c with
  | done a => rfl
  | raise f => rfl
  | call other next ih =>
    cases other with
    | elevate | relinquish => simp only [bind, under, bind_assoc, ih]
    | _ => simp only [bind, under, ih]

theorem under_outcome (c : Controller) (p : Program α) :
    under c p.outcome = (under c p).bind fun r => done (.ok r.1, r.2) := by
  induction p generalizing c with
  | done a => rfl
  | raise f => rfl
  | call other next ih =>
    cases other with
    | elevate | relinquish => simp only [outcome, under, bind_assoc, ih]
    | _ => simp only [bind, outcome, under, ih]

theorem meets_effectiveUid (h : Holding rights loans s) :
    (ask .effectiveUid).Meets Lending noWindow
      (fun out s' => out = .ok rights.uid ∧ Holding rights loans s') s :=
  ⟨rfl, fun _ _ step => ⟨congrArg _ (step.1.1.1.trans (congrArg _ h.rights)), h.idle rfl step⟩⟩

theorem meets_effectiveGid (h : Holding rights loans s) :
    (ask .effectiveGid).Meets Lending noWindow
      (fun out s' => out = .ok rights.gid ∧ Holding rights loans s') s :=
  ⟨rfl, fun _ _ step => ⟨congrArg _ (step.1.1.1.trans (congrArg _ h.rights)), h.idle rfl step⟩⟩

theorem meets_switchUid (wanted : Int) (h : Holding rights loans s) :
    (Controller.switchUid rights.uid wanted).Meets Lending noWindow
      (fun out s' => out = .ok (.ok ()) ∧ Holding { rights with uid := wanted } loans s') s := by
  unfold Controller.switchUid
  split
  · next same => exact ⟨rfl, same ▸ h⟩
  · refine meets_outcome.mpr ⟨rfl, fun r s' step => meets_ofExcept.mpr ?_⟩
    cases r with
    | error f => cases step.1.2
    | ok _ =>
      have becomes : s.1.Becomes { s.1.rights with uid := wanted } s'.1 := step.1.1
      rw [h.rights] at becomes
      exact ⟨rfl, h.next ((h.lend step).trans (lend_other rfl)) becomes⟩

theorem meets_switchGid (wanted : Int) (h : Holding rights loans s) :
    (Controller.switchGid rights.gid wanted).Meets Lending noWindow
      (fun out s' => out = .ok (.ok ()) ∧ Holding { rights with gid := wanted } loans s') s := by
  unfold Controller.switchGid
  split
  · next same => exact ⟨rfl, same ▸ h⟩
  · refine meets_outcome.mpr ⟨rfl, fun r s' step => meets_ofExcept.mpr ?_⟩
    cases r with
    | error f => cases step.1.2
    | ok _ =>
      have becomes : s.1.Becomes { s.1.rights with gid := wanted } s'.1 := step.1.1
      rw [h.rights] at becomes
      exact ⟨rfl, h.next ((h.lend step).trans (lend_other rfl)) becomes⟩

/-- The rights inside a window that a controller opens. -/
def within (rights : Rights) : Controller → Rights
  | .administrator 0 _ => { rights with uid := 0, gid := 0 }
  | _ => rights

/-- A controller after it has opened a window. -/
def widened (rights : Rights) : Controller → Controller
  | .administrator 0 _ => .administrator 1 (some (rights.uid, rights.gid))
  | .administrator (n + 1) saved => .administrator (n + 2) saved
  | .nominal n => .nominal (n + 1)

theorem meets_elevate (c : Controller) (h : Holding rights loans s) :
    c.elevate.Meets Lending noWindow (fun out s' =>
      out = .ok (.ok (), widened rights c) ∧ Holding (within rights c) loans s') s := by
  match c with
  | .nominal n => exact ⟨rfl, h⟩
  | .administrator (n + 1) saved => exact ⟨rfl, h⟩
  | .administrator 0 saved =>
    exact (meets_effectiveUid h).surely fun s₁ h => (meets_effectiveGid h).surely fun s₂ h =>
      (meets_switchUid 0 h).surely fun s₃ h => (meets_switchGid 0 h).surely fun s₄ h => ⟨rfl, h⟩

theorem meets_relinquish (c : Controller) (h : Holding (within rights c) loans s) :
    (widened rights c).relinquish.Meets Lending noWindow (fun out s' =>
      ∃ c', out = .ok (.ok (), c') ∧ c'.depth = c.depth ∧ Holding rights loans s') s := by
  match c with
  | .nominal n => exact ⟨.nominal n, rfl, rfl, h⟩
  | .administrator (n + 1) saved => exact ⟨.administrator (n + 1) saved, rfl, rfl, h⟩
  | .administrator 0 saved =>
    refine Meets.surely (a := .ok ()) (q := Holding rights loans) ?_
      fun s' h => ⟨.administrator 0 none, rfl, rfl, h⟩
    exact (meets_effectiveGid h).surely fun s₁ h => (meets_switchGid rights.gid h).surely fun s₂ h =>
      (meets_effectiveUid h).surely fun s₃ h => meets_switchUid rights.uid h

/-- What is done in a window, with the window closed again. -/
theorem meets_under_elevated {body : Program α} (c : Controller)
    (h : ∀ s', Holding (within rights c) loans s' →
      body.Meets Lending noWindow (fun _ => Holding (within rights c) loans) s')
    (held : Holding rights loans s) :
    (under c (elevated body)).Meets Lending noWindow (fun out s' =>
      ∃ r c', out = .ok (r, c') ∧ c'.depth = c.depth ∧ Holding rights loans s') s := by
  change ((c.elevate).bind fun r => under r.2 ((ofExcept r.1).bind fun _ =>
    ensuring body (call .relinquish ofExcept))).Meets Lending noWindow _ s
  refine (meets_elevate c held).surely fun s₁ held => ?_
  change (under (widened rights c) (body.outcome.bind fun result =>
    (call .relinquish ofExcept).bind fun _ => ofExcept result)).Meets Lending noWindow _ s₁
  rw [under_bind, under_outcome, bind_assoc]
  refine (meets_under (h s₁ held)).bind ?_ fun f s₂ bad => ?_
  · rintro _ s₂ ⟨result, same, held⟩
    cases same
    refine (meets_relinquish c held).bind ?_ fun f s₃ bad => ?_
    · rintro _ s₃ ⟨c', same, depth, held⟩
      cases same
      cases result with
      | ok a => exact ⟨.ok a, c', rfl, depth, held⟩
      | error f => exact ⟨.error f, c', rfl, depth, held⟩
    · obtain ⟨_, bad, _⟩ := bad
      cases bad
  · obtain ⟨_, bad, _⟩ := bad
    cases bad

/-! ## Requests -/

/-- A request ends with as many open windows as it was started with, with the rights of the process
as they were and with no descriptor on loan. -/
theorem meets_provision (c : Controller) (nine : rights.mask < 0o1000) (r : Request)
    (user : String) (chunkSize : Option Int) (limits : Limits) (h : Holding rights [] s) :
    (under c (provision r user chunkSize limits)).Meets Lending noWindow (fun out s' =>
      ∃ result c', out = .ok (result, c') ∧ c'.depth = c.depth ∧ Holding rights [] s') s := by
  have inside : (within rights c).mask < 0o1000 := by
    match c with
    | .nominal n => exact nine
    | .administrator (n + 1) saved => exact nine
    | .administrator 0 saved => exact nine
  unfold provision
  rw [bind_eq, under_bind]
  refine (meets_under_elevated c
    ((lendingParts inside).establishHome r user chunkSize limits) h).bind ?_ fun f s₁ bad => ?_
  · rintro _ s₁ ⟨result, c', same, depth, held⟩
    cases same
    cases result with
    | error f => exact ⟨_, c', rfl, depth, held⟩
    | ok outcome =>
      have ended : ∀ {p : Program ProvisionResult}, p.Keeps Lending noWindow (Holding rights []) →
          (under c' p).Meets Lending noWindow (fun out s' =>
            ∃ result c', out = .ok (result, c') ∧ c'.depth = c.depth ∧ Holding rights [] s') s₁ :=
        fun kept => (meets_under (kept s₁ held)).mono fun _ _ reached =>
          let ⟨result, same, held⟩ := reached
          ⟨result, c', same, depth, held⟩
      cases outcome with
      | ready report => exact ended ((keeps_note _ _ _).bind fun _ => .done _)
      | _ => exact ended (.done _)
  · obtain ⟨_, _, bad, _⟩ := bad
    cases bad

end Holding

/-- What is borrowed is given back. However a request ends and whatever fails, every descriptor that
it opened was closed once and not used after that, and the creation mask, the effective identity and
the number of open windows are those that it started with. -/
theorem provision_givesBack {world : Layer σ} {view : σ → Process} (keeps : world.KeepsTo Lends view)
    (c : Controller) (r : Request) (user : String) (chunkSize : Option Int) (limits : Limits)
    {s : σ} (nine : (view s).rights.mask < 0o1000)
    (granted : ∀ x ∈ (under c (provision r user chunkSize limits)).trace world s,
      Granted x.call x.reply) :
    GivenBack ((under c (provision r user chunkSize limits)).trace world s) ∧
      (view ((under c (provision r user chunkSize limits)).run world s).2).rights =
        (view s).rights ∧
      ∃ result c', ((under c (provision r user chunkSize limits)).run world s).1 =
        .ok (result, c') ∧ c'.depth = c.depth := by
  have start : Holding (view s).rights [] (view s, some []) :=
    ⟨rfl, fun _ mem => absurd mem List.not_mem_nil, rfl⟩
  obtain ⟨result, c', ends, depth, held⟩ :=
    Meets.watched keeps granted (Holding.meets_provision c nine r user chunkSize limits start)
  refine ⟨givenBack_of_ledger ?_, held.rights, result, c', ends, depth⟩
  rw [← history_trace world view, ledger, List.foldl_map]
  exact held.book

/-- The hook of a user who interrupts the program as soon as a file is open, on a machine that
closes no file. -/
def interruption (c : Call) (m : Machine) : Option Fault :=
  match c with
  | .pause => if m.descriptors.isEmpty then none else some (.thrown .interrupt "")
  | .close _ => some (Machine.refusedDescriptor .badDescriptor)
  | _ => none

/-- A request that is interrupted while it copies a file, by a process with changed rights. -/
theorem provision_givesBack_interrupted :
    let request : Request :=
      { target := "/home/u", ownerUid := 7, ownerGid := 7, skeleton := some "/skel" }
    let m : Machine := { Machine.sample with effectiveUid := 7, effectiveGid := 7 }
    let work := under (.administrator 0 none) (provision request "u" none { depth := 3, pieces := 3 })
    (work.run (Machine.failing interruption) m).1 =
        .ok (.error (.thrown .interrupt ""), .administrator 0 none) ∧
      GivenBack (work.trace (Machine.failing interruption) m) := by
  intro request m work
  have granted : ∀ x ∈ work.trace (Machine.failing interruption) m, Granted x.call x.reply := by
    decide
  refine ⟨by decide, ?_⟩
  exact (provision_givesBack (Machine.failing_lends interruption) _ request "u" none _ (by decide)
    granted).1

end Program

end HomeProvision
