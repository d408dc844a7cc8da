import HomeProvision.Proofs.Borrowed

/-!
# Governed worlds

A controller can answer the calls to it inside the program (`Program.under`) or as a part of the
world: `world.governed` is a world beside which a controller is kept. The runs are the same
(`run_under`), and in a governed world the controller can be looked at between any two calls.

`Governing` is what happens there to the creation mask and to the number of open windows, in a world
where only a call of `umask` changes the mask (`Masking`).
-/

namespace HomeProvision

variable {α σ : Type}

/-- What calls do to the creation mask. A call that fails leaves it as it is. -/
def Masking (c : Call) (mask : Nat) (r : c.Reply) (mask' : Nat) : Prop :=
  match c, r with
  | .umask new, .ok old => old = (mask : Int) ∧ mask' = Machine.grantedBits new 0o777
  | _, _ => mask' = mask

theorem Lends.masking {c : Call} {p p' : Process} {r : c.Reply} (h : Lends c p r p') :
    Masking c p.rights.mask r p'.rights.mask := by
  cases c with
  | umask new =>
    cases r with
    | ok old => exact ⟨h.1, congrArg Rights.mask h.2.2⟩
    | error f => exact congrArg Rights.mask h.2
  | openRead path | openExclusive path mode =>
    cases r with
    | ok n => exact congrArg Rights.mask h.2.2.2
    | error f => exact congrArg Rights.mask h.2
  | setEffectiveUid uid | setEffectiveGid gid =>
    cases r with
    | ok _ => exact (congrArg Rights.mask h.2).trans rfl
    | error f => exact congrArg Rights.mask h.2
  | effectiveUid | effectiveGid => exact congrArg Rights.mask h.2.2
  | _ => exact congrArg Rights.mask h.2

theorem Machine.failing_masks (fault : Call → Machine → Option Fault) :
    (Machine.failing fault).KeepsTo Masking Machine.mask :=
  fun c m => (Machine.failing_lends fault c m).masking

/-- Whether a call sets the creation mask. -/
def Call.isUmask : Call → Bool
  | .umask _ => true
  | _ => false

/-! ## The world with its controller -/

/-- What a controller answers, and what it leaves behind. -/
def Controller.answered (c : Controller) :
    Except Fault (Except Fault Unit × Controller) × σ → Except Fault Unit × (σ × Controller)
  | (.ok (r, c'), s) => (r, s, c')
  | (.error f, s) => (.error f, s, c)

/-- A world in which a controller answers the calls to it. -/
def Layer.governed (world : Layer σ) : Layer (σ × Controller) where
  reply c s :=
    match c with
    | .elevate => s.2.answered (s.2.elevate.run world s.1)
    | .relinquish => s.2.answered (s.2.relinquish.run world s.1)
    | c => ((world.reply c s.1).1, (world.reply c s.1).2, s.2)

theorem Layer.governed_reply {world : Layer σ} {c : Call} (own : c.isWindow = false)
    (s : σ × Controller) : (world.governed.reply c s).2.1 = (world.reply c s.1).2 := by
  cases c <;> first | rfl | cases own

namespace Program

/-- Whether a program does not fail and sets no mask, and what it gives is good. -/
def Gives (good : α → Prop) (p : Program α) : Prop :=
  p.Yields (fun _ _ => True) fun out t =>
    (∃ a, out = .ok a ∧ good a) ∧ ∀ x ∈ t, x.call.isUmask = false

namespace Gives

variable {β : Type} {good : α → Prop}

theorem done {a : α} (h : good a) : (Program.done a).Gives good :=
  ⟨⟨a, rfl, h⟩, fun _ mem => absurd mem List.not_mem_nil⟩

theorem bind {p : Program α} {k : α → Program β} {good' : β → Prop} (first : p.Gives good)
    (onward : ∀ a, good a → (k a).Gives good') : (p.bind k).Gives good' := by
  refine Yields.bind first (fun a t reached => ?_) fun f t reached => ?_
  · obtain ⟨⟨_, same, h⟩, others⟩ := reached
    cases same
    refine (onward a h).mono fun out t' reached => ⟨reached.1, fun x mem => ?_⟩
    exact (List.mem_append.mp mem).elim (others x) (reached.2 x)
  · obtain ⟨⟨_, same, _⟩, _⟩ := reached
    cases same

theorem any {p : Program α} (h : p.Gives good) : p.Gives fun _ => True :=
  h.mono fun _ _ reached => ⟨reached.1.imp fun _ ends => ⟨ends.1, trivial⟩, reached.2⟩

theorem effectiveUid : (ask .effectiveUid).Gives fun _ => True :=
  fun uid _ => ⟨⟨uid, rfl, trivial⟩, by simp [Call.isUmask]⟩

theorem effectiveGid : (ask .effectiveGid).Gives fun _ => True :=
  fun gid _ => ⟨⟨gid, rfl, trivial⟩, by simp [Call.isUmask]⟩

theorem switchUid (current wanted : Int) :
    (Controller.switchUid current wanted).Gives fun _ => True := by
  unfold Controller.switchUid
  split
  · exact .done trivial
  · intro r _
    cases r <;> exact ⟨⟨_, rfl, trivial⟩, by simp [Call.isUmask]⟩

theorem switchGid (current wanted : Int) :
    (Controller.switchGid current wanted).Gives fun _ => True := by
  unfold Controller.switchGid
  split
  · exact .done trivial
  · intro r _
    cases r <;> exact ⟨⟨_, rfl, trivial⟩, by simp [Call.isUmask]⟩

end Gives

/-! ## Controllers -/

/-- A controller does not fail, and a window that it opens counts. -/
theorem elevate_gives (c : Controller) :
    c.elevate.Gives fun r => r.1 = .ok () → r.2.depth = c.depth + 1 := by
  match c with
  | .nominal n => exact .done fun _ => rfl
  | .administrator (n + 1) saved => exact .done fun _ => rfl
  | .administrator 0 saved =>
    refine Gives.bind .effectiveUid fun uid _ => Gives.bind .effectiveGid fun gid _ =>
      .bind (.switchUid _ _) fun r _ => ?_
    cases r with
    | error f => exact .done fun bad => by cases bad
    | ok _ =>
      refine .bind (.switchGid _ _) fun r _ => ?_
      cases r with
      | ok _ => exact .done fun _ => rfl
      | error f =>
        cases f with
        | system e =>
          refine .bind (.switchUid _ _) fun r _ => ?_
          cases r with
          | ok _ => exact .done fun bad => by cases bad
          | error f => exact .done fun bad => by cases bad
        | _ => exact .done fun bad => by cases bad

theorem relinquish_gives (c : Controller) : c.relinquish.Gives fun _ => True := by
  match c with
  | .nominal n => exact .done trivial
  | .administrator 0 saved => exact .done trivial
  | .administrator 1 none => exact .done trivial
  | .administrator (n + 2) saved => exact .done trivial
  | .administrator 1 (some (uid, gid)) =>
    refine .bind (?_ : (Controller.giveBack uid gid).Gives fun _ => True) fun _ _ => .done trivial
    refine Gives.bind .effectiveGid fun now _ => .bind (.switchGid _ _) fun r _ => ?_
    cases r with
    | error f => exact .done trivial
    | ok _ => exact Gives.bind .effectiveUid fun now _ => .switchUid _ _

/-- The run of a program that does not fail and sets no mask. -/
theorem Gives.run {good : α → Prop} {p : Program α} {world : Layer σ} {s : σ} (h : p.Gives good) :
    ∃ a, (p.run world s).1 = .ok a ∧ good a :=
  (Yields.run (fun _ _ => trivial) h).1

theorem Gives.run_mask {good : α → Prop} {p : Program α} {world : Layer σ} {mask : σ → Nat}
    (keeps : world.KeepsTo Masking mask) (h : p.Gives good) (s : σ) :
    mask (p.run world s).2 = mask s := by
  have any : world.Allows fun _ _ => True := fun _ _ => trivial
  have others := (Yields.run (s := s) any h).2
  clear h
  induction p generalizing s with
  | done a => rfl
  | raise f => rfl
  | call c next ih =>
    have same : mask (world.reply c s).2 = mask s := by
      have other := others _ List.mem_cons_self
      have step := keeps c s
      cases c <;> first | exact step | cases other
    exact (ih _ _ fun x mem => others x (List.mem_cons_of_mem _ mem)).trans same

/-- A run with a controller inside the program is a run in the governed world. -/
theorem run_under (world : Layer σ) (p : Program α) (c : Controller) (s : σ) :
    (under c p).run world s =
      (.ok ((p.run world.governed (s, c)).1, (p.run world.governed (s, c)).2.2),
        (p.run world.governed (s, c)).2.1) := by
  induction p generalizing c s with
  | done a => rfl
  | raise f => rfl
  | call other next ih =>
    -- a controller that does not fail answers in both worlds in the same way
    have answers : ∀ {q : Program (Except Fault Unit × Controller)}, (q.Gives fun _ => True) →
        ∀ {k : Except Fault Unit → Program α},
          (∀ r c s, (under c (k r)).run world s =
            (.ok (((k r).run world.governed (s, c)).1, ((k r).run world.governed (s, c)).2.2),
              ((k r).run world.governed (s, c)).2.1)) →
          (q.bind fun r => under r.2 (k r.1)).run world s =
            (.ok (((k (c.answered (q.run world s)).1).run world.governed
                (c.answered (q.run world s)).2).1,
              ((k (c.answered (q.run world s)).1).run world.governed
                (c.answered (q.run world s)).2).2.2),
              ((k (c.answered (q.run world s)).1).run world.governed
                (c.answered (q.run world s)).2).2.1) := by
      intro q gives k same
      obtain ⟨a, ends, _⟩ := gives.run
      rw [run_bind]
      cases run : q.run world s with
      | mk out s' =>
        rw [run] at ends
        cases ends
        exact same a.1 a.2 s'
    cases other with
    | elevate => exact answers (elevate_gives c).any ih
    | relinquish => exact answers (relinquish_gives c) ih
    | _ => exact ih _ c _

/-! ## What happens in a governed world -/

/-- What calls do to the creation mask and to a controller beside it. -/
def Governing : Rule (Nat × Controller) := fun c s r s' =>
  match c, r with
  | .elevate, r => s'.1 = s.1 ∧ (r = .ok () → s'.2.depth = s.2.depth + 1)
  | .relinquish, _ => s'.1 = s.1
  | c, r => Masking c s.1 r s'.1 ∧ s'.2 = s.2

theorem governed_keepsTo {world : Layer σ} {mask : σ → Nat} (keeps : world.KeepsTo Masking mask) :
    world.governed.KeepsTo Governing fun s => (mask s.1, s.2) := by
  intro c s
  obtain ⟨s, k⟩ := s
  cases c with
  | elevate =>
    obtain ⟨a, ends, counts⟩ := (elevate_gives k).run
    have same := (elevate_gives k).run_mask keeps s
    change Governing .elevate (mask s, k) (k.answered (k.elevate.run world s)).1
      (mask (k.answered (k.elevate.run world s)).2.1, (k.answered (k.elevate.run world s)).2.2)
    cases run : k.elevate.run world s with
    | mk out s' =>
      rw [run] at ends same
      cases ends
      exact ⟨same, counts⟩
  | relinquish =>
    obtain ⟨a, ends, _⟩ := (relinquish_gives k).run
    have same := (relinquish_gives k).run_mask keeps s
    change mask (k.answered (k.relinquish.run world s)).2.1 = mask s
    cases run : k.relinquish.run world s with
    | mk out s' =>
      rw [run] at ends same
      cases ends
      exact same
  | _ => exact ⟨keeps _ s, rfl⟩

end Program

end HomeProvision
