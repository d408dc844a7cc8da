import HomeProvision.Proofs.Nesting

/-!
# A release that fails

Where the last window is closed the identity is given back, and a call for that may fail. The
controller has forgotten by then what it was to give back: no later call to it makes up for the
failure, and the process keeps the administrator as its effective user (`failed_release_lasts`).
Closing is unlike opening in this, where a failure restores the user that was there.
-/

namespace HomeProvision.Program

variable {α σ : Type} {p : Credentials}

/-! ## Giving an identity back -/

theorem switchGid_same_uid (current wanted : Int) :
    (Controller.switchGid current wanted).Meets Identifies (fun _ _ => True)
      (fun _ p' => p'.real = p.real ∧ p'.uid = p.uid) p := by
  unfold Controller.switchGid
  split
  · exact ⟨rfl, rfl⟩
  · refine meets_outcome.mpr ⟨trivial, fun r p' step => meets_ofExcept.mpr ?_⟩
    cases r with
    | ok _ => rw [show p' = { p with gid := wanted } from step]; exact ⟨rfl, rfl⟩
    | error f => rw [show p' = p from step]; exact ⟨rfl, rfl⟩

theorem switchUid_same_of_error (current wanted : Int) :
    (Controller.switchUid current wanted).Meets Identifies (fun _ _ => True)
      (fun out p' => ∀ f, out = .ok (.error f) → p' = p) p := by
  unfold Controller.switchUid
  split
  · exact fun f bad => by cases bad
  · refine meets_outcome.mpr ⟨trivial, fun r p' step => meets_ofExcept.mpr ?_⟩
    cases r with
    | ok _ => exact fun f bad => by cases bad
    | error f => exact fun _ _ => step

/-- Where an identity is not given back, the effective user stays. -/
theorem giveBack_same_uid_of_error (uid gid : Int) :
    (Controller.giveBack uid gid).Meets Identifies (fun _ _ => True)
      (fun out p' => ∀ f, out = .ok (.error f) → p'.real = p.real ∧ p'.uid = p.uid) p := by
  refine Meets.bind (q := fun _ p' => p = p') ⟨trivial, fun _ _ step => step.2.symm⟩
    (fun now _ same => ?_) fun f _ _ _ bad => by cases bad
  subst same
  refine (switchGid_same_uid now gid).bind (fun switched p₁ kept => ?_)
    fun f _ _ _ bad => by cases bad
  cases switched with
  | error f => exact fun _ _ => kept
  | ok _ =>
    refine Meets.bind (q := fun _ p' => p₁ = p') ⟨trivial, fun _ _ step => step.2.symm⟩
      (fun now _ same => ?_) fun f _ _ _ bad => by cases bad
    subst same
    refine (switchUid_same_of_error now uid).mono fun out p₂ same f ends => ?_
    rw [same f ends]
    exact kept

/-! ## After the failure -/

/-- A process that was the administrator to begin with is so always. -/
theorem Standing.uid_eq_zero {home : Credentials} {c : Controller} (h : Standing home c p)
    (root : home.uid = 0) : p.uid = 0 := by
  cases h with
  | outside => exact root
  | inside n => rfl

/-- A release that fails cannot be made up for. Whatever identity was to be given back, the
controller has forgotten it: closing does nothing more, and also when no call fails any more the
process has the administrator as its effective user at every moment of whatever it does with its
windows, and in the end. -/
theorem failed_release_lasts {world later : Layer σ} {view : σ → Credentials}
    (keeps : world.KeepsTo Identifies view) (heals : later.KeepsTo Switches view)
    {saved : Int × Int} {s s' : σ} {f : Fault} {c : Controller} (root : (view s).real = 0)
    (inside : (view s).uid = 0)
    (fails : (Controller.administrator 1 (some saved)).relinquish.run world s =
      (.ok (.error f, c), s')) :
    c = .administrator 0 none ∧ (∀ t, c.relinquish.run later t = (.ok (.ok (), c), t)) ∧
      ∀ {p : Program α}, (p.Makes (fun _ _ => True) fun c => c.setsIdentity = false) →
        (∀ x ∈ p.history later.governed id (s', c), (view x.state.1).uid = 0) ∧
          (view ((under c p).run later s').2).uid = 0 := by
  obtain ⟨result, s₁, gives, ends, -⟩ := bind_run_eq_ok
    (p := Controller.giveBack saved.1 saved.2) fails
  cases ends
  have kept := (giveBack_same_uid_of_error saved.1 saved.2).run (s := s) keeps
  rw [gives] at kept
  obtain ⟨real, uid⟩ := kept f rfl
  have start : Standing (view s') (.administrator 0 none) (view s') := .outside
  refine ⟨rfl, fun _ => rfl, fun own => ⟨fun x mem => ?_, ?_⟩⟩
  · obtain ⟨before, after, same⟩ := List.append_of_mem mem
    exact (history_stands heals (real.trans root) own start same).2.1.uid_eq_zero (uid.trans inside)
  · rw [run_under]
    exact (run_stands heals (real.trans root) own start).1.uid_eq_zero (uid.trans inside)

/-- A kernel that refuses to change the group. -/
def stuck : Layer Credentials where
  reply c p :=
    match c with
    | .setEffectiveGid _ => (.error (Machine.refusedDescriptor .notPermitted), p)
    | c => Credentials.layer.reply c p

theorem stuck_identifies : stuck.KeepsTo Identifies id := by
  intro c p
  cases c with
  | setEffectiveGid gid => exact rfl
  | _ => exact (Credentials.layer_switches _ p).1

/-- A process that was another user's stays the administrator's, although every call succeeds once
the group cannot be given back. -/
theorem failed_release_lasts_stuck :
    let left : Credentials := ⟨0, 0, 0⟩
    (Controller.administrator 1 (some (1000, 100))).relinquish.run stuck left =
        (.ok (.error (Machine.refusedDescriptor .notPermitted), .administrator 0 none), left) ∧
      ((under (.administrator 0 none) (call .relinquish ofExcept : Program Unit)).run
        Credentials.layer left).2.uid = 0 := by
  intro left
  have fails : (Controller.administrator 1 (some (1000, 100))).relinquish.run stuck left =
      (.ok (.error (Machine.refusedDescriptor .notPermitted), .administrator 0 none), left) := by
    decide
  have closes : (call .relinquish ofExcept : Program Unit).Makes (fun _ _ => True)
      fun c => c.setsIdentity = false := .call rfl fun _ _ => .ofExcept _
  exact ⟨fails, ((failed_release_lasts stuck_identifies Credentials.layer_switches rfl rfl
    fails).2.2 closes).2⟩

end HomeProvision.Program
