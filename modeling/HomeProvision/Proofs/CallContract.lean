import HomeProvision.Proofs.Change

/-!
# Contracts of calls

What each call does on a disturbed machine, in the form that the contracts of programs are put
together from. A call either goes well, as the machine has it, or comes back with a fault and
nothing has changed.
-/

namespace HomeProvision.Program

open Machine

variable {α : Type} {spared : Call → Prop} {guard : Call → Machine → Prop} {m : Machine}

theorem meets_call_of {c : Call} {next : c.Reply → Program α}
    {post : Except Fault α → Machine → Prop} (own : c.isForeign = false) (allowed : guard c m)
    (answered : (next (m.reply c).1).Meets (Disturbed spared) guard post (m.reply c).2)
    (failed : ¬ spared c → ∀ r, (c.fault? r).isSome = true →
      (next r).Meets (Disturbed spared) guard post m) :
    (call c next).Meets (Disturbed spared) guard post m := by
  refine ⟨allowed, fun r m' step => ?_⟩
  cases step with
  | answered => exact answered
  | failed _ exposed fails => exact failed exposed r fails
  | foreign _ foreign => rw [own] at foreign; cases foreign

theorem meets_of_fault {r : Except Fault α} {post : Except Fault α → Machine → Prop}
    (failed : ∀ f, post (.error f) m) (fails : (faultOf r).isSome = true) :
    (ofExcept r).Meets (Disturbed spared) guard post m := by
  cases r with
  | ok a => cases fails
  | error f => exact failed f

theorem meets_changed {e : Except Fault Machine} {post : Except Fault Unit → Machine → Prop}
    (done : ∀ m', e = .ok m' → post (.ok ()) m') (failed : ∀ f, post (.error f) m) :
    (ofExcept (m.changed e).1).Meets (Disturbed spared) guard post (m.changed e).2 := by
  cases e with
  | ok m' => exact done m' rfl
  | error f => exact failed f

theorem meets_answered {e : Except Fault (α × Machine)} {post : Except Fault α → Machine → Prop}
    (done : ∀ a m', e = .ok (a, m') → post (.ok a) m') (failed : ∀ f, post (.error f) m) :
    (ofExcept (m.answered e).1).Meets (Disturbed spared) guard post (m.answered e).2 := by
  cases e with
  | ok result => exact done result.1 result.2 rfl
  | error f => exact failed f

variable {path : String} {post : Except Fault Unit → Machine → Prop}

theorem meets_mkdir {mode : Int} (allowed : guard (.mkdir path mode) m)
    (done : ∀ m', m.mkdir path mode = .ok m' → post (.ok ()) m') (failed : ∀ f, post (.error f) m) :
    (mkdir path mode).Meets (Disturbed spared) guard post m :=
  meets_call_of rfl allowed (meets_changed done failed) fun _ _ => meets_of_fault failed

theorem meets_chown {uid gid : Int} (allowed : guard (.chown path uid gid) m)
    (done : ∀ m', m.chown true path uid gid = .ok m' → post (.ok ()) m')
    (failed : ∀ f, post (.error f) m) :
    (chown path uid gid).Meets (Disturbed spared) guard post m :=
  meets_call_of rfl allowed (meets_changed done failed) fun _ _ => meets_of_fault failed

theorem meets_lchown {uid gid : Int} (allowed : guard (.lchown path uid gid) m)
    (done : ∀ m', m.chown false path uid gid = .ok m' → post (.ok ()) m')
    (failed : ∀ f, post (.error f) m) :
    (lchown path uid gid).Meets (Disturbed spared) guard post m :=
  meets_call_of rfl allowed (meets_changed done failed) fun _ _ => meets_of_fault failed

theorem meets_chmod {mode : Int} (allowed : guard (.chmod path mode) m)
    (done : ∀ m', m.chmod path mode = .ok m' → post (.ok ()) m') (failed : ∀ f, post (.error f) m) :
    (chmod path mode).Meets (Disturbed spared) guard post m :=
  meets_call_of rfl allowed (meets_changed done failed) fun _ _ => meets_of_fault failed

theorem meets_truncate {length : Int} (allowed : guard (.truncate path length) m)
    (done : ∀ m', m.truncate path length = .ok m' → post (.ok ()) m')
    (failed : ∀ f, post (.error f) m) :
    (truncate path length).Meets (Disturbed spared) guard post m :=
  meets_call_of rfl allowed (meets_changed done failed) fun _ _ => meets_of_fault failed

theorem meets_symlink {target : String} (allowed : guard (.symlink target path) m)
    (done : ∀ m', m.symlink target path = .ok m' → post (.ok ()) m')
    (failed : ∀ f, post (.error f) m) :
    (symlink target path).Meets (Disturbed spared) guard post m :=
  meets_call_of rfl allowed (meets_changed done failed) fun _ _ => meets_of_fault failed

theorem meets_openExclusive {post : Except Fault Int → Machine → Prop}
    (allowed : guard (.openExclusive path freshFileMode) m)
    (done : ∀ number m', m.openExclusive path freshFileMode = .ok (number, m') →
      post (.ok number) m')
    (failed : ∀ f, post (.error f) m) :
    (openExclusive path).Meets (Disturbed spared) guard post m :=
  meets_call_of rfl allowed (meets_answered done failed) fun _ _ => meets_of_fault failed

theorem meets_read {number size : Int} {post : Except Fault (List UInt8) → Machine → Prop}
    (allowed : guard (.read number size) m)
    (done : ∀ bytes m', m.read number size = .ok (bytes, m') → post (.ok bytes) m')
    (failed : ∀ f, post (.error f) m) :
    (read number size).Meets (Disturbed spared) guard post m :=
  meets_call_of rfl allowed (meets_answered done failed) fun _ _ => meets_of_fault failed

theorem meets_write {number : Int} {bytes : List UInt8} {post : Except Fault Int → Machine → Prop}
    (allowed : guard (.write number bytes) m)
    (done : ∀ written m', m.write number bytes = .ok (written, m') → post (.ok written) m')
    (failed : ∀ f, post (.error f) m) :
    (write number bytes).Meets (Disturbed spared) guard post m :=
  meets_call_of rfl allowed (meets_answered done failed) fun _ _ => meets_of_fault failed

/-! ## Calls that change no node -/

theorem changed_sameTree {e : Except Fault Machine}
    (same : ∀ m', e = .ok m' → m'.tree = m.tree ∧ m'.current = m.current) :
    (m.changed e).2.tree = m.tree ∧ (m.changed e).2.current = m.current := by
  cases e with
  | ok m' => exact same m' rfl
  | error f => exact ⟨rfl, rfl⟩

theorem openRead_sameTree {number : Int} {m' : Machine} (h : m.openRead path = .ok (number, m')) :
    m'.tree = m.tree ∧ m'.current = m.current := by
  obtain ⟨⟨i, n⟩, _, h⟩ := bind_eq_ok.mp h
  dsimp only at h
  split at h
  · cases h
  · cases h
    exact ⟨rfl, rfl⟩

/-- A call that changes no node leaves the tree alone. -/
theorem sameTree_of_disturbed {c : Call} {r : c.Reply} {m' : Machine}
    (step : Disturbed spared c m r m') (quiet : c.changesTree = false) :
    m'.tree = m.tree ∧ m'.current = m.current := by
  cases step with
  | failed => exact ⟨rfl, rfl⟩
  | foreign _ _ same => exact ⟨same.tree, same.current⟩
  | answered =>
    cases c with
    | mkdir | chown | lchown | chmod | openExclusive | write | truncate | symlink => cases quiet
    | openRead path =>
      simp only [reply]
      cases opened : m.openRead path with
      | ok result => exact openRead_sameTree opened
      | error f => exact ⟨rfl, rfl⟩
    | read number size =>
      simp only [reply]
      cases done : m.read number size with
      | ok result => exact ⟨(read_ok done).1, (read_ok done).2.1⟩
      | error f => exact ⟨rfl, rfl⟩
    | close number =>
      refine changed_sameTree fun m' closed => ?_
      obtain ⟨d, _, closed⟩ := bind_eq_ok.mp closed
      cases closed
      exact ⟨rfl, rfl⟩
    | setEffectiveUid uid =>
      refine changed_sameTree fun m' done => ?_
      unfold Machine.setEffectiveUid at done
      split at done <;> cases done
      exact ⟨rfl, rfl⟩
    | setEffectiveGid gid =>
      refine changed_sameTree fun m' done => ?_
      unfold Machine.setEffectiveGid at done
      split at done <;> cases done
      exact ⟨rfl, rfl⟩
    | _ => exact ⟨rfl, rfl⟩

/-- A call that neither changes a node nor opens, closes or moves in a file. -/
theorem sameFiles_of_disturbed {c : Call} {r : c.Reply} {m' : Machine}
    (step : Disturbed spared c m r m') (quiet : c.changesTree = false)
    (still : c.changesFiles = false) : SameFiles m m' := by
  obtain ⟨tree, current⟩ := sameTree_of_disturbed step quiet
  refine ⟨tree, current, ?_⟩
  cases step with
  | failed => rfl
  | foreign _ _ same => exact same.descriptors
  | answered =>
    cases c with
    | mkdir | chown | lchown | chmod | openExclusive | write | truncate | symlink => cases quiet
    | openRead | read | close => cases still
    | setEffectiveUid uid =>
      simp only [reply]
      unfold Machine.setEffectiveUid
      split <;> rfl
    | setEffectiveGid gid =>
      simp only [reply]
      unfold Machine.setEffectiveGid
      split <;> rfl
    | _ => rfl

/-! ## Calls that keep an invariant -/

variable {invariant : Machine → Prop} {c : Call} {next : c.Reply → Program α}

/-- A call that changes no node keeps an invariant of the tree. -/
theorem Keeps.quiet (quiet : c.changesTree = false) (allowed : ∀ m, invariant m → guard c m)
    (same : ∀ m m', m'.tree = m.tree → m'.current = m.current → invariant m → invariant m')
    (onward : ∀ r, (next r).Keeps (Disturbed spared) guard invariant) :
    (call c next).Keeps (Disturbed spared) guard invariant := by
  refine fun m h => ⟨allowed m h, fun r m' step => onward r m' ?_⟩
  obtain ⟨tree, current⟩ := sameTree_of_disturbed step quiet
  exact same m m' tree current h

/-- A call that also leaves open files alone keeps an invariant of the tree and of these. -/
theorem Keeps.still (quiet : c.changesTree = false) (still : c.changesFiles = false)
    (allowed : ∀ m, invariant m → guard c m)
    (same : ∀ m m', SameFiles m m' → invariant m → invariant m')
    (onward : ∀ r, (next r).Keeps (Disturbed spared) guard invariant) :
    (call c next).Keeps (Disturbed spared) guard invariant :=
  fun m h => ⟨allowed m h, fun r m' step =>
    onward r m' (same m m' (sameFiles_of_disturbed step quiet still) h)⟩

end HomeProvision.Program
