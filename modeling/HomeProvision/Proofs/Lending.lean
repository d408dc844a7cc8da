import HomeProvision.Proofs.Change

/-!
# What a process holds

A process has descriptors that are taken, a creation mask and an effective identity. `Lends` is what
calls do to these, as far as a program that borrows them relies on it. It leaves open what replies
are given and whether a call fails. A machine keeps to it (`Machine.reply_lends`), and it still does
when calls on it fail (`Machine.failing_lends`).
-/

namespace HomeProvision

/-! ## What a process holds -/

/-- What a process may do: its creation mask and its effective identity. -/
structure Rights where
  mask : Nat
  uid : Int
  gid : Int
  deriving Repr, DecidableEq

/-- What a process holds: the descriptors that are taken, and its rights. -/
structure Process where
  taken : List Int
  rights : Rights
  deriving Repr, DecidableEq

/-- Whether a process has taken on some rights and has lost no descriptor. -/
def Process.Becomes (p : Process) (rights : Rights) (p' : Process) : Prop :=
  (∀ n ∈ p.taken, n ∈ p'.taken) ∧ p'.rights = rights

/-- What calls do to a process. An open descriptor is not handed out again, and only closing one can
take it away. A call that fails changes no rights, and closing may fail with or without effect. -/
def Lends (c : Call) (p : Process) (r : c.Reply) (p' : Process) : Prop :=
  match c, r with
  | .openRead _, .ok n => n ∉ p.taken ∧ n ∈ p'.taken ∧ p.Becomes p.rights p'
  | .openExclusive _ _, .ok n => n ∉ p.taken ∧ n ∈ p'.taken ∧ p.Becomes p.rights p'
  | .close n, _ => (∀ k ∈ p.taken, k ≠ n → k ∈ p'.taken) ∧ p'.rights = p.rights
  | .umask mask, .ok old =>
      old = (p.rights.mask : Int) ∧
        p.Becomes { p.rights with mask := Machine.grantedBits mask 0o777 } p'
  | .setEffectiveUid uid, .ok _ => p.Becomes { p.rights with uid } p'
  | .setEffectiveGid gid, .ok _ => p.Becomes { p.rights with gid } p'
  | .effectiveUid, uid => uid = p.rights.uid ∧ p.Becomes p.rights p'
  | .effectiveGid, gid => gid = p.rights.gid ∧ p.Becomes p.rights p'
  | _, _ => p.Becomes p.rights p'

theorem Process.becomes_self (p : Process) : p.Becomes p.rights p :=
  ⟨fun _ mem => mem, rfl⟩

namespace Machine

variable {α : Type} {m m' : Machine} {path : String}

/-- What the process of a machine holds. -/
def process (m : Machine) : Process where
  taken := m.descriptors.map fun d => (d.number : Int)
  rights := { mask := m.mask, uid := m.effectiveUid, gid := m.effectiveGid }

/-! ## Calls that take no part -/

theorem createAt_process {names : FileNames} {check : Except Errno Unit} {bits : Nat} {body : Body}
    (made : m.createAt names path check bits body = .ok m') : m'.process = m.process := by
  rw [createAt_withTree made]
  rfl

theorem mkdir_process {mode : Int} (made : m.mkdir path mode = .ok m') :
    m'.process = m.process := by
  obtain ⟨_, _, made⟩ := bind_eq_ok.mp made
  obtain ⟨_, _, made⟩ := bind_eq_ok.mp made
  exact createAt_process made

theorem symlink_process {target : String} (made : m.symlink target path = .ok m') :
    m'.process = m.process := by
  obtain ⟨_, _, made⟩ := bind_eq_ok.mp made
  obtain ⟨_, _, made⟩ := bind_eq_ok.mp made
  obtain ⟨_, _, made⟩ := bind_eq_ok.mp made
  obtain ⟨created, new, made⟩ := bind_eq_ok.mp made
  split at made <;> cases made
  exact createAt_process new

theorem chown_process {follow : Bool} {uid gid : Int}
    (done : m.chown follow path uid gid = .ok m') : m'.process = m.process := by
  obtain ⟨_, _, done⟩ := bind_eq_ok.mp done
  obtain ⟨_, _, done⟩ := bind_eq_ok.mp done
  obtain ⟨_, _, done⟩ := bind_eq_ok.mp done
  obtain ⟨⟨i, n⟩, _, done⟩ := bind_eq_ok.mp done
  dsimp only at done
  split at done <;> cases done
  rfl

theorem chmod_process {mode : Int} (done : m.chmod path mode = .ok m') :
    m'.process = m.process := by
  obtain ⟨_, _, done⟩ := bind_eq_ok.mp done
  obtain ⟨_, _, done⟩ := bind_eq_ok.mp done
  obtain ⟨⟨i, n⟩, _, done⟩ := bind_eq_ok.mp done
  dsimp only at done
  split at done <;> cases done
  rfl

theorem truncate_process {length : Int} (done : m.truncate path length = .ok m') :
    m'.process = m.process := by
  obtain ⟨_, _, done⟩ := bind_eq_ok.mp done
  obtain ⟨⟨i, n⟩, _, done⟩ := bind_eq_ok.mp done
  dsimp only at done
  split at done
  · split at done <;> cases done
    rfl
  · cases done
  · cases done

theorem becomes_changed {e : Except Fault Machine}
    (same : ∀ m', e = .ok m' → m'.process = m.process) :
    m.process.Becomes m.process.rights (m.changed e).2.process := by
  cases e with
  | error f => exact m.process.becomes_self
  | ok m' =>
    change m.process.Becomes m.process.rights m'.process
    rw [same m' rfl]
    exact m.process.becomes_self

theorem becomes_answered {e : Except Fault (α × Machine)}
    (same : ∀ a m', e = .ok (a, m') → m.process.Becomes m.process.rights m'.process) :
    m.process.Becomes m.process.rights (m.answered e).2.process := by
  cases e with
  | error f => exact m.process.becomes_self
  | ok result => exact same result.1 result.2 rfl

theorem read_becomes {number size : Int} {bytes : List UInt8}
    (done : m.read number size = .ok (bytes, m')) :
    m.process.Becomes m.process.rights m'.process := by
  unfold read at done
  split at done
  · cases done
  obtain ⟨d, _, done⟩ := bind_eq_ok.mp done
  split at done <;> cases done
  · refine ⟨fun n mem => ?_, rfl⟩
    obtain ⟨e, here, rfl⟩ := List.mem_map.mp mem
    refine List.mem_map.mpr ⟨_, List.mem_map_of_mem here, ?_⟩
    split <;> rfl
  · exact m.process.becomes_self

theorem write_becomes {number written : Int} {bytes : List UInt8}
    (done : m.write number bytes = .ok (written, m')) :
    m.process.Becomes m.process.rights m'.process := by
  obtain ⟨d, _, done⟩ := bind_eq_ok.mp done
  cases done
  exact m.process.becomes_self

/-! ## Calls that take part -/

/-- A number that is handed out was free, and is taken from then on. -/
theorem opened_lends (m : Machine) (path : String) (node : Nat) :
    (m.opened path node).1 ∉ m.process.taken ∧
      (m.opened path node).1 ∈ (m.opened path node).2.process.taken ∧
        m.process.Becomes m.process.rights (m.opened path node).2.process := by
  refine ⟨fun taken => ?_, by simp [opened, process], fun n taken => ?_, rfl⟩
  · obtain ⟨d, mem, same⟩ := List.mem_map.mp taken
    exact freeFrom_not_mem (m.descriptors.map (·.number)) firstDescriptor
      (List.mem_map.mpr ⟨d, mem, Int.ofNat.inj same⟩)
  · obtain ⟨d, mem, rfl⟩ := List.mem_map.mp taken
    exact List.mem_map.mpr ⟨d, List.mem_append_left _ mem, rfl⟩

theorem lends_openRead (path : String) :
    Lends (.openRead path) m.process (m.answered (m.openRead path)).1
      (m.answered (m.openRead path)).2.process := by
  cases done : m.openRead path with
  | error f => exact m.process.becomes_self
  | ok result =>
    obtain ⟨⟨i, n⟩, _, done⟩ := bind_eq_ok.mp done
    dsimp only at done
    split at done <;> cases done
    exact m.opened_lends path i

theorem lends_openExclusive (path : String) (mode : Int) :
    Lends (.openExclusive path mode) m.process (m.answered (m.openExclusive path mode)).1
      (m.answered (m.openExclusive path mode)).2.process := by
  cases done : m.openExclusive path mode with
  | error f => exact m.process.becomes_self
  | ok result =>
    obtain ⟨_, _, done⟩ := bind_eq_ok.mp done
    obtain ⟨_, _, done⟩ := bind_eq_ok.mp done
    obtain ⟨created, made, done⟩ := bind_eq_ok.mp done
    cases done
    have lends := created.opened_lends path m.tree.nextPlace
    rw [createAt_process made] at lends
    exact lends

theorem lends_close (number : Int) :
    Lends (.close number) m.process (m.changed (m.close number)).1
      (m.changed (m.close number)).2.process := by
  cases done : m.close number with
  | error f => exact ⟨fun _ mem _ => mem, rfl⟩
  | ok m' =>
    obtain ⟨d, found, done⟩ := bind_eq_ok.mp done
    cases done
    have own : (d.number : Int) = number := by
      simpa using List.find?_some (openFile_eq_ok.mp found)
    refine ⟨fun k mem other => ?_, rfl⟩
    obtain ⟨e, here, rfl⟩ := List.mem_map.mp mem
    refine List.mem_map.mpr ⟨e, List.mem_filter.mpr ⟨here, ?_⟩, rfl⟩
    exact decide_eq_true fun same => other (by rw [same, own])

theorem lends_setEffectiveUid (uid : Int) :
    Lends (.setEffectiveUid uid) m.process (m.changed (m.setEffectiveUid uid)).1
      (m.changed (m.setEffectiveUid uid)).2.process := by
  unfold setEffectiveUid
  split
  · exact ⟨fun _ mem => mem, rfl⟩
  · exact m.process.becomes_self

theorem lends_setEffectiveGid (gid : Int) :
    Lends (.setEffectiveGid gid) m.process (m.changed (m.setEffectiveGid gid)).1
      (m.changed (m.setEffectiveGid gid)).2.process := by
  unfold setEffectiveGid
  split
  · exact ⟨fun _ mem => mem, rfl⟩
  · exact m.process.becomes_self

/-! ## Machines -/

/-- The calls on a machine do to its process what they should. -/
theorem reply_lends (c : Call) (m : Machine) :
    Lends c m.process (m.reply c).1 (m.reply c).2.process := by
  cases c with
  | openRead path => exact lends_openRead path
  | openExclusive path mode => exact lends_openExclusive path mode
  | close number => exact lends_close number
  | setEffectiveUid uid => exact lends_setEffectiveUid uid
  | setEffectiveGid gid => exact lends_setEffectiveGid gid
  | umask mask => exact ⟨rfl, fun _ mem => mem, rfl⟩
  | effectiveUid | effectiveGid => exact ⟨rfl, m.process.becomes_self⟩
  | read number size => exact becomes_answered fun _ _ => read_becomes
  | write number bytes => exact becomes_answered fun _ _ => write_becomes
  | mkdir path mode => exact becomes_changed fun _ => mkdir_process
  | symlink target path => exact becomes_changed fun _ => symlink_process
  | chown path uid gid => exact becomes_changed fun _ => chown_process
  | lchown path uid gid => exact becomes_changed fun _ => chown_process
  | chmod path mode => exact becomes_changed fun _ => chmod_process
  | truncate path length => exact becomes_changed fun _ => truncate_process
  | _ => exact m.process.becomes_self

/-- Nor does a call that fails without effect do anything else. -/
theorem lends_of_fault {c : Call} {r : c.Reply} (p : Process) (fails : (c.fault? r).isSome = true) :
    Lends c p r p := by
  cases c with
  | lookupUser | realUid | effectiveUid | effectiveGid | log => cases fails
  | close n => exact ⟨fun _ mem _ => mem, rfl⟩
  | openRead | openExclusive | umask | setEffectiveUid | setEffectiveGid =>
    cases r with
    | ok a => cases fails
    | error f => exact p.becomes_self
  | _ => exact p.becomes_self

theorem failing_lends (fault : Call → Machine → Option Fault) :
    (failing fault).KeepsTo Lends process := by
  intro c m
  rcases failing_reply fault c m with same | ⟨r, same, fails⟩
  · rw [same]
    exact reply_lends c m
  · rw [same]
    exact lends_of_fault m.process fails

end Machine

end HomeProvision
