import HomeProvision.Proofs.Governed
import HomeProvision.Proofs.Window

/-!
# Nested windows act as one

A program opens and closes windows of elevated rights in any order, also more often than it should,
and fails where it likes. While at least one window is open the process has the identity of the
administrator, and otherwise the one that it started with (`windows_nest`). The identity is switched
where the first window is opened and where the last one is closed, and nowhere else.

`Switches` is what calls do to an identity, for a kernel that lets the administrator as real user
change the effective user, and the administrator as effective user the group. What holds between any
two calls is `Standing`: every call of a program keeps it (`governed_windowing`), and so it holds at
every moment of a run.
-/

namespace HomeProvision

/-! ## Identities -/

/-- The identity of a process: its real user, and its effective user and group. -/
structure Credentials where
  real : Int
  uid : Int
  gid : Int
  deriving Repr, DecidableEq

/-- Whether a call changes the identity of the process. -/
def Call.setsIdentity : Call → Bool
  | .setEffectiveUid _ | .setEffectiveGid _ => true
  | _ => false

/-- What calls do to an identity. It is told truly, and only the calls that set it change it. A call
that fails leaves it as it is. -/
def Identifies (c : Call) (p : Credentials) (r : c.Reply) (p' : Credentials) : Prop :=
  match c, r with
  | .effectiveUid, uid => uid = p.uid ∧ p' = p
  | .effectiveGid, gid => gid = p.gid ∧ p' = p
  | .setEffectiveUid uid, .ok _ => p' = { p with uid }
  | .setEffectiveGid gid, .ok _ => p' = { p with gid }
  | _, _ => p' = p

namespace Credentials

/-- Whether a process may change its identity by a call: the user if the administrator is the real
user, and the group while the administrator is the effective user. -/
def May (p : Credentials) : Call → Prop
  | .setEffectiveUid _ => p.real = 0
  | .setEffectiveGid _ => p.uid = 0
  | _ => False

/-- The identity of a process that has become the administrator. -/
def elevated (p : Credentials) : Credentials :=
  { p with uid := 0, gid := 0 }

/-- A process with nothing but its identity, under a kernel that refuses the changes that it may not
make. -/
def layer : Layer Credentials where
  reply c p :=
    match c with
    | .realUid => (p.real, p)
    | .effectiveUid => (p.uid, p)
    | .effectiveGid => (p.gid, p)
    | .setEffectiveUid uid =>
        if p.real = 0 then (.ok (), { p with uid })
        else (.error (Machine.refusedDescriptor .notPermitted), p)
    | .setEffectiveGid gid =>
        if p.uid = 0 then (.ok (), { p with gid })
        else (.error (Machine.refusedDescriptor .notPermitted), p)
    | c => ((Program.guarded.reply c ()).1, p)

end Credentials

/-- What calls do to an identity under a kernel that refuses no change that the process may make. -/
def Switches (c : Call) (p : Credentials) (r : c.Reply) (p' : Credentials) : Prop :=
  Identifies c p r p' ∧ (p.May c → c.fault? r = none)

theorem Identifies.same {c : Call} {p p' : Credentials} {r : c.Reply}
    (own : c.setsIdentity = false) (h : Identifies c p r p') : p' = p := by
  cases c with
  | effectiveUid | effectiveGid => exact h.2
  | setEffectiveUid | setEffectiveGid => cases own
  | _ => exact h

theorem Credentials.layer_switches : Credentials.layer.KeepsTo Switches id := by
  intro c p
  cases c with
  | setEffectiveUid uid =>
    by_cases may : p.real = 0
    · simp [Credentials.layer, Switches, Identifies, Call.fault?, faultOf, may]
    · simp [Credentials.layer, Switches, Identifies, Credentials.May, may]
  | setEffectiveGid gid =>
    by_cases may : p.uid = 0
    · simp [Credentials.layer, Switches, Identifies, Call.fault?, faultOf, may]
    · simp [Credentials.layer, Switches, Identifies, Credentials.May, may]
  | effectiveUid | effectiveGid => exact ⟨⟨rfl, rfl⟩, fun may => may.elim⟩
  | _ => exact ⟨rfl, fun may => may.elim⟩

/-- The exchanges with the world that a moment of a governed run stands for: for a call to the
controller, those that the controller has. -/
def Moment.inner {σ : Type} (world : Layer σ) (x : Moment (σ × Controller)) :
    List Exchange :=
  match x.call with
  | .elevate => x.state.2.elevate.trace world x.state.1
  | .relinquish => x.state.2.relinquish.trace world x.state.1
  | _ => [x.toExchange]

namespace Program

variable {α σ : Type} {home p p' : Credentials} {c : Controller}

/-- No change of the identity is made that the process may not make. -/
def Lawful (c : Call) (p : Credentials) : Prop :=
  c.setsIdentity = true → p.May c

/-! ## Controllers -/

theorem meets_effectiveUid :
    (ask .effectiveUid).Meets Switches Lawful (fun out p' => out = .ok p.uid ∧ p = p') p :=
  ⟨fun bad => (by cases bad), fun _ _ step => ⟨congrArg _ step.1.1, step.1.2.symm⟩⟩

theorem meets_effectiveGid :
    (ask .effectiveGid).Meets Switches Lawful (fun out p' => out = .ok p.gid ∧ p = p') p :=
  ⟨fun bad => (by cases bad), fun _ _ step => ⟨congrArg _ step.1.1, step.1.2.symm⟩⟩

theorem meets_switchUid (p : Credentials) (wanted : Int) (root : p.real = 0) :
    (Controller.switchUid p.uid wanted).Meets Switches Lawful
      (fun out p' => out = .ok (.ok ()) ∧ p' = { p with uid := wanted }) p := by
  unfold Controller.switchUid
  split
  · next same => exact ⟨rfl, by rw [← same]⟩
  · refine meets_outcome.mpr ⟨fun _ => root, fun r p' step => meets_ofExcept.mpr ?_⟩
    cases r with
    | ok _ => exact ⟨rfl, step.1⟩
    | error f => cases step.2 root

theorem meets_switchGid (p : Credentials) (wanted : Int) (root : p.uid = 0) :
    (Controller.switchGid p.gid wanted).Meets Switches Lawful
      (fun out p' => out = .ok (.ok ()) ∧ p' = { p with gid := wanted }) p := by
  unfold Controller.switchGid
  split
  · next same => exact ⟨rfl, by rw [← same]⟩
  · refine meets_outcome.mpr ⟨fun _ => root, fun r p' step => meets_ofExcept.mpr ?_⟩
    cases r with
    | ok _ => exact ⟨rfl, step.1⟩
    | error f => cases step.2 root

/-- How a controller and a process stand that started with the identity `home`: without a window the
process has it still, and with one it is the administrator and the controller has kept it. -/
inductive Standing (home : Credentials) : Controller → Credentials → Prop
  | outside : Standing home (.administrator 0 none) home
  | inside (n : Nat) :
      Standing home (.administrator (n + 1) (some (home.uid, home.gid))) home.elevated

namespace Standing

theorem identity (h : Standing home c p) :
    p = if 0 < c.depth then home.elevated else home := by
  cases h with
  | outside => rfl
  | inside n => exact (if_pos (Nat.succ_pos n)).symm

theorem elevate (root : home.real = 0) (h : Standing home c p) :
    c.elevate.Meets Switches Lawful (fun out p' =>
      ∃ c', out = .ok (.ok (), c') ∧ c'.depth = c.depth + 1 ∧ Standing home c' p') p := by
  cases h with
  | inside n => exact ⟨_, rfl, rfl, .inside (n + 1)⟩
  | outside =>
    refine meets_effectiveUid.surely fun _ same => ?_
    subst same
    refine meets_effectiveGid.surely fun _ same => ?_
    subst same
    refine (meets_switchUid home 0 root).surely fun _ same => ?_
    subst same
    refine (meets_switchGid { home with uid := 0 } 0 rfl).surely fun _ same => ?_
    subst same
    exact ⟨_, rfl, rfl, .inside 0⟩

theorem relinquish (root : home.real = 0) (h : Standing home c p) :
    c.relinquish.Meets Switches Lawful (fun out p' =>
      ∃ c', out = .ok (.ok (), c') ∧ c'.depth = c.depth - 1 ∧ Standing home c' p') p := by
  cases h with
  | outside => exact ⟨_, rfl, rfl, .outside⟩
  | inside n =>
    cases n with
    | succ n => exact ⟨_, rfl, rfl, .inside n⟩
    | zero =>
      refine Meets.surely (a := .ok ()) (q := fun p' => home = p') ?_ fun _ same => ?_
      · refine meets_effectiveGid.surely fun _ same => ?_
        subst same
        refine (meets_switchGid home.elevated home.gid rfl).surely fun _ same => ?_
        subst same
        refine meets_effectiveUid.surely fun _ same => ?_
        subst same
        exact (meets_switchUid { home.elevated with gid := home.gid } home.uid root).mono
          fun _ _ reached => ⟨reached.1, reached.2.symm⟩
      · subst same
        exact ⟨_, rfl, rfl, .outside⟩

end Standing

/-! ## Windows -/

/-- How many windows are open after one more exchange. One that is not open is not closed. -/
def tally (windows : Nat) (x : Exchange) : Nat :=
  match x.call with
  | .elevate => windows + 1
  | .relinquish => windows - 1
  | _ => windows

/-- How many windows are open after some exchanges. -/
def openWindows (t : List Exchange) : Nat :=
  t.foldl tally 0

/-- What calls do to a process and its controller, if they do not set the identity themselves. -/
def Windowing (home : Credentials) : Rule (Credentials × Controller) := fun c s r s' =>
  c.setsIdentity = false → Standing home s.2 s.1 →
    (c.isWindow = true → c.fault? r = none) ∧ s'.2.depth = tally s.2.depth ⟨c, r⟩ ∧
      Standing home s'.2 s'.1

variable {world : Layer σ} {view : σ → Credentials}

/-- What a controller answers that has opened or closed a window as it should. -/
theorem answered_standing {s : σ} {q : Program (Except Fault Unit × Controller)} {windows : Nat}
    (keeps : world.KeepsTo Switches view)
    (h : q.Meets Switches Lawful (fun out p' =>
      ∃ c', out = .ok (.ok (), c') ∧ c'.depth = windows ∧ Standing home c' p') (view s)) :
    (c.answered (q.run world s)).1 = .ok () ∧ (c.answered (q.run world s)).2.2.depth = windows ∧
      Standing home (c.answered (q.run world s)).2.2 (view (c.answered (q.run world s)).2.1) := by
  obtain ⟨c', ends, counts, stands⟩ := h.run keeps
  cases run : q.run world s with
  | mk out s' =>
    rw [run] at ends stands
    cases ends
    exact ⟨rfl, counts, stands⟩

/-- A controller opens and closes its windows as it should. -/
theorem governed_windowing (keeps : world.KeepsTo Switches view) (root : home.real = 0) :
    world.governed.KeepsTo (Windowing home) fun s => (view s.1, s.2) := by
  rintro c ⟨s, k⟩ own standing
  cases c with
  | elevate =>
    obtain ⟨opened, counts, stands⟩ := answered_standing (c := k) keeps (standing.elevate root)
    exact ⟨fun _ => congrArg faultOf opened, counts, stands⟩
  | relinquish =>
    obtain ⟨closed, counts, stands⟩ := answered_standing (c := k) keeps (standing.relinquish root)
    exact ⟨fun _ => congrArg faultOf closed, counts, stands⟩
  | setEffectiveUid | setEffectiveGid => cases own
  | _ =>
    refine ⟨fun bad => (by cases bad), rfl, ?_⟩
    change Standing home k (view (world.reply _ s).2)
    rw [Identifies.same own (keeps _ s).1]
    exact standing

/-! ## Moments of a run -/

/-- A run with a controller inside the program makes the calls that its moments in the governed world
stand for. -/
theorem trace_under (world : Layer σ) (p : Program α) (c : Controller) (s : σ) :
    (under c p).trace world s =
      (p.history world.governed id (s, c)).flatMap (Moment.inner world) := by
  induction p generalizing c s with
  | done a => rfl
  | raise f => rfl
  | call other next ih =>
    -- a controller does not fail, so the program goes on with its answer
    have answers : ∀ {q : Program (Except Fault Unit × Controller)}, (q.Gives fun _ => True) →
        ∀ {k : Except Fault Unit → Program α},
          (∀ r c s, (under c (k r)).trace world s =
            ((k r).history world.governed id (s, c)).flatMap (Moment.inner world)) →
          (q.bind fun r => under r.2 (k r.1)).trace world s = q.trace world s ++
            ((k (c.answered (q.run world s)).1).history world.governed id
              (c.answered (q.run world s)).2).flatMap (Moment.inner world) := by
      intro q gives k same
      obtain ⟨a, ends, _⟩ := gives.run
      rw [trace_bind]
      cases run : q.run world s with
      | mk out s' =>
        rw [run] at ends
        cases ends
        exact congrArg _ (same a.1 a.2 s')
    cases other with
    | elevate => exact answers (elevate_gives c).any ih
    | relinquish => exact answers (relinquish_gives c) ih
    | _ => exact congrArg (List.cons _) (ih _ c _)

/-- The reply at a moment is that of the world. -/
theorem history_reply {p : Program α} {s : σ} {x : Moment σ} (mem : x ∈ p.history world id s) :
    x.reply = (world.reply x.call x.state).1 := by
  induction p generalizing s with
  | done a => cases mem
  | raise f => cases mem
  | call c next ih =>
    rcases List.mem_cons.mp mem with rfl | mem
    · rfl
    · exact ih _ mem

/-- Changes of the identity that the process may make are not refused. -/
theorem granted_of_lawful {q : Program α} {post : Except Fault α → Credentials → Prop} {s : σ}
    (keeps : world.KeepsTo Switches view) (h : q.Meets Switches Lawful post (view s)) :
    ∀ y ∈ q.trace world s, y.call.setsIdentity = true → y.call.fault? y.reply = none := by
  intro y mem sets
  rw [← history_trace world view] at mem
  obtain ⟨x, here, rfl⟩ := List.mem_map.mp mem
  obtain ⟨lawful, _, switches⟩ := h.history keeps x here
  exact switches.2 (lawful sets)

/-- A program that does not set the identity itself leaves the windows to its controller. -/
theorem keeps_windows {p : Program α}
    (own : p.Makes (fun _ _ => True) fun c => c.setsIdentity = false) :
    p.Keeps ((Windowing home).watched (fun _ _ => True) fun windows x => tally windows x.toExchange)
      (fun c s => c.setsIdentity = false ∧ Standing home s.1.2 s.1.1 ∧ s.1.2.depth = s.2)
      fun s => Standing home s.1.2 s.1.1 ∧ s.1.2.depth = s.2 := by
  refine own.keeps fun c s own h => ⟨⟨own, h⟩, fun r s' step => ⟨trivial, ?_⟩⟩
  obtain ⟨-, counts, stands⟩ := step.1.1 own h.1
  exact ⟨stands, by rw [counts, step.2, h.2]⟩

/-- At every moment of a run the process stands as it should, and the controller has counted the
windows. -/
theorem history_stands (keeps : world.KeepsTo Switches view) (root : home.real = 0) {p : Program α}
    (own : p.Makes (fun _ _ => True) fun c => c.setsIdentity = false) {s : σ × Controller}
    (start : Standing home s.2 (view s.1)) {before after : List (Moment (σ × Controller))}
    {x : Moment (σ × Controller)} (same : p.history world.governed id s = before ++ x :: after) :
    x.call.setsIdentity = false ∧ Standing home x.state.2 (view x.state.1) ∧
      x.state.2.depth = (before.map Moment.toExchange).foldl tally s.2.depth :=
  Meets.moments (governed_windowing keeps root)
    (keeps_windows own ((view s.1, s.2), s.2.depth) ⟨start, rfl⟩) before x after same
    fun _ _ => trivial

/-- So it is when the run has ended. -/
theorem run_stands (keeps : world.KeepsTo Switches view) (root : home.real = 0) {p : Program α}
    (own : p.Makes (fun _ _ => True) fun c => c.setsIdentity = false) {s : σ × Controller}
    (start : Standing home s.2 (view s.1)) :
    Standing home (p.run world.governed s).2.2 (view (p.run world.governed s).2.1) ∧
      (p.run world.governed s).2.2.depth = (p.trace world.governed s).foldl tally s.2.depth := by
  rw [← history_trace world.governed fun s => (view s.1, s.2), List.foldl_map]
  exact Meets.watched (governed_windowing keeps root) (fun _ _ => trivial)
    (keeps_windows own ((view s.1, s.2), s.2.depth) ⟨start, rfl⟩)

/-- How a moment of a run has to be, where so many windows are open. -/
structure Nested (world : Layer σ) (view : σ → Credentials) (home : Credentials) (windows : Nat)
    (x : Moment (σ × Controller)) : Prop where
  depth : x.state.2.depth = windows
  /-- The process is the administrator while a window is open, and otherwise what it was. -/
  identity : view x.state.1 = if 0 < windows then home.elevated else home
  /-- A call to the controller is not refused. -/
  granted : x.call.isWindow = true → x.call.fault? x.reply = none
  /-- The identity is set only where the first window is opened or the last one is closed, and then
  it is not refused. -/
  switches : ∀ y ∈ x.inner world, y.call.setsIdentity = true → y.call.fault? y.reply = none ∧
    ((x.call = .elevate ∧ windows = 0) ∨ (x.call = .relinquish ∧ windows = 1))

/-- The process is the administrator exactly while a window is open, if it was not to begin with. -/
theorem Nested.administrator_iff {windows : Nat} {x : Moment (σ × Controller)}
    (h : Nested world view home windows x) (other : ¬ (home.uid = 0 ∧ home.gid = 0)) :
    ((view x.state.1).uid = 0 ∧ (view x.state.1).gid = 0) ↔ 0 < windows := by
  rw [h.identity]
  split
  · next open_ => exact ⟨fun _ => open_, fun _ => ⟨rfl, rfl⟩⟩
  · next closed => exact ⟨fun same => absurd same other, fun open_ => absurd open_ closed⟩

/-- Where a process stands as it should, its controller sets the identity only at the outermost
windows. -/
theorem Standing.nested (keeps : world.KeepsTo Switches view) (root : home.real = 0)
    {x : Moment (σ × Controller)} (own : x.call.setsIdentity = false)
    (standing : Standing home x.state.2 (view x.state.1))
    (reply : x.reply = (world.governed.reply x.call x.state).1) :
    Nested world view home x.state.2.depth x := by
  refine ⟨rfl, standing.identity, fun window => ?_, fun y mem sets => ?_⟩
  · rw [reply]
    exact (governed_windowing keeps root x.call x.state own standing).1 window
  · obtain ⟨⟨call, reply⟩, s, k⟩ := x
    cases call with
    | elevate =>
      refine ⟨granted_of_lawful keeps (standing.elevate root) y mem sets, .inl ⟨rfl, ?_⟩⟩
      match k with
      | .administrator 0 _ => rfl
      | .administrator (n + 1) _ | .nominal n => exact absurd mem List.not_mem_nil
    | relinquish =>
      refine ⟨granted_of_lawful keeps (standing.relinquish root) y mem sets, .inr ⟨rfl, ?_⟩⟩
      match k with
      | .administrator 1 _ => rfl
      | .administrator 0 _ | .administrator (n + 2) _ | .nominal n =>
        exact absurd mem List.not_mem_nil
    | _ =>
      rw [List.mem_singleton.mp mem] at sets
      exact absurd sets (by rw [own]; decide)

/-- Nested windows act as one. Let a process with the administrator as real user run a program that
opens and closes windows as it likes, and does not set its identity otherwise. At every moment the
controller has counted the open windows, and the process is the administrator while there are any,
and what it was to begin with while there are none; so it is in the end. The calls of the run are
those that its moments stand for. -/
theorem windows_nest (keeps : world.KeepsTo Switches view) {p : Program α}
    (own : p.Makes (fun _ _ => True) fun c => c.setsIdentity = false) {s : σ}
    (root : (view s).real = 0) :
    (∀ before x after,
      p.history world.governed id (s, .administrator 0 none) = before ++ x :: after →
        Nested world view (view s) (openWindows (before.map Moment.toExchange)) x) ∧
    (∃ out c' s', (under (.administrator 0 none) p).run world s = (.ok (out, c'), s') ∧
      c'.depth = openWindows (p.trace world.governed (s, .administrator 0 none)) ∧
      view s' = if 0 < c'.depth then (view s).elevated else view s) ∧
    (under (.administrator 0 none) p).trace world s =
      (p.history world.governed id (s, .administrator 0 none)).flatMap (Moment.inner world) := by
  refine ⟨fun before x after same => ?_, ?_, trace_under world p _ s⟩
  · obtain ⟨own, standing, counts⟩ := history_stands keeps root own .outside same
    have mem : x ∈ p.history world.governed id (s, .administrator 0 none) := by
      rw [same]
      exact List.mem_append_right _ List.mem_cons_self
    change x.state.2.depth = openWindows (before.map Moment.toExchange) at counts
    rw [← counts]
    exact standing.nested keeps root own (history_reply mem)
  · obtain ⟨standing, counts⟩ := run_stands keeps root own
      (s := (s, .administrator 0 none)) .outside
    exact ⟨_, _, _, run_under world p _ s, counts, standing.identity⟩

/-- A program that closes a window before it has opened any, fails inside two windows, and opens one
that it does not close. -/
def unruly : Program Unit := do
  call .relinquish ofExcept
  let _ ← (elevated (elevated (raise (.thrown .runtime "stop")) : Program Unit)).outcome
  call .elevate ofExcept

/-- In the end it has one window open and is the administrator. -/
theorem windows_nest_unruly :
    (under (.administrator 0 none) unruly).run Credentials.layer ⟨0, 7, 8⟩ =
        (.ok (.ok (), .administrator 1 (some (7, 8))), ⟨0, 0, 0⟩) ∧
      ∀ before x after,
        unruly.history Credentials.layer.governed id (⟨0, 7, 8⟩, .administrator 0 none) =
            before ++ x :: after →
          Nested Credentials.layer id ⟨0, 7, 8⟩ (openWindows (before.map Moment.toExchange)) x := by
  have opens : (call .elevate ofExcept : Program Unit).Makes (fun _ _ => True)
      fun c => c.setsIdentity = false := .call rfl fun _ _ => .ofExcept _
  have closes : (call .relinquish ofExcept : Program Unit).Makes (fun _ _ => True)
      fun c => c.setsIdentity = false := .call rfl fun _ _ => .ofExcept _
  have guards : (elevated (elevated (raise (.thrown .runtime "stop")) : Program Unit)).Makes
      (fun _ _ => True) fun c => c.setsIdentity = false :=
    elevated_makes rfl rfl (elevated_makes rfl rfl (Keeps.raise _))
  have own : unruly.Makes (fun _ _ => True) fun c => c.setsIdentity = false :=
    closes.bind fun _ => (Keeps.outcome guards).bind fun _ => opens
  exact ⟨by decide, (windows_nest Credentials.layer_switches own rfl).1⟩

end Program

end HomeProvision
