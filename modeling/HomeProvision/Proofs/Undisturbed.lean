import HomeProvision.Proofs.CallContract
import HomeProvision.Proofs.Orderly
import HomeProvision.Proofs.Parts
import HomeProvision.Proofs.Status

/-!
# Undisturbed machines

On an undisturbed machine nothing fails for no reason. A call with proper arguments is answered, or
it comes back with an error of the system (`reply_orderly`), so that a program can go on from every
reply. `Tries` says that a program comes to an end with a result or an error of the system, and
`Settles` that it comes to an end with a result. Both also say that its calls are proper and that an
invariant is kept.
-/

namespace HomeProvision

/-- Whether no argument of a call keeps it from being made. -/
def Call.Proper : Call → Prop
  | .stat path | .lstat path | .openRead path | .truncate path _ | .readlink path | .list path
  | .readFile path => Machine.checkText path = .ok ()
  | .mkdir path mode | .chmod path mode | .openExclusive path mode =>
      Machine.checkText path = .ok () ∧ Machine.checkModeArgument mode = .ok ()
  | .chown path uid gid | .lchown path uid gid =>
      Machine.checkText path = .ok () ∧ Machine.checkId false uid = .ok () ∧
        Machine.checkId true gid = .ok ()
  | .symlink target path => Machine.checkText target = .ok () ∧ Machine.checkText path = .ok ()
  | .umask _ | .read _ _ | .write _ _ | .close _ | .lookupUser _ | .realUid | .effectiveUid
  | .effectiveGid | .setEffectiveUid _ | .setEffectiveGid _ | .elevate | .relinquish | .pause
  | .log _ => True

/-! ## Errors of the system -/

namespace FailsOrderly

variable {α β : Type}

theorem ok (a : α) : FailsOrderly (.ok a : Except Fault α) :=
  fun _ bad => by cases bad

theorem error (e : SystemError) : FailsOrderly (.error (.system e) : Except Fault α) :=
  fun _ same => by cases same; exact ⟨e, rfl⟩

/-- The fault itself counts, not what would have been returned. -/
theorem fault {f : Fault} (h : FailsOrderly (.error f : Except Fault α)) :
    FailsOrderly (.error f : Except Fault β) :=
  fun g same => by cases same; exact h f rfl

theorem bind {r : Except Fault α} {k : α → Except Fault β} (first : FailsOrderly r)
    (onward : ∀ a, FailsOrderly (k a)) : FailsOrderly (r >>= k) := by
  intro f failed
  cases r with
  | ok a => exact onward a f failed
  | error g => cases failed; exact first f rfl

/-- What follows on a check that has gone well. -/
theorem after {r : Except Fault α} {k : α → Except Fault β} {a : α} (checked : r = .ok a)
    (rest : FailsOrderly (k a)) : FailsOrderly (r >>= k) := by
  rw [checked]
  exact rest

theorem mapError {r : Except Errno α} (names : FileNames) :
    FailsOrderly (r.mapError fun e => .system (.numbered e names)) := by
  intro f failed
  obtain ⟨e, _, rfl⟩ := Machine.mapError_eq_error.mp failed
  exact ⟨_, rfl⟩

end FailsOrderly

namespace Machine

variable {m m' : Machine} {path : String} {follow : Bool}

theorem find_orderly (text : checkText path = .ok ()) : FailsOrderly (m.find follow path) := by
  unfold find resolve
  refine FailsOrderly.bind (.after text (.mapError _)) fun p => ?_
  split
  · exact .ok _
  · exact .error _

theorem statusOf_orderly (text : checkText path = .ok ()) (regular : m.tree.Regular) :
    FailsOrderly (m.statusOf follow path) ∧
      ∀ status, m.statusOf follow path = .ok status → IsMachineMode status.mode := by
  refine ⟨(find_orderly text).bind fun _ => .ok _, fun status looked => ?_⟩
  obtain ⟨⟨i, n⟩, found, same⟩ := bind_eq_ok.mp looked
  cases same
  have small := regular.mode i n (find_ok found).2
  have bound : n.typeBits ||| n.mode < 2 ^ 16 :=
    Nat.or_lt_two_pow n.typeBits_lt (Nat.lt_trans small (by decide))
  constructor
  · exact Int.natCast_nonneg _
  · change ((n.typeBits ||| n.mode : Nat) : Int) < 0x100000000
    omega

theorem createAt_orderly {names : FileNames} {check : Except Errno Unit} {bits : Nat}
    {body : Body} : FailsOrderly (m.createAt names path check bits body) :=
  .bind (.mapError _) fun _ => .bind (.mapError _) fun _ => .bind (.mapError _) fun _ => .ok _

theorem chown_orderly {uid gid : Int} (text : checkText path = .ok ())
    (owner : checkId false uid = .ok () ∧ checkId true gid = .ok ()) :
    FailsOrderly (m.chown follow path uid gid) := by
  refine .after text (.after owner.1 (.after owner.2 (.bind (find_orderly text) fun found => ?_)))
  dsimp only
  split
  · exact .error _
  · exact .ok _

theorem openFile_orderly {number : Int} : FailsOrderly (m.openFile number) := by
  unfold openFile
  split
  · exact .ok _
  · exact .error _

theorem read_orderly {number size : Int} : FailsOrderly (m.read number size) := by
  unfold read
  split
  · exact .error _
  · refine openFile_orderly.bind fun d => ?_
    split
    · exact .ok _
    · exact .error _
    · exact .ok _

theorem answered_orderly {α : Type} {e : Except Fault (α × Machine)} (h : FailsOrderly e) :
    FailsOrderly (m.answered e).1 := by
  cases e with
  | ok result => exact .ok _
  | error f => exact h.fault

theorem changed_orderly {e : Except Fault Machine} (h : FailsOrderly e) :
    FailsOrderly (m.changed e).1 := by
  cases e with
  | ok m' => exact .ok _
  | error f => exact h.fault

/-- A proper call of a machine fails only with errors of the system. -/
theorem reply_orderly (regular : m.tree.Regular) {c : Call} (proper : c.Proper) :
    Orderly c (m.reply c).1 := by
  cases c with
  | stat path => exact statusOf_orderly proper regular
  | lstat path => exact statusOf_orderly proper regular
  | mkdir path mode => exact changed_orderly (.after proper.1 (.after proper.2 createAt_orderly))
  | chown path uid gid => exact changed_orderly (chown_orderly proper.1 proper.2)
  | lchown path uid gid => exact changed_orderly (chown_orderly proper.1 proper.2)
  | chmod path mode =>
    refine changed_orderly (.after proper.1 (.after proper.2 ?_))
    refine .bind (find_orderly proper.1) fun found => ?_
    dsimp only
    split
    · exact .error _
    · exact .ok _
  | openRead path =>
    refine answered_orderly ((find_orderly proper).bind fun found => ?_)
    dsimp only
    split
    · exact .error _
    · exact .ok _
  | openExclusive path mode =>
    refine answered_orderly (.after proper.1 (.after proper.2 ?_))
    exact createAt_orderly.bind fun _ => .ok _
  | read number size => exact answered_orderly read_orderly
  | write number bytes => exact answered_orderly (openFile_orderly.bind fun _ => .ok _)
  | truncate path length =>
    refine changed_orderly (.after proper (.bind (find_orderly proper) fun found => ?_))
    dsimp only
    split
    · split
      · exact .error _
      · exact .ok _
    · exact .error _
    · exact .error _
  | close number => exact changed_orderly (openFile_orderly.bind fun _ => .ok _)
  | readlink path =>
    refine (find_orderly proper).bind fun found => ?_
    split
    · exact .ok _
    · exact .error _
  | symlink target path =>
    refine changed_orderly (.after proper.1 (.after proper.2 ?_))
    refine .bind (.mapError _) fun _ => createAt_orderly.bind fun _ => ?_
    split
    · exact .error _
    · exact .ok _
  | list path =>
    refine (find_orderly proper).bind fun found => ?_
    split
    · exact .ok _
    · exact .error _
  | readFile path =>
    refine (find_orderly proper).bind fun found => ?_
    split
    · exact .ok _
    · exact .error _
    · exact .ok _
  | setEffectiveUid uid =>
    refine changed_orderly ?_
    unfold setEffectiveUid
    split
    · exact .ok _
    · exact .error _
  | setEffectiveGid gid =>
    refine changed_orderly ?_
    unfold setEffectiveGid
    split
    · exact .ok _
    · exact .error _
  | umask | elevate | relinquish | pause => exact ⟨_, rfl⟩
  | lookupUser | realUid | effectiveUid | effectiveGid | log => trivial

/-! ## The rule -/

/-- What may happen on an undisturbed machine. It answers every call, and the hook does only what
changes no file. -/
inductive Undisturbed : (c : Call) → Machine → c.Reply → Machine → Prop
  | answered (c : Call) (m : Machine) : Undisturbed c m (m.reply c).1 (m.reply c).2
  | paused {m m' : Machine} (same : SameFiles m m') : Undisturbed .pause m (.ok ()) m'

theorem layer_undisturbed : layer.KeepsTo Undisturbed id :=
  fun c m => .answered c m

theorem Undisturbed.disturbed {c : Call} {r : c.Reply} (step : Undisturbed c m r m') :
    Disturbed (fun _ => True) c m r m' := by
  cases step with
  | answered => exact .answered c m
  | paused same => exact .foreign _ rfl same

theorem Undisturbed.orderly {c : Call} {r : c.Reply} (step : Undisturbed c m r m')
    (regular : m.tree.Regular) (proper : c.Proper) : Orderly c r := by
  cases step with
  | answered => exact reply_orderly regular proper
  | paused => exact ⟨_, rfl⟩

end Machine

namespace Program

open Machine

variable {α β σ τ : Type} {m m' : Machine}

/-- What happens on an undisturbed machine to calls that only the system refuses. -/
def Steady : Rule Machine :=
  fun c m r m' => Undisturbed c m r m' ∧ Orderly c r

/-- Whether a call is proper and the tree is one that a file system can hold. -/
def sound (c : Call) (m : Machine) : Prop :=
  c.Proper ∧ m.tree.Regular

/-- What is shown of steady calls is shown of all that are sound. -/
theorem Meets.undisturbed {p : Program α} {post : Except Fault α → Machine → Prop}
    (h : p.Meets Steady sound post m) : p.Meets Undisturbed sound post m :=
  h.of_guarded fun _ _ _ _ guard step => ⟨step, step.orderly guard.2 guard.1⟩

/-! ## Programs that come to an end -/

/-- Whether a program ends with a result or an error of the system, and keeps an invariant. -/
def Tries (invariant : Machine → Prop) (p : Program α) : Prop :=
  ∀ m, invariant m → p.Meets Steady sound (fun r m' => FailsOrderly r ∧ invariant m') m

/-- Whether a program ends with a result, and keeps an invariant. -/
def Settles (invariant : Machine → Prop) (p : Program α) : Prop :=
  ∀ m, invariant m → p.Meets Steady sound (fun r m' => (∃ a, r = .ok a) ∧ invariant m') m

variable {invariant : Machine → Prop}

/-- A program that does not fail, and then another one. -/
theorem Meets.well {rule : Rule τ} {guard : Call → τ → Prop} {p : Program α} {k : α → Program β}
    {q : τ → Prop} {post : Except Fault β → τ → Prop} {s : τ}
    (first : p.Meets rule guard (fun r s' => (∃ a, r = .ok a) ∧ q s') s)
    (onward : ∀ a s', q s' → (k a).Meets rule guard post s') :
    (p.bind k).Meets rule guard post s :=
  first.bind (fun a s' reached => onward a s' reached.2) fun _ _ bad => by
    obtain ⟨⟨_, bad⟩, _⟩ := bad
    cases bad

namespace Settles

theorem done (a : α) : (Program.done a).Settles invariant :=
  fun _ h => ⟨⟨a, rfl⟩, h⟩

theorem bind {p : Program α} {k : α → Program β} (first : p.Settles invariant)
    (onward : ∀ a, (k a).Settles invariant) : (p.bind k).Settles invariant :=
  fun m h => (first m h).well onward

/-- A program that keeps an invariant and handles its faults. -/
theorem of_keeps {p : Program α} (keeps : p.Keeps Steady sound invariant)
    (handles : p.Handles IsNone) : p.Settles invariant := by
  refine fun m h => ((keeps m h).and_yields (fun _ _ _ _ step => step.2) handles).mono ?_
  rintro r m' ⟨kept, t, _, none⟩
  cases r with
  | ok a => exact ⟨⟨a, rfl⟩, kept⟩
  | error f => exact (none f rfl).elim

end Settles

/-- An attempt at what fails with errors of the system only. -/
theorem Meets.tried {rule : Rule τ} {guard : Call → τ → Prop} {p : Program α}
    {k : Except SystemError α → Program β} {q : Except Fault α → τ → Prop}
    {post : Except Fault β → τ → Prop} {s : τ}
    (first : p.Meets rule guard (fun r s' => FailsOrderly r ∧ q r s') s)
    (onward : ∀ a s', q (.ok a) s' → (k (.ok a)).Meets rule guard post s')
    (caught : ∀ e s', q (.error (.system e)) s' → (k (.error e)).Meets rule guard post s') :
    ((Program.attempt p).bind k).Meets rule guard post s :=
  Meets.attempt first (fun a s' reached => onward a s' reached.2)
    (fun e s' reached => caught e s' reached.2) fun f _ other bad => by
      obtain ⟨e, same⟩ := bad.1 f rfl
      exact absurd same (other e)

/-- A program that is tried, and then a way to go on from its result and one from an error. -/
theorem Tries.attempt {p : Program α} {k : Except SystemError α → Program β}
    (first : p.Tries invariant) (onward : ∀ r, (k r).Settles invariant) :
    ((Program.attempt p).bind k).Settles invariant :=
  fun m h => (first m h).tried (fun a => onward (.ok a)) fun e => onward (.error e)

theorem Tries.keeps {p : Program α} (h : p.Tries invariant) : p.Keeps Steady sound invariant :=
  fun m start => (h m start).mono fun _ _ reached => reached.2

/-- A program that ends well, and a clean-up that does so. -/
theorem Settles.ensuring {body : Program α} {cleanup : Program Unit}
    (clean : cleanup.Settles invariant)
    (h : body.Meets Steady sound (fun r m' => (∃ a, r = .ok a) ∧ invariant m') m) :
    (Program.ensuring body cleanup).Meets Steady sound
      (fun r m' => (∃ a, r = .ok a) ∧ invariant m') m :=
  Meets.ensuring h fun r m' reached => (clean m' reached.2).mono fun r' m'' cleaned => by
    obtain ⟨⟨_, rfl⟩, kept⟩ := cleaned
    exact ⟨reached.1, kept⟩

/-! ## Calls -/

/-- A sound call of a program, other than to the hook. -/
theorem steady_call {c : Call} {next : c.Reply → Program α}
    {post : Except Fault α → Machine → Prop} (own : c.isForeign = false) (ok : sound c m)
    (onward : Orderly c (m.reply c).1 → (next (m.reply c).1).Meets Steady sound post
      (m.reply c).2) :
    (call c next).Meets Steady sound post m := by
  refine ⟨ok, fun r m' step => ?_⟩
  obtain ⟨step, orderly⟩ := step
  cases step with
  | answered => exact onward orderly
  | paused => cases own

theorem steady_changed {e : Except Fault Machine} {post : Except Fault Unit → Machine → Prop}
    (orderly : FailsOrderly (m.changed e).1) (done : ∀ m', e = .ok m' → post (.ok ()) m')
    (failed : ∀ e, post (.error (.system e)) m) :
    (ofExcept (m.changed e).1).Meets Steady sound post (m.changed e).2 := by
  cases e with
  | ok m' => exact done m' rfl
  | error f =>
    obtain ⟨e, rfl⟩ := orderly f rfl
    exact failed e

theorem steady_answered {e : Except Fault (α × Machine)} {post : Except Fault α → Machine → Prop}
    (orderly : FailsOrderly (m.answered e).1) (done : ∀ a m', e = .ok (a, m') → post (.ok a) m')
    (failed : ∀ e, post (.error (.system e)) m) :
    (ofExcept (m.answered e).1).Meets Steady sound post (m.answered e).2 := by
  cases e with
  | ok result => exact done result.1 result.2 rfl
  | error f =>
    obtain ⟨e, rfl⟩ := orderly f rfl
    exact failed e

/-- Whether an invariant speaks of the current directory and the tree only, and says that the tree
is regular. -/
structure OnTree (invariant : Machine → Prop) : Prop where
  regular : ∀ m, invariant m → m.tree.Regular
  same : ∀ m m', m'.tree = m.tree → m'.current = m.current → invariant m → invariant m'

namespace OnTree

variable (h : OnTree invariant)
include h

/-- A call that changes no node keeps an invariant of the tree. -/
theorem keeps {c : Call} {next : c.Reply → Program α} (quiet : c.changesTree = false)
    (proper : c.Proper) (onward : ∀ r, (next r).Keeps Steady sound invariant) :
    (call c next).Keeps Steady sound invariant := by
  refine fun m start => ⟨⟨proper, h.regular m start⟩, fun r m' step => onward r m' ?_⟩
  obtain ⟨tree, current⟩ := sameTree_of_disturbed step.1.disturbed quiet
  exact h.same m m' tree current start

theorem note : KeepsLog Steady sound invariant :=
  fun level event details => h.keeps (c := .log { level, event, details }) rfl trivial .done

theorem log (level : Level) (event : String) (details : List (String × Detail)) :
    (log level event details).Settles invariant :=
  .of_keeps (h.note level event details) (.log level event details)

theorem pause : Program.pause.Settles invariant :=
  .of_keeps (h.keeps (c := .pause) rfl trivial .ofExcept) .pause

theorem closeQuietly (number : Int) (event path : String) :
    (closeQuietly number event path).Settles invariant := by
  refine .of_keeps ((Keeps.attempt (h.keeps (c := .close number) rfl trivial .ofExcept)).bind
    fun closed => ?_) (closeQuietly_handles number event path)
  cases closed with
  | ok _ => exact .done _
  | error e => exact h.note _ _ _

end OnTree

end Program

end HomeProvision
