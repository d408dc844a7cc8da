import HomeProvision.Proofs.Effects
import HomeProvision.Proofs.Requests
import HomeProvision.Proofs.Watched

/-!
# What the hook finds

On an unhindered machine `p.Does post m` says how a program ends. `p.Performs found post m` says
beyond this that each time the hook gets control the machine is as `found` says. For `found` it makes
a difference whether a piece of a file has just been written, so a note of this is kept beside the
machine.

Programs that neither write nor give control to the hook (`Quiet`) can be followed without the note
(`Performs.of_does`), and what a program performs it does (`Performs.does`). In a run the hook finds
the machine as `found` says (`Performs.paused`).
-/

namespace HomeProvision.Program

open Machine

variable {α β : Type} {m m' : Machine} {found found' : Bool → Machine → Prop}

/-- What may happen on an unhindered machine, with a note of whether a piece was just written. -/
abbrev Performing : Rule (Machine × Bool) :=
  Rule.watched (Disturbed fun _ => True) Call.Unhindered fun _ x => x.toExchange.isWrite

/-- The hook gets control only where the machine is as `found` says. -/
def foundBy (found : Bool → Machine → Prop) (c : Call) (s : Machine × Bool) : Prop :=
  c.isPause = true → found s.2 s.1

/-- How a program ends that has written nothing last. -/
def Rested (post : Except Fault α → Machine → Prop) (r : Except Fault α) (s : Machine × Bool) :
    Prop :=
  post r s.1 ∧ s.2 = false

/-- Whether the run of a program on an unhindered machine ends as it should, and the hook finds what
it should. -/
abbrev Performs (found : Bool → Machine → Prop) (p : Program α)
    (post : Except Fault α → Machine → Prop) (m : Machine) : Prop :=
  p.Meets Performing (foundBy found) (Rested post) (m, false)

/-! ## Quiet programs -/

/-- Whether a program neither writes nor gives control to the hook. -/
abbrev Quiet (p : Program α) : Prop :=
  p.Keeps Performing (fun c _ => c.isPause = false) fun s => s.2 = false

theorem quiet_call {c : Call} {next : c.Reply → Program α} (own : c.isPause = false)
    (unwritten : ∀ r, (⟨c, r⟩ : Exchange).isWrite = false) (onward : ∀ r, (next r).Quiet) :
    (call c next).Quiet :=
  fun _ _ => ⟨own, fun r s' step => onward r s' (step.2.trans (unwritten r))⟩

theorem quiet_light (c : Call) (s : Machine × Bool) (light : c.isLight = true) (_ : s.2 = false) :
    c.isPause = false ∧ ∀ r s', Performing c s r s' → s'.2 = false := by
  refine ⟨c.isPause_of_isLight light, fun r s' step => step.2.trans ?_⟩
  cases c <;> first | rfl | cases light

theorem quiet_lookParts :
    LookParts Performing (fun c _ => c.isPause = false) fun s => s.2 = false :=
  .of_calls quiet_light

theorem quiet_ensureDirectory (path : String) (uid gid mode : Int) :
    (ensureDirectory path uid gid mode).Quiet := by
  have calls : DirectoryCalls Performing (fun c _ => c.isPause = false) (fun s => s.2 = false)
      (fun s => s.2 = false) path uid gid mode :=
    { note := quiet_lookParts.note
      stat := quiet_lookParts.stat path
      umask := fun _ => quiet_call rfl (fun _ => rfl) .ofExcept
      umaskNew := fun _ => quiet_call rfl (fun _ => rfl) .ofExcept
      mkdir := fun s h => (quiet_call rfl (fun _ => rfl) .ofExcept s h).mono
        fun _ _ h' => ⟨h', fun _ _ => h'⟩
      chown := quiet_call rfl (fun _ => rfl) .ofExcept
      leave := fun _ h => h }
  exact calls.ensureDirectory

theorem quiet_finishing (path : String) (mode : Int) :
    FinishCalls Performing (fun c _ => c.isPause = false) (fun s => s.2 = false) path mode where
  note := quiet_lookParts.note
  chown := fun _ _ => quiet_call rfl (fun _ => rfl) .ofExcept
  chmod := quiet_call rfl (fun _ => rfl) .ofExcept

theorem quiet_closeQuietly (number : Int) (event path : String) :
    (closeQuietly number event path).Quiet :=
  Keeps.attempted (quiet_call rfl (fun _ => rfl) .ofExcept) (fun _ => .done _)
    fun _ => quiet_lookParts.note _ _ _

/-! ## Performing and doing -/

/-- The note may be left out. -/
theorem Meets.unwatched {γ τ : Type} {rule : Rule τ} {allowed : (c : Call) → c.Reply → Prop}
    {note : γ → Moment τ → γ} {guard : Call → τ × γ → Prop} {p : Program α}
    {post : Except Fault α → τ × γ → Prop} {s : τ} {seen : γ}
    (h : p.Meets (rule.watched allowed note) guard post (s, seen)) :
    p.Meets (fun c s r s' => rule c s r s' ∧ allowed c r) (fun _ _ => True)
      (fun r s' => ∃ seen', post r (s', seen')) s := by
  induction p generalizing s seen with
  | done a => exact ⟨seen, h⟩
  | raise f => exact ⟨seen, h⟩
  | call c next ih => exact ⟨trivial, fun r s' step => ih r (h.2 r (s', _) ⟨step, rfl⟩)⟩

/-- A note may be added. -/
theorem Meets.beside {γ τ : Type} {rule : Rule τ} {allowed : (c : Call) → c.Reply → Prop}
    {note : γ → Moment τ → γ} {guard : Call → τ → Prop} {p : Program α}
    {post : Except Fault α → τ → Prop} {s : τ × γ}
    (h : p.Meets (fun c s r s' => rule c s r s' ∧ allowed c r) guard post s.1) :
    p.Meets (rule.watched allowed note) (fun c s => guard c s.1) (fun r s' => post r s'.1) s := by
  induction p generalizing s with
  | done a => exact h
  | raise f => exact h
  | call c next ih => exact ⟨h.1, fun r s' step => ih r (h.2 r s'.1 step.1)⟩

namespace Performs

variable {p : Program α} {post post' : Except Fault α → Machine → Prop}

theorem does (h : p.Performs found post m) : p.Does post m :=
  (Meets.unwatched h).mono fun _ _ ended => ended.elim fun _ rested => rested.1

theorem of_does (h : p.Does post m) (quiet : p.Quiet) : p.Performs found post m := by
  refine ((Meets.beside h).both (quiet (m, false) rfl)).guarded fun c s silent pause => ?_
  rw [silent.2] at pause
  cases pause

theorem mono (h : p.Performs found post m) (weaker : ∀ r m', post r m' → post' r m') :
    p.Performs found post' m :=
  Meets.mono h fun r s rested => ⟨weaker r s.1 rested.1, rested.2⟩

/-- The hook may find more. -/
theorem finding (h : p.Performs found post m) (weaker : ∀ b m', found b m' → found' b m') :
    p.Performs found' post m :=
  h.guarded fun _ s finds pause => weaker s.2 s.1 (finds pause)

theorem bind {k : α → Program β} {post : Except Fault β → Machine → Prop}
    {q : Except Fault α → Machine → Prop} (first : p.Performs found q m)
    (onward : ∀ a m', q (.ok a) m' → (k a).Performs found post m')
    (failed : ∀ f m', q (.error f) m' → post (.error f) m') : (p.bind k).Performs found post m := by
  refine Meets.bind first ?_ fun f s rested => ⟨failed f s.1 rested.1, rested.2⟩
  rintro a ⟨m', _⟩ ⟨reached, rfl⟩
  exact onward a m' reached

theorem attempt {k : Except SystemError α → Program β} {post : Except Fault β → Machine → Prop}
    {q : Except Fault α → Machine → Prop} (first : p.Performs found q m)
    (onward : ∀ a m', q (.ok a) m' → (k (.ok a)).Performs found post m')
    (caught : ∀ e m', q (.error (.system e)) m' → (k (.error e)).Performs found post m')
    (failed : ∀ f m', (∀ e, f ≠ .system e) → q (.error f) m' → post (.error f) m') :
    ((Program.attempt p).bind k).Performs found post m := by
  refine Meets.attempt first ?_ ?_ fun f s other rested =>
    ⟨failed f s.1 other rested.1, rested.2⟩
  · rintro a ⟨m', _⟩ ⟨reached, rfl⟩
    exact onward a m' reached
  · rintro e ⟨m', _⟩ ⟨reached, rfl⟩
    exact caught e m' reached

end Performs

/-! ## Programs that do not fail -/

section

variable {p : Program α} {q : Machine → Prop}

/-- What is known of an outcome, apart from the machine and the note. -/
theorem Performs.known {out : Except Fault α}
    (h : p.Performs found (fun r m' => r = out ∧ q m') m) :
    p.Meets Performing (foundBy found) (fun r s => r = out ∧ q s.1 ∧ s.2 = false) (m, false) :=
  Meets.mono h fun _ _ rested => ⟨rested.1.1, rested.1.2, rested.2⟩

/-- What goes on from machines goes on from machines where nothing was written last. -/
theorem Performs.onward {post : Except Fault α → Machine → Prop}
    (h : ∀ m', q m' → p.Performs found post m') (s : Machine × Bool) (rested : q s.1 ∧ s.2 = false) :
    p.Meets Performing (foundBy found) (Rested post) s := by
  obtain ⟨m', _⟩ := s
  obtain ⟨reached, rfl⟩ := rested
  exact h m' reached

theorem performs_bind {k : α → Program β} {a : α} {post : Except Fault β → Machine → Prop}
    (first : p.Performs found (fun r m' => r = .ok a ∧ q m') m)
    (onward : ∀ m', q m' → (k a).Performs found post m') : (p.bind k).Performs found post m :=
  first.known.surely (Performs.onward onward)

theorem performs_attempt {k : Except SystemError α → Program β} {a : α}
    {post : Except Fault β → Machine → Prop}
    (first : p.Performs found (fun r m' => r = .ok a ∧ q m') m)
    (onward : ∀ m', q m' → (k (.ok a)).Performs found post m') :
    ((attempt p).bind k).Performs found post m :=
  first.known.attempted (Performs.onward onward)

/-- A program that fails with an error of the system, which is caught. -/
theorem performs_attempt_error {k : Except SystemError α → Program β} {e : SystemError}
    {post : Except Fault β → Machine → Prop}
    (first : p.Performs found (fun r m' => r = .error (.system e) ∧ q m') m)
    (onward : ∀ m', q m' → (k (.error e)).Performs found post m') :
    ((attempt p).bind k).Performs found post m :=
  first.known.caught (Performs.onward onward)

theorem performs_ensuring {cleanup : Program Unit} {a : α} {q' : Machine → Prop}
    (first : p.Performs found (fun r m' => r = .ok a ∧ q m') m)
    (clean : ∀ m', q m' → cleanup.Performs found (fun r m'' => r = .ok () ∧ q' m'') m') :
    (ensuring p cleanup).Performs found (fun r m' => r = .ok a ∧ q' m') m := by
  have cleans : ∀ s : Machine × Bool, q s.1 ∧ s.2 = false →
      cleanup.Meets Performing (foundBy found) (fun r s' => r = .ok () ∧ q' s'.1 ∧ s'.2 = false) s :=
    fun s rested => Meets.mono (Performs.onward clean s rested) fun _ _ cleaned =>
      ⟨cleaned.1.1, cleaned.1.2, cleaned.2⟩
  exact Meets.mono (first.known.ensured cleans) fun _ _ reached =>
    ⟨⟨reached.1, reached.2.1⟩, reached.2.2⟩

end

theorem performs_log {level : Level} {event : String} {details : List (String × Detail)}
    {post : Except Fault Unit → Machine → Prop} (done : post (.ok ()) m) :
    (log level event details).Performs found post m :=
  .of_does (does_log done) (quiet_lookParts.note _ _ _)

/-! ## The hook -/

/-- The hook gets control, whether or not a piece was just written. -/
theorem meets_pause {b : Bool} {post : Except Fault Unit → Machine × Bool → Prop} (finds : found b m)
    (done : ∀ m', SameFiles m m' → post (.ok ()) (m', false)) :
    pause.Meets Performing (foundBy found) post (m, b) := by
  refine ⟨fun _ => finds, fun r s' step => ?_⟩
  obtain ⟨m', b'⟩ := s'
  obtain ⟨⟨step, fair⟩, noted⟩ := step
  cases noted
  obtain ⟨a, rfl⟩ := fair
  exact done m' (sameFiles_of_disturbed step rfl rfl)

theorem performs_pause {post : Except Fault Unit → Machine → Prop} (finds : found false m)
    (done : ∀ m', SameFiles m m' → post (.ok ()) m') : pause.Performs found post m :=
  meets_pause finds fun m' same => ⟨done m' same, rfl⟩

/-- A piece is written, and then the hook gets control. -/
theorem performs_piece {number : Int} {d : Descriptor} {bytes : List UInt8} {next : Program α}
    {post : Except Fault α → Machine → Prop} {k : Int → Program α}
    (here : m.descriptor? number = some d) (goesOn : k bytes.length = pause.bind fun _ => next)
    (finds : ∀ m', Changed m d.node (Node.mapContent (· ++ bytes)) m' → found true m')
    (onward : ∀ m' m'', Changed m d.node (Node.mapContent (· ++ bytes)) m' → SameFiles m' m'' →
      next.Performs found post m'') :
    ((write number bytes).bind k).Performs found post m := by
  have wrote : (write number bytes).Meets Performing (foundBy found)
      (fun r s => ∀ n, r = .ok n → s.2 = true) (m, false) := by
    refine ⟨fun bad => (by cases bad), fun r s' step => meets_ofExcept.mpr ?_⟩
    rintro n rfl
    exact step.2
  have does : (write number bytes).Does (fun r m' => r = .ok (bytes.length : Int) ∧
      Changed m d.node (Node.mapContent (· ++ bytes)) m') m :=
    does_write here fun m' change => ⟨rfl, change⟩
  have written : (write number bytes).Meets Performing (fun _ _ => True) (fun r s =>
      r = .ok (bytes.length : Int) ∧ Changed m d.node (Node.mapContent (· ++ bytes)) s.1) (m, false) :=
    Meets.beside (s := (m, false)) does
  refine Meets.bind ((written.both wrote).guarded fun _ _ h => h.2) ?_ ?_
  · rintro n ⟨m', b⟩ ⟨⟨same, change⟩, wrote⟩
    cases same
    cases wrote _ rfl
    rw [goesOn]
    refine Meets.bind (q := fun r s => r = .ok () ∧ SameFiles m' s.1 ∧ s.2 = false)
      (meets_pause (finds m' change) fun m'' same => ⟨rfl, same, rfl⟩) ?_ ?_
    · rintro _ ⟨m'', _⟩ ⟨_, same, rfl⟩
      exact onward m' m'' change same
    · rintro f s ⟨bad, _⟩
      cases bad
  · rintro f s ⟨⟨bad, _⟩, _⟩
    cases bad

/-! ## Runs -/

/-- In a run that was unhindered so far the hook finds what it should. What is left of the run starts
there. -/
theorem Performs.paused {σ : Type} {world : Layer σ} {view : σ → Machine} {p : Program α}
    {post : Except Fault α → Machine → Prop} {s : σ}
    (keeps : world.KeepsTo (Disturbed fun _ => True) view) (h : p.Performs found post (view s))
    {before after : List Exchange} {x : Exchange} (pause : x.call.isPause = true)
    (same : p.trace world s = before ++ x :: after)
    (fair : ∀ y ∈ before, y.call.Unhindered y.reply) :
    ∃ (q : Program α) (s' : σ), found (betweenPieces before) (view s') ∧
      q.trace world s' = x :: after ∧ q.run world s' = p.run world s := by
  obtain ⟨moments, q, s', rfl, split, left, run⟩ := trace_split same
  obtain ⟨y, rest, here, rfl, _⟩ := List.map_eq_cons_iff.mp ((history_trace world id q s').trans left)
  have finds : foundBy found y.call (view y.state,
      (moments.map Moment.toExchange).foldl (fun _ x => x.isWrite) false) :=
    Meets.moments keeps h moments y rest (split.trans (congrArg _ here)) fun z mem =>
      fair z.toExchange (List.mem_map_of_mem mem)
  refine ⟨q, s', ?_, left, run⟩
  rw [← foldl_isWrite, show s' = y.state from (history_head here).symm]
  exact finds pause

end HomeProvision.Program
