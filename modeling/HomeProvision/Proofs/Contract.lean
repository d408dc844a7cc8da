import HomeProvision.System.Program

/-!
# Contracts of programs

A rule says what a world may do. `p.Meets rule guard post s` says of a program that is started in
the state `s` that in every world that keeps to the rule each call is made where `guard` allows it
and the run ends as `post` says. Contracts follow the structure of programs, so that no run has to
be looked at; `Meets.run` and `Meets.steps` carry them over to the runs in a world.
-/

namespace HomeProvision

/-- What a world may do: the replies to each call in each state, and the states after it. -/
abbrev Rule (τ : Type) :=
  (c : Call) → τ → c.Reply → τ → Prop

variable {α β σ τ : Type}

/-- Whether a world keeps to a rule. The rule speaks of what `view` shows of its states. -/
def Layer.KeepsTo (world : Layer σ) (rule : Rule τ) (view : σ → τ) : Prop :=
  ∀ c s, rule c (view s) (world.reply c s).1 (view (world.reply c s).2)

namespace Program

/-- Whether every call of a program satisfies a guard and its run ends as it should, in every world
that keeps to a rule. -/
def Meets (rule : Rule τ) (guard : Call → τ → Prop) :
    Program α → (Except Fault α → τ → Prop) → τ → Prop
  | done a, post, s => post (.ok a) s
  | raise f, post, s => post (.error f) s
  | call c next, post, s =>
      guard c s ∧ ∀ r s', rule c s r s' → (next r).Meets rule guard post s'

/-- The calls of a run, each with the state that it is made in. -/
def steps (world : Layer σ) : Program α → σ → List (Call × σ)
  | done _, _ => []
  | raise _, _ => []
  | call c next, s =>
      (c, s) :: (next (world.reply c s).1).steps world (world.reply c s).2

theorem bind_eq (p : Program α) (k : α → Program β) : p >>= k = p.bind k :=
  rfl

theorem run_call {world : Layer σ} {s : σ} {c : Call} {next : c.Reply → Program α} :
    (call c next).run world s = (next (world.reply c s).1).run world (world.reply c s).2 :=
  rfl

/-- An attempt gives what the system refuses as a result. -/
theorem run_attempt {world : Layer σ} (p : Program α) (s : σ) :
    (attempt p).run world s =
      match p.run world s with
      | (.ok a, s') => (.ok (.ok a), s')
      | (.error (.system e), s') => (.ok (.error e), s')
      | (.error f, s') => (.error f, s') := by
  unfold attempt
  rw [run_bind, run_outcome]
  cases p.run world s with
  | mk out s' =>
    cases out with
    | ok a => rfl
    | error f => cases f <;> rfl

section

variable {rule : Rule τ} {guard : Call → τ → Prop} {s : τ}

@[simp]
theorem meets_done {a : α} {post : Except Fault α → τ → Prop} :
    (done a).Meets rule guard post s ↔ post (.ok a) s :=
  Iff.rfl

@[simp]
theorem meets_raise {f : Fault} {post : Except Fault α → τ → Prop} :
    (raise f).Meets rule guard post s ↔ post (.error f) s :=
  Iff.rfl

@[simp]
theorem meets_ofExcept {r : Except Fault α} {post : Except Fault α → τ → Prop} :
    (ofExcept r).Meets rule guard post s ↔ post r s := by
  cases r <;> exact Iff.rfl

/-- A contract may promise less. -/
theorem Meets.mono {p : Program α} {post post' : Except Fault α → τ → Prop}
    (h : p.Meets rule guard post s) (weaker : ∀ r s', post r s' → post' r s') :
    p.Meets rule guard post' s := by
  induction p generalizing s with
  | done a => exact weaker _ _ h
  | raise f => exact weaker _ _ h
  | call c next ih => exact ⟨h.1, fun r s' moves => ih r (h.2 r s' moves)⟩

theorem meets_bind {p : Program α} {k : α → Program β} {post : Except Fault β → τ → Prop} :
    (p.bind k).Meets rule guard post s ↔
      p.Meets rule guard
        (fun
          | .ok a, s' => (k a).Meets rule guard post s'
          | .error f, s' => post (.error f) s') s := by
  induction p generalizing s with
  | done a => exact Iff.rfl
  | raise f => exact Iff.rfl
  | call c next ih =>
    exact and_congr_right' (forall_congr' fun r => forall_congr' fun s' =>
      imp_congr_right fun _ => ih r)

/-- One program after another. -/
theorem Meets.bind {p : Program α} {k : α → Program β} {q : Except Fault α → τ → Prop}
    {post : Except Fault β → τ → Prop} (first : p.Meets rule guard q s)
    (onward : ∀ a s', q (.ok a) s' → (k a).Meets rule guard post s')
    (failed : ∀ f s', q (.error f) s' → post (.error f) s') :
    (p.bind k).Meets rule guard post s := by
  refine meets_bind.mpr (first.mono fun r s' reached => ?_)
  cases r with
  | ok a => exact onward a s' reached
  | error f => exact failed f s' reached

/-- One program after another, where only the result of the second one matters. -/
theorem Meets.onward {p : Program α} {k : α → Program β} {q : Except Fault α → τ → Prop}
    {good : β → τ → Prop} (first : p.Meets rule guard q s)
    (onward : ∀ a s', q (.ok a) s' →
      (k a).Meets rule guard (fun r s'' => ∀ b, r = .ok b → good b s'') s') :
    (p.bind k).Meets rule guard (fun r s' => ∀ b, r = .ok b → good b s') s :=
  first.bind onward fun _ _ _ _ bad => by cases bad

/-- A program that does not fail, and then what is done with its result. -/
theorem Meets.surely {p : Program α} {k : α → Program β} {a : α} {q : τ → Prop}
    {post : Except Fault β → τ → Prop} (first : p.Meets rule guard (fun r s' => r = .ok a ∧ q s') s)
    (onward : ∀ s', q s' → (k a).Meets rule guard post s') :
    (p.bind k).Meets rule guard post s :=
  first.bind (fun _ s' reached => by cases reached.1; exact onward s' reached.2)
    fun _ _ bad => by cases bad.1

/-- A contract may rely on what the guard allows. -/
theorem Meets.of_guarded {rule' : Rule τ} {p : Program α} {post : Except Fault α → τ → Prop}
    (h : p.Meets rule guard post s)
    (stricter : ∀ c s r s', guard c s → rule' c s r s' → rule c s r s') :
    p.Meets rule' guard post s := by
  induction p generalizing s with
  | done a => exact h
  | raise f => exact h
  | call c next ih =>
    exact ⟨h.1, fun r s' step => ih r (h.2 r s' (stricter c s r s' h.1 step))⟩

/-- What every step keeps that the rule allows is true at the end. -/
theorem Meets.along {p : Program α} {post : Except Fault α → τ → Prop} {kept : τ → Prop}
    (h : p.Meets rule guard post s) (lasts : ∀ c s r s', rule c s r s' → kept s → kept s')
    (first : kept s) : p.Meets rule guard (fun r s' => post r s' ∧ kept s') s := by
  induction p generalizing s with
  | done a => exact ⟨h, first⟩
  | raise f => exact ⟨h, first⟩
  | call c next ih =>
    exact ⟨h.1, fun r s' step => ih r (h.2 r s' step) (lasts c s r s' step first)⟩

/-- A contract may allow more. -/
theorem Meets.guarded {guard' : Call → τ → Prop} {p : Program α}
    {post : Except Fault α → τ → Prop} (h : p.Meets rule guard post s)
    (weaker : ∀ c s, guard c s → guard' c s) : p.Meets rule guard' post s := by
  induction p generalizing s with
  | done a => exact h
  | raise f => exact h
  | call c next ih => exact ⟨weaker c s h.1, fun r s' step => ih r (h.2 r s' step)⟩

/-- Two contracts of a program. The second may rely on what the first says of every call. -/
theorem Meets.and {guard' : Call → τ → Prop} {p : Program α}
    {post post' : Except Fault α → τ → Prop} (h : p.Meets rule guard post s)
    (h' : p.Meets (fun c s r s' => guard c s ∧ rule c s r s') guard' post' s) :
    p.Meets rule (fun c s => guard c s ∧ guard' c s) (fun r s' => post r s' ∧ post' r s') s := by
  induction p generalizing s with
  | done a => exact ⟨h, h'⟩
  | raise f => exact ⟨h, h'⟩
  | call c next ih =>
    exact ⟨⟨h.1, h'.1⟩, fun r s' step => ih r (h.2 r s' step) (h'.2 r s' ⟨h.1, step⟩)⟩

theorem Meets.both {guard' : Call → τ → Prop} {p : Program α}
    {post post' : Except Fault α → τ → Prop} (h : p.Meets rule guard post s)
    (h' : p.Meets rule guard' post' s) :
    p.Meets rule (fun c s => guard c s ∧ guard' c s) (fun r s' => post r s' ∧ post' r s') s :=
  h.and (h'.of_guarded fun _ _ _ _ _ step => step.2)

theorem meets_outcome {p : Program α} {post : Except Fault (Except Fault α) → τ → Prop} :
    p.outcome.Meets rule guard post s ↔
      p.Meets rule guard (fun r s' => post (.ok r) s') s := by
  induction p generalizing s with
  | done a => exact Iff.rfl
  | raise f => exact Iff.rfl
  | call c next ih =>
    exact and_congr_right' (forall_congr' fun r => forall_congr' fun s' =>
      imp_congr_right fun _ => ih r)

/-- What an attempt makes of an outcome: errors of the system become values. -/
def attempted : Except Fault α → Except Fault (Except SystemError α)
  | .ok a => .ok (.ok a)
  | .error (.system e) => .ok (.error e)
  | .error f => .error f

theorem attempted_eq_ok {r : Except Fault α} {a : α} (h : attempted r = .ok (.ok a)) : r = .ok a := by
  cases r with
  | ok b => cases h; rfl
  | error f => cases f <;> cases h

theorem meets_attempt {p : Program α} {post : Except Fault (Except SystemError α) → τ → Prop} :
    (attempt p).Meets rule guard post s ↔
      p.Meets rule guard (fun r s' => post (attempted r) s') s := by
  unfold attempt
  rw [meets_bind, meets_outcome]
  constructor
  · refine fun h => h.mono fun r s' reached => ?_
    cases r with
    | ok a => exact reached
    | error f => cases f <;> exact reached
  · refine fun h => h.mono fun r s' reached => ?_
    cases r with
    | ok a => exact reached
    | error f => cases f <;> exact reached

/-- An attempt, and then a way to go on from its result and one from an error of the system. -/
theorem Meets.attempt {p : Program α} {k : Except SystemError α → Program β}
    {q : Except Fault α → τ → Prop} {post : Except Fault β → τ → Prop}
    (first : p.Meets rule guard q s)
    (onward : ∀ a s', q (.ok a) s' → (k (.ok a)).Meets rule guard post s')
    (caught : ∀ e s', q (.error (.system e)) s' → (k (.error e)).Meets rule guard post s')
    (failed : ∀ f s', (∀ e, f ≠ .system e) → q (.error f) s' → post (.error f) s') :
    ((Program.attempt p).bind k).Meets rule guard post s := by
  rw [meets_bind, meets_attempt]
  refine first.mono fun r s' reached => ?_
  cases r with
  | ok a => exact onward a s' reached
  | error f =>
    cases f with
    | system e => exact caught e s' reached
    | _ => exact failed _ s' (fun _ bad => by cases bad) reached

/-- An attempt of which only the result matters. -/
theorem Meets.either {p : Program α} {k : Except SystemError α → Program β}
    {q : Except Fault α → τ → Prop} {good : β → τ → Prop} (first : p.Meets rule guard q s)
    (onward : ∀ a s', q (.ok a) s' →
      (k (.ok a)).Meets rule guard (fun r s'' => ∀ b, r = .ok b → good b s'') s')
    (caught : ∀ e s', q (.error (.system e)) s' →
      (k (.error e)).Meets rule guard (fun r s'' => ∀ b, r = .ok b → good b s'') s') :
    ((Program.attempt p).bind k).Meets rule guard (fun r s' => ∀ b, r = .ok b → good b s') s :=
  first.attempt onward caught fun _ _ _ _ _ bad => by cases bad

/-- An attempt whose outcome is known, and then what is done with its result. -/
theorem Meets.settled {p : Program α} {k : Except SystemError α → Program β} {out : Except Fault α}
    {a : Except SystemError α} {q : τ → Prop} {post : Except Fault β → τ → Prop}
    (known : attempted out = .ok a) (first : p.Meets rule guard (fun r s' => r = out ∧ q s') s)
    (onward : ∀ s', q s' → (k a).Meets rule guard post s') :
    ((Program.attempt p).bind k).Meets rule guard post s := by
  have settled : (Program.attempt p).Meets rule guard (fun r s' => r = .ok a ∧ q s') s :=
    meets_attempt.mpr (first.mono fun r s' reached => ⟨by rw [reached.1, known], reached.2⟩)
  exact settled.surely onward

/-- An attempt that does not fail, and then what is done with its result. -/
theorem Meets.attempted {p : Program α} {k : Except SystemError α → Program β} {a : α}
    {q : τ → Prop} {post : Except Fault β → τ → Prop}
    (first : p.Meets rule guard (fun r s' => r = .ok a ∧ q s') s)
    (onward : ∀ s', q s' → (k (.ok a)).Meets rule guard post s') :
    ((Program.attempt p).bind k).Meets rule guard post s :=
  .settled rfl first onward

/-- A program that fails with an error of the system, which is caught. -/
theorem Meets.caught {p : Program α} {k : Except SystemError α → Program β} {e : SystemError}
    {q : τ → Prop} {post : Except Fault β → τ → Prop}
    (first : p.Meets rule guard (fun r s' => r = .error (.system e) ∧ q s') s)
    (onward : ∀ s', q s' → (k (.error e)).Meets rule guard post s') :
    ((Program.attempt p).bind k).Meets rule guard post s :=
  .settled rfl first onward

/-- A program and its clean-up. What the clean-up starts from is all that is known of the body. -/
theorem Meets.ensuring {body : Program α} {cleanup : Program Unit}
    {mid post : Except Fault α → τ → Prop} (first : body.Meets rule guard mid s)
    (after : ∀ r s', mid r s' → cleanup.Meets rule guard
      (fun
        | .ok _, s'' => post r s''
        | .error f, s'' => post (.error f) s'') s') :
    (ensuring body cleanup).Meets rule guard post s := by
  unfold Program.ensuring
  rw [meets_bind, meets_outcome]
  refine first.mono fun r s' reached => ?_
  refine meets_bind.mpr ((after r s' reached).mono fun r' s'' cleaned => ?_)
  cases r' with
  | ok _ => exact meets_ofExcept.mpr cleaned
  | error f => exact cleaned

/-- A program with a known outcome and a clean-up that does not fail. -/
theorem Meets.ensured {body : Program α} {cleanup : Program Unit} {out : Except Fault α}
    {q q' : τ → Prop} (first : body.Meets rule guard (fun r s' => r = out ∧ q s') s)
    (clean : ∀ s', q s' → cleanup.Meets rule guard (fun r s'' => r = .ok () ∧ q' s'') s') :
    (Program.ensuring body cleanup).Meets rule guard (fun r s' => r = out ∧ q' s') s := by
  refine first.ensuring fun r s' reached => (clean s' reached.2).mono fun r' s'' cleaned => ?_
  cases r' with
  | ok _ => exact ⟨reached.1, cleaned.2⟩
  | error f => cases cleaned.1

/-- A clean-up whose outcome does not matter, if what is known of the body lasts. -/
theorem Meets.ensuring_lasting {body : Program α} {cleanup : Program Unit} {good : α → τ → Prop}
    (first : body.Meets rule guard (fun r s' => ∀ a, r = .ok a → good a s') s)
    (after : ∀ (r : Except Fault α) s', (∀ a, r = .ok a → good a s') →
      cleanup.Meets rule guard (fun _ s'' => ∀ a, r = .ok a → good a s'') s') :
    (Program.ensuring body cleanup).Meets rule guard (fun r s' => ∀ a, r = .ok a → good a s') s := by
  refine first.ensuring fun r s' reached => (after r s' reached).mono fun r' s'' lasts => ?_
  cases r' with
  | ok _ => exact lasts
  | error f => exact fun _ bad => by cases bad

end

/-! ## Invariants -/

/-- Whether a program keeps an invariant, however it ends. -/
def Keeps (rule : Rule τ) (guard : Call → τ → Prop) (invariant : τ → Prop) (p : Program α) : Prop :=
  ∀ s, invariant s → p.Meets rule guard (fun _ s' => invariant s') s

namespace Keeps

variable {rule : Rule τ} {guard : Call → τ → Prop} {invariant : τ → Prop}

theorem done (a : α) : (Program.done a).Keeps rule guard invariant :=
  fun _ h => h

theorem raise (f : Fault) : (Program.raise f : Program α).Keeps rule guard invariant :=
  fun _ h => h

theorem ofExcept (r : Except Fault α) : (Program.ofExcept r).Keeps rule guard invariant :=
  fun _ h => meets_ofExcept.mpr h

theorem bind {p : Program α} {k : α → Program β} (first : p.Keeps rule guard invariant)
    (onward : ∀ a, (k a).Keeps rule guard invariant) : (p.bind k).Keeps rule guard invariant :=
  fun s h => (first s h).bind (fun a s' h' => onward a s' h') fun _ _ h' => h'

theorem outcome {p : Program α} (h : p.Keeps rule guard invariant) :
    p.outcome.Keeps rule guard invariant :=
  fun s h' => meets_outcome.mpr (h s h')

theorem attempt {p : Program α} (h : p.Keeps rule guard invariant) :
    (Program.attempt p).Keeps rule guard invariant :=
  fun s h' => meets_attempt.mpr (h s h')

theorem ensuring {body : Program α} {cleanup : Program Unit} (h : body.Keeps rule guard invariant)
    (after : cleanup.Keeps rule guard invariant) :
    (Program.ensuring body cleanup).Keeps rule guard invariant := by
  refine fun s h' => (h s h').ensuring fun r s' reached =>
    (after s' reached).mono fun r' s'' h'' => ?_
  cases r' with
  | ok _ => exact h''
  | error f => exact h''

end Keeps

/-! ## Invariants of what goes well -/

/-- How a program ends that keeps an invariant while it goes well; a failure is as `last` says. -/
def Carried (invariant : τ → Prop) (last : Fault → τ → Prop) : Except Fault α → τ → Prop
  | .ok _, s => invariant s
  | .error f, s => last f s

/-- Whether a program keeps an invariant while it goes well. A failure of it goes through whatever
is around it, so that less has to be known then. -/
def Carries (rule : Rule τ) (guard : Call → τ → Prop) (invariant : τ → Prop)
    (last : Fault → τ → Prop) (p : Program α) : Prop :=
  ∀ s, invariant s → p.Meets rule guard (Carried invariant last) s

namespace Carries

variable {rule : Rule τ} {guard : Call → τ → Prop} {invariant : τ → Prop}
  {last : Fault → τ → Prop}

theorem done (a : α) : (Program.done a).Carries rule guard invariant last :=
  fun _ h => h

theorem bind {p : Program α} {k : α → Program β} (first : p.Carries rule guard invariant last)
    (onward : ∀ a, (k a).Carries rule guard invariant last) :
    (p.bind k).Carries rule guard invariant last :=
  fun s h => (first s h).bind (fun a s' h' => onward a s' h') fun _ _ h' => h'

/-- What keeps an invariant anyway. -/
theorem of_keeps {p : Program α} (leave : ∀ f s, invariant s → last f s)
    (h : p.Keeps rule guard invariant) : p.Carries rule guard invariant last := by
  refine fun s h' => (h s h').mono fun out s' kept => ?_
  cases out with
  | ok a => exact kept
  | error f => exact leave f s' kept

theorem keeps {p : Program α} (h : p.Carries rule guard invariant fun _ => invariant) :
    p.Keeps rule guard invariant := by
  refine fun s h' => (h s h').mono fun out s' kept => ?_
  cases out with
  | ok a => exact kept
  | error f => exact kept

end Carries

/-! ## Runs -/

variable {rule : Rule τ} {guard : Call → τ → Prop} {world : Layer σ} {view : σ → τ}
  {p : Program α} {post : Except Fault α → τ → Prop} {s : σ}

/-- The run of a program in a world that keeps to the rule ends as its contract says. -/
theorem Meets.run (keeps : world.KeepsTo rule view) (h : p.Meets rule guard post (view s)) :
    post (p.run world s).1 (view (p.run world s).2) := by
  induction p generalizing s with
  | done a => exact h
  | raise f => exact h
  | call c next ih => exact ih _ (h.2 _ _ (keeps c s))

/-- Every call of the run is made where the guard allows it. -/
theorem Meets.steps (keeps : world.KeepsTo rule view) (h : p.Meets rule guard post (view s)) :
    ∀ step ∈ p.steps world s, guard step.1 (view step.2) := by
  induction p generalizing s with
  | done a => exact fun _ mem => absurd mem List.not_mem_nil
  | raise f => exact fun _ mem => absurd mem List.not_mem_nil
  | call c next ih =>
    intro step mem
    rcases List.mem_cons.mp mem with rfl | mem
    · exact h.1
    · exact ih _ (h.2 _ _ (keeps c s)) step mem

end Program

end HomeProvision
