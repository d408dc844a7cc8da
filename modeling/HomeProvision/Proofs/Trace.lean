import HomeProvision.Proofs.Contract

/-!
# Traces of programs

The trace of a run is the list of its calls with the replies to them. `p.Yields allowed post` says
of a program that for all replies that are allowed its outcome and its trace are as `post` says; no
world is needed to say this, and `Yields.run` carries it over to the runs in every world that gives
only such replies.
-/

namespace HomeProvision

/-- A call and the reply to it. -/
structure Exchange where
  call : Call
  reply : call.Reply

variable {α β σ : Type}

/-- Whether all replies of a world are allowed. -/
def Layer.Allows (world : Layer σ) (allowed : (c : Call) → c.Reply → Prop) : Prop :=
  ∀ c s, allowed c (world.reply c s).1

namespace Program

/-! ## Traces -/

/-- The calls of a run and the replies to them. -/
def trace (world : Layer σ) : Program α → σ → List Exchange
  | done _, _ => []
  | raise _, _ => []
  | call c next, s =>
      ⟨c, (world.reply c s).1⟩ :: (next (world.reply c s).1).trace world (world.reply c s).2

variable {world : Layer σ}

theorem trace_bind_ok {p : Program α} {k : α → Program β} {s s' : σ} {a : α}
    (first : p.run world s = (.ok a, s')) :
    (p.bind k).trace world s = p.trace world s ++ (k a).trace world s' := by
  induction p generalizing s with
  | done b => cases first; rfl
  | raise f => cases first
  | call c next ih => exact congrArg (List.cons _) (ih _ first)

theorem run_bind_ok {p : Program α} {k : α → Program β} {s s' : σ} {a : α}
    (first : p.run world s = (.ok a, s')) : (p.bind k).run world s = (k a).run world s' := by
  rw [run_bind, first]

/-- A run that ends well, taken apart. -/
theorem bind_run_eq_ok {p : Program α} {k : α → Program β} {s s' : σ} {b : β}
    (ends : (p.bind k).run world s = (.ok b, s')) :
    ∃ a s₁, p.run world s = (.ok a, s₁) ∧ (k a).run world s₁ = (.ok b, s') ∧
      (p.bind k).trace world s = p.trace world s ++ (k a).trace world s₁ := by
  rw [run_bind] at ends
  cases first : p.run world s with
  | mk out s₁ =>
    rw [first] at ends
    cases out with
    | error f => cases ends
    | ok a => exact ⟨a, s₁, rfl, ends, trace_bind_ok first⟩

theorem trace_outcome (p : Program α) (s : σ) : p.outcome.trace world s = p.trace world s := by
  induction p generalizing s with
  | done a => rfl
  | raise f => rfl
  | call c next ih => exact congrArg (List.cons _) (ih _ _)

/-- Whether the outcome and the trace of a program are as they should be, for all replies that are
allowed. -/
def Yields (allowed : (c : Call) → c.Reply → Prop) :
    Program α → (Except Fault α → List Exchange → Prop) → Prop
  | done a, post => post (.ok a) []
  | raise f, post => post (.error f) []
  | call c next, post =>
      ∀ r, allowed c r → (next r).Yields allowed fun out t => post out (⟨c, r⟩ :: t)

variable {allowed : (c : Call) → c.Reply → Prop}

@[simp]
theorem yields_done {a : α} {post : Except Fault α → List Exchange → Prop} :
    (done a).Yields allowed post ↔ post (.ok a) [] :=
  Iff.rfl

@[simp]
theorem yields_ofExcept {r : Except Fault α} {post : Except Fault α → List Exchange → Prop} :
    (ofExcept r).Yields allowed post ↔ post r [] := by
  cases r <;> exact Iff.rfl

theorem Yields.mono {p : Program α} {post post' : Except Fault α → List Exchange → Prop}
    (h : p.Yields allowed post) (weaker : ∀ out t, post out t → post' out t) :
    p.Yields allowed post' := by
  induction p generalizing post post' with
  | done a => exact weaker _ _ h
  | raise f => exact weaker _ _ h
  | call c next ih => exact fun r ok => ih r (h r ok) fun out t => weaker out _

/-- One program after another: the traces follow each other. -/
theorem Yields.bind {p : Program α} {k : α → Program β}
    {mid : Except Fault α → List Exchange → Prop} {post : Except Fault β → List Exchange → Prop}
    (first : p.Yields allowed mid)
    (onward : ∀ a t, mid (.ok a) t → (k a).Yields allowed fun out t' => post out (t ++ t'))
    (failed : ∀ f t, mid (.error f) t → post (.error f) t) :
    (p.bind k).Yields allowed post := by
  induction p generalizing mid post with
  | done a => exact onward a [] first
  | raise f => exact failed f [] first
  | call c next ih =>
    exact fun r ok => ih r (first r ok) (fun a t reached => onward a (⟨c, r⟩ :: t) reached)
      fun f t reached => failed f (⟨c, r⟩ :: t) reached

theorem Yields.outcome {p : Program α} {post : Except Fault α → List Exchange → Prop}
    (h : p.Yields allowed post) :
    p.outcome.Yields allowed fun out t => ∃ r, out = .ok r ∧ post r t := by
  induction p generalizing post with
  | done a => exact ⟨_, rfl, h⟩
  | raise f => exact ⟨_, rfl, h⟩
  | call c next ih => exact fun r ok => ih r (h r ok)

/-- An attempt, and then a way to go on from its result and one from an error of the system. -/
theorem Yields.attempt {p : Program α} {k : Except SystemError α → Program β}
    {mid : Except Fault α → List Exchange → Prop} {post : Except Fault β → List Exchange → Prop}
    (first : p.Yields allowed mid)
    (onward : ∀ a t, mid (.ok a) t → (k (.ok a)).Yields allowed fun out t' => post out (t ++ t'))
    (caught : ∀ e t, mid (.error (.system e)) t →
      (k (.error e)).Yields allowed fun out t' => post out (t ++ t'))
    (failed : ∀ f t, (∀ e, f ≠ .system e) → mid (.error f) t → post (.error f) t) :
    ((Program.attempt p).bind k).Yields allowed post := by
  have tried : (Program.attempt p).Yields allowed fun out t =>
      (∃ a, out = .ok (.ok a) ∧ mid (.ok a) t) ∨
      (∃ e, out = .ok (.error e) ∧ mid (.error (.system e)) t) ∨
      ∃ f, out = .error f ∧ (∀ e, f ≠ .system e) ∧ mid (.error f) t := by
    refine first.outcome.bind (fun r t reached => ?_) fun f t reached => ?_
    · obtain ⟨_, same, reached⟩ := reached
      cases same
      cases r with
      | ok a => exact .inl ⟨a, rfl, by simpa using reached⟩
      | error f =>
        cases f with
        | system e => exact .inr (.inl ⟨e, rfl, by simpa using reached⟩)
        | _ => exact .inr (.inr ⟨_, rfl, by simp, by simpa using reached⟩)
    · obtain ⟨_, same, _⟩ := reached
      cases same
  refine tried.bind (fun r t reached => ?_) fun f t reached => ?_
  · rcases reached with ⟨a, same, reached⟩ | ⟨e, same, reached⟩ | ⟨f, same, _⟩
    · cases same
      exact onward a t reached
    · cases same
      exact caught e t reached
    · cases same
  · rcases reached with ⟨a, same, _⟩ | ⟨e, same, _⟩ | ⟨f, same, other, reached⟩
    · cases same
    · cases same
    · cases same
      exact failed f t other reached

/-- A program and its clean-up. -/
theorem Yields.ensuring {body : Program α} {cleanup : Program Unit}
    {mid post : Except Fault α → List Exchange → Prop} (first : body.Yields allowed mid)
    (after : ∀ r t, mid r t → cleanup.Yields allowed fun
      | .ok _, t' => post r (t ++ t')
      | .error f, t' => post (.error f) (t ++ t')) :
    (Program.ensuring body cleanup).Yields allowed post := by
  refine first.outcome.bind (fun r t reached => ?_) fun f t reached => ?_
  · obtain ⟨_, same, reached⟩ := reached
    cases same
    refine (after r t reached).bind (fun _ t' cleaned => ?_) fun _ _ cleaned => cleaned
    rw [yields_ofExcept, List.append_nil]
    exact cleaned
  · obtain ⟨_, same, _⟩ := reached
    cases same

/-- The run in a world whose replies are allowed has such an outcome and such a trace. -/
theorem Yields.run {p : Program α} {post : Except Fault α → List Exchange → Prop} {s : σ}
    (allows : world.Allows allowed) (h : p.Yields allowed post) :
    post (p.run world s).1 (p.trace world s) := by
  induction p generalizing post s with
  | done a => exact h
  | raise f => exact h
  | call c next ih => exact ih _ (h _ (allows c s))

/-- The run, all of whose replies are allowed, has such an outcome and such a trace. -/
theorem Yields.run_of_trace {p : Program α} {post : Except Fault α → List Exchange → Prop} {s : σ}
    (fair : ∀ x ∈ p.trace world s, allowed x.call x.reply) (h : p.Yields allowed post) :
    post (p.run world s).1 (p.trace world s) := by
  induction p generalizing post s with
  | done a => exact h
  | raise f => exact h
  | call c next ih =>
    exact ih _ (fun x mem => fair x (List.mem_cons_of_mem _ mem))
      (h _ (fair ⟨c, (world.reply c s).1⟩ List.mem_cons_self))

/-- A contract, and what is shown of all traces with replies that the rule allows. -/
theorem Meets.and_yields {τ : Type} {rule : Rule τ} {guard : Call → τ → Prop} {p : Program α}
    {post : Except Fault α → τ → Prop} {told : Except Fault α → List Exchange → Prop} {s : τ}
    (h : p.Meets rule guard post s) (fair : ∀ c s r s', rule c s r s' → allowed c r)
    (yields : p.Yields allowed told) :
    p.Meets rule guard (fun out s' => post out s' ∧ ∃ t, told out t) s := by
  induction p generalizing told s with
  | done a => exact ⟨h, [], yields⟩
  | raise f => exact ⟨h, [], yields⟩
  | call c next ih =>
    refine ⟨h.1, fun r s' step => ?_⟩
    refine (ih r (h.2 r s' step) (yields r (fair c s r s' step))).mono ?_
    exact fun _ _ reached => ⟨reached.1, reached.2.imp' _ fun _ => id⟩

/-- A program whose calls all satisfy a guard, whatever the replies are, has only such calls in its
traces. -/
theorem Yields.of_guard {p : Program α} {guard : Call → Prop}
    (h : p.Keeps (τ := Unit) (fun _ _ _ _ => True) (fun c _ => guard c) fun _ => True) :
    p.Yields allowed fun _ t => ∀ x ∈ t, guard x.call := by
  have made := h () trivial
  clear h
  induction p with
  | done a => exact fun _ mem => absurd mem List.not_mem_nil
  | raise f => exact fun _ mem => absurd mem List.not_mem_nil
  | call c next ih =>
    exact fun r _ => Yields.mono (ih r (made.2 r () trivial)) fun _ t guarded =>
      List.forall_mem_cons.mpr ⟨made.1, guarded⟩

/-! ## Results, whatever the replies are -/

/-- Whether a program gives only results of some kind. -/
def Returns (good : α → Prop) : Program α → Prop
  | done a => good a
  | raise _ => True
  | call _ next => ∀ r, (next r).Returns good

theorem Returns.bind {p : Program α} {k : α → Program β} {mid : α → Prop} {good : β → Prop}
    (first : p.Returns mid) (onward : ∀ a, mid a → (k a).Returns good) :
    (p.bind k).Returns good := by
  induction p with
  | done a => exact onward a first
  | raise f => exact trivial
  | call c next ih => exact fun r => ih r (first r)

/-- What a program returns at its end does not depend on what it does before. -/
theorem Returns.after {p : Program α} {k : α → Program β} {good : β → Prop}
    (onward : ∀ a, (k a).Returns good) : (p.bind k).Returns good := by
  induction p with
  | done a => exact onward a
  | raise f => exact trivial
  | call c next ih => exact fun r => ih r

theorem Returns.outcome {p : Program α} {good : α → Prop} (h : p.Returns good) :
    p.outcome.Returns fun result => ∀ a, result = .ok a → good a := by
  induction p with
  | done a => exact fun b same => by cases same; exact h
  | raise f => exact fun _ bad => by cases bad
  | call c next ih => exact fun r => ih r (h r)

theorem Returns.attempt {p : Program α} {good : α → Prop} (h : p.Returns good) :
    (Program.attempt p).Returns fun result => ∀ a, result = .ok a → good a := by
  refine h.outcome.bind fun result kept => ?_
  cases result with
  | ok a => exact fun b same => by cases same; exact kept a rfl
  | error f =>
    cases f with
    | system e => exact fun _ bad => by cases bad
    | _ => exact trivial

/-- A clean-up has no influence on what a program returns. -/
theorem Returns.ensuring {body : Program α} {cleanup : Program Unit} {good : α → Prop}
    (h : body.Returns good) : (Program.ensuring body cleanup).Returns good := by
  refine h.outcome.bind fun result kept => .after fun _ => ?_
  cases result with
  | ok a => exact kept a rfl
  | error f => exact trivial

theorem Meets.returns {τ : Type} {rule : Rule τ} {guard : Call → τ → Prop} {p : Program α}
    {post : Except Fault α → τ → Prop} {good : α → Prop} {s : τ}
    (h : p.Meets rule guard post s) (always : p.Returns good) :
    p.Meets rule guard (fun out s' => post out s' ∧ ∀ a, out = .ok a → good a) s := by
  induction p generalizing s with
  | done a => exact ⟨h, fun b same => by cases same; exact always⟩
  | raise f => exact ⟨h, fun _ bad => by cases bad⟩
  | call c next ih => exact ⟨h.1, fun r s' step => ih r (h.2 r s' step) (always r)⟩

theorem Yields.returns {p : Program α} {post : Except Fault α → List Exchange → Prop}
    {good : α → Prop} (h : p.Yields allowed post) (always : p.Returns good) :
    p.Yields allowed fun out t => post out t ∧ ∀ a, out = .ok a → good a := by
  induction p generalizing post with
  | done a => exact ⟨h, fun b same => by cases same; exact always⟩
  | raise f => exact ⟨h, fun _ bad => by cases bad⟩
  | call c next ih => exact fun r ok => ih r (h r ok) (always r)

end Program

end HomeProvision
