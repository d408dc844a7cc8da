import HomeProvision.Proofs.Trace

/-!
# Watched runs

The history of a run is its trace with the state in front of every call. A property of a whole
history is no property of a single state, so a note is kept beside the state: `Rule.watched` is a
rule for both, which brings the note up to date at every call and otherwise allows what the rule
allows. A contract under the watched rule says of a run what the note is in the end
(`Meets.watched`), and of each of its calls what the note is there (`Meets.moments`).
-/

namespace HomeProvision

/-- A call and its reply, with the state in front of it. -/
structure Moment (τ : Type) extends Exchange where
  state : τ

variable {α γ σ τ : Type}

/-- A moment, with what shows of its state. -/
def Moment.through (view : σ → τ) (x : Moment σ) : Moment τ where
  toExchange := x.toExchange
  state := view x.state

namespace Program

/-- The calls of a run with their replies, each with what shows of the state in front of it. -/
def history (world : Layer σ) (view : σ → τ) : Program α → σ → List (Moment τ)
  | done _, _ => []
  | raise _, _ => []
  | call c next, s =>
      ⟨⟨c, (world.reply c s).1⟩, view s⟩ ::
        (next (world.reply c s).1).history world view (world.reply c s).2

/-- A history without its states is the trace. -/
theorem history_trace (world : Layer σ) (view : σ → τ) (p : Program α) (s : σ) :
    (p.history world view s).map Moment.toExchange = p.trace world s := by
  induction p generalizing s with
  | done a => rfl
  | raise f => rfl
  | call c next ih => exact congrArg (List.cons _) (ih _ _)

/-- The history that a view shows is the history, seen through the view. -/
theorem history_through (world : Layer σ) (view : σ → τ) (p : Program α) (s : σ) :
    (p.history world id s).map (Moment.through view) = p.history world view s := by
  induction p generalizing s with
  | done a => rfl
  | raise f => rfl
  | call c next ih => exact congrArg (List.cons _) (ih _ _)

end Program

/-- What a world may do beside which a note is kept, if it gives no replies but those allowed. -/
def Rule.watched (rule : Rule τ) (allowed : (c : Call) → c.Reply → Prop)
    (note : γ → Moment τ → γ) : Rule (τ × γ) :=
  fun c s r s' => (rule c s.1 r s'.1 ∧ allowed c r) ∧ s'.2 = note s.2 ⟨⟨c, r⟩, s.1⟩

namespace Program

/-- A run, all of whose replies are allowed, ends as its contract under the watched rule says, with
the note on its history. -/
theorem Meets.watched {world : Layer σ} {rule : Rule τ} {view : σ → τ}
    {allowed : (c : Call) → c.Reply → Prop} {note : γ → Moment τ → γ}
    {guard : Call → τ × γ → Prop} {p : Program α} {post : Except Fault α → τ × γ → Prop} {s : σ}
    {seen : γ} (keeps : world.KeepsTo rule view)
    (fair : ∀ x ∈ p.trace world s, allowed x.call x.reply)
    (h : p.Meets (rule.watched allowed note) guard post (view s, seen)) :
    post (p.run world s).1
      (view (p.run world s).2, (p.history world view s).foldl note seen) := by
  induction p generalizing s seen with
  | done a => exact h
  | raise f => exact h
  | call c next ih =>
    have first := fair ⟨c, (world.reply c s).1⟩ List.mem_cons_self
    have step : rule.watched allowed note c (view s, seen) (world.reply c s).1
        (view (world.reply c s).2, note seen ⟨⟨c, (world.reply c s).1⟩, view s⟩) :=
      ⟨⟨keeps c s, first⟩, rfl⟩
    exact ih _ (fun x mem => fair x (List.mem_cons_of_mem _ mem)) (h.2 _ _ step)

/-- Every call of a run is made where its contract allows it, and its reply is one that the rule
allows. -/
theorem Meets.history {world : Layer σ} {rule : Rule τ} {view : σ → τ} {guard : Call → τ → Prop}
    {p : Program α} {post : Except Fault α → τ → Prop} {s : σ} (keeps : world.KeepsTo rule view)
    (h : p.Meets rule guard post (view s)) :
    ∀ x ∈ p.history world view s, guard x.call x.state ∧ ∃ s', rule x.call x.state x.reply s' := by
  induction p generalizing s with
  | done a => exact fun _ mem => absurd mem List.not_mem_nil
  | raise f => exact fun _ mem => absurd mem List.not_mem_nil
  | call c next ih =>
    intro x mem
    rcases List.mem_cons.mp mem with rfl | mem
    · exact ⟨h.1, _, keeps c s⟩
    · exact ih _ (h.2 _ _ (keeps c s)) x mem

/-- A call of a run is made where its contract allows it, for the note on the moments before it. -/
theorem Meets.moments_noted {world : Layer σ} {rule : Rule τ} {view : σ → τ}
    {allowed : (c : Call) → c.Reply → Prop} {note : γ → Moment τ → γ} {guard : Call → τ × γ → Prop}
    {p : Program α} {post : Except Fault α → τ × γ → Prop} {s : σ} {seen : γ}
    (keeps : world.KeepsTo rule view)
    (h : p.Meets (rule.watched allowed note) guard post (view s, seen)) :
    ∀ before x after, p.history world view s = before ++ x :: after →
      (∀ y ∈ before, allowed y.call y.reply) →
      guard x.call (x.state, before.foldl note seen) := by
  induction p generalizing s seen with
  | done a => exact fun before x after same => by cases before <;> cases same
  | raise f => exact fun before x after same => by cases before <;> cases same
  | call c next ih =>
    intro before x after same fair
    cases before with
    | nil =>
      cases same
      exact h.1
    | cons y before =>
      obtain ⟨here, rest⟩ := List.cons.inj same
      subst here
      exact ih _ (h.2 _ _ ⟨⟨keeps c s, fair _ List.mem_cons_self⟩, rfl⟩) before x after rest
        fun y mem => fair y (List.mem_cons_of_mem _ mem)

/-- A call of a run is made where its contract allows it, for the note on the exchanges before it, if
the replies so far are allowed. -/
theorem Meets.moments {world : Layer σ} {rule : Rule τ} {view : σ → τ}
    {allowed : (c : Call) → c.Reply → Prop} {note : γ → Exchange → γ} {guard : Call → τ × γ → Prop}
    {p : Program α} {post : Except Fault α → τ × γ → Prop} {s : σ} {seen : γ}
    (keeps : world.KeepsTo rule view)
    (h : p.Meets (rule.watched allowed fun seen x => note seen x.toExchange) guard post
      (view s, seen)) :
    ∀ before x after, p.history world id s = before ++ x :: after →
      (∀ y ∈ before, allowed y.call y.reply) →
      guard x.call (view x.state, (before.map Moment.toExchange).foldl note seen) := by
  intro before x after same fair
  have shown : p.history world view s =
      before.map (.through view) ++ x.through view :: after.map (.through view) := by
    rw [← history_through, same, List.map_append, List.map_cons]
  have told := h.moments_noted keeps _ _ _ shown fun y mem => by
    obtain ⟨z, here, rfl⟩ := List.mem_map.mp mem
    exact fair z here
  rw [List.foldl_map] at told ⊢
  exact told

/-! ## Parts of a history -/

/-- What is left of a history is the history of what is left of the run. -/
theorem history_rest {world : Layer σ} {view : σ → τ} {p : Program α} {s : σ}
    {before rest : List (Moment τ)} (same : p.history world view s = before ++ rest) :
    ∃ (q : Program α) (s' : σ), q.history world view s' = rest ∧ q.run world s' = p.run world s := by
  induction before generalizing p s with
  | nil => exact ⟨p, s, same, rfl⟩
  | cons x before ih =>
    cases p with
    | done a => cases same
    | raise f => cases same
    | call c next =>
      obtain ⟨q, s', left, run⟩ := ih (p := next (world.reply c s).1) (List.cons.inj same).2
      exact ⟨q, s', left, run⟩

theorem history_head {world : Layer σ} {view : σ → τ} {p : Program α} {s : σ} {x : Moment τ}
    {rest : List (Moment τ)} (same : p.history world view s = x :: rest) : x.state = view s := by
  cases p with
  | done a => cases same
  | raise f => cases same
  | call c next => rw [← (List.cons.inj same).1]

/-- What each step keeps is true from one moment of a run to a later one. -/
theorem history_lasts {world : Layer σ} (kept : σ → Prop) {p : Program α} {s : σ}
    {during after : List (Moment σ)} {x : Moment σ}
    (same : p.history world id s = during ++ x :: after) (first : kept s)
    (step : ∀ y ∈ during, kept y.state → kept (world.reply y.call y.state).2) :
    ∀ y ∈ during ++ [x], kept y.state := by
  induction during generalizing p s with
  | nil =>
    cases p with
    | done a => cases same
    | raise f => cases same
    | call c next =>
      cases same
      exact fun y mem => by rw [List.mem_singleton.mp mem]; exact first
  | cons z during ih =>
    cases p with
    | done a => cases same
    | raise f => cases same
    | call c next =>
      obtain ⟨here, rest⟩ := List.cons.inj same
      subst here
      intro y mem
      rcases List.mem_cons.mp mem with rfl | mem
      · exact first
      · exact ih rest (step _ List.mem_cons_self first)
          (fun y mem => step y (List.mem_cons_of_mem _ mem)) y mem

/-- What each step keeps is true in the end. -/
theorem run_lasts {world : Layer σ} (kept : σ → Prop) {p : Program α} {s : σ} (first : kept s)
    (step : ∀ x ∈ p.trace world s, ∀ s, kept s → kept (world.reply x.call s).2) :
    kept (p.run world s).2 := by
  induction p generalizing s with
  | done a => exact first
  | raise f => exact first
  | call c next ih =>
    exact ih _ (step _ List.mem_cons_self s first) fun x mem => step x (List.mem_cons_of_mem _ mem)

/-- A trace that is split splits the run. -/
theorem trace_split {world : Layer σ} {p : Program α} {s : σ} {before rest : List Exchange}
    (same : p.trace world s = before ++ rest) :
    ∃ (moments : List (Moment σ)) (q : Program α) (s' : σ), moments.map Moment.toExchange = before ∧
      p.history world id s = moments ++ q.history world id s' ∧ q.trace world s' = rest ∧
      q.run world s' = p.run world s := by
  rw [← history_trace world id] at same
  obtain ⟨moments, more, split, rfl, rfl⟩ := List.map_eq_append_iff.mp same
  obtain ⟨q, s', left, run⟩ := history_rest split
  exact ⟨moments, q, s', rfl, split.trans (by rw [left]), by rw [← left, history_trace], run⟩

end Program

/-! ## Notes on traces -/

/-- What is noted of the exchanges of a run, if there are no replies but those allowed. -/
def noting (allowed : (c : Call) → c.Reply → Prop) (note : γ → Exchange → γ) : Rule γ :=
  fun c s r s' => allowed c r ∧ s' = note s ⟨c, r⟩

/-- A contract about notes says of every trace what the note on it is, and that every call is made
where the note on the calls before it allows it. -/
theorem Program.Meets.yields {allowed : (c : Call) → c.Reply → Prop} {note : γ → Exchange → γ}
    {guard : Call → γ → Prop} {p : Program α} {post : Except Fault α → γ → Prop} {seen : γ}
    (h : p.Meets (noting allowed note) guard post seen) :
    p.Yields allowed fun out t => post out (t.foldl note seen) ∧
      ∀ before x after, t = before ++ x :: after → guard x.call (before.foldl note seen) := by
  induction p generalizing seen with
  | done a => exact ⟨h, fun before x after same => by simp at same⟩
  | raise f => exact ⟨h, fun before x after same => by simp at same⟩
  | call c next ih =>
    refine fun r ok => (ih r (h.2 r _ ⟨ok, rfl⟩)).mono fun out t reached => ⟨reached.1, ?_⟩
    intro before x after same
    cases before with
    | nil =>
      cases same
      exact h.1
    | cons first before =>
      cases same
      exact reached.2 before x after rfl

/-- The exchanges so far, and one more. -/
def record (seen : List Exchange) (x : Exchange) : List Exchange :=
  seen ++ [x]

theorem foldl_record (t seen : List Exchange) : t.foldl record seen = seen ++ t := by
  induction t generalizing seen with
  | nil => exact (List.append_nil seen).symm
  | cons x rest ih => rw [List.foldl_cons, ih, record, List.append_assoc, List.singleton_append]

/-- A contract about the exchanges so far says of every trace how it goes on. -/
theorem Program.Meets.yields_record {allowed : (c : Call) → c.Reply → Prop}
    {guard : Call → List Exchange → Prop} {p : Program α}
    {post : Except Fault α → List Exchange → Prop} (h : p.Meets (noting allowed record) guard post []) :
    p.Yields allowed fun out t => post out t ∧
      ∀ before x after, t = before ++ x :: after → guard x.call before := by
  refine h.yields.mono fun out t told => ?_
  simpa only [foldl_record, List.nil_append] using told

/-! ## Pieces of files -/

/-- Whether an exchange is a write that went well. -/
def Exchange.isWrite : Exchange → Bool
  | ⟨.write _ _, .ok _⟩ => true
  | _ => false

/-- Whether a piece of a file has just been written. -/
def betweenPieces (seen : List Exchange) : Bool :=
  seen.getLast?.any Exchange.isWrite

theorem betweenPieces_snoc (t : List Exchange) (x : Exchange) :
    betweenPieces (t ++ [x]) = x.isWrite := by
  rw [betweenPieces, List.getLast?_concat]
  rfl

theorem foldl_isWrite (t : List Exchange) :
    t.foldl (fun _ x => x.isWrite) false = betweenPieces t := by
  rcases List.eq_nil_or_concat t with rfl | ⟨before, x, rfl⟩
  · rfl
  · rw [List.concat_eq_append, List.foldl_append, betweenPieces_snoc]
    rfl

/-! ## Recorded runs -/

/-- A world beside which the calls and the replies to them are written down. -/
def Layer.recording (world : Layer σ) : Layer (σ × List Exchange) where
  reply c s :=
    ((world.reply c s.1).1, (world.reply c s.1).2, s.2 ++ [⟨c, (world.reply c s.1).1⟩])

/-- A recorded run is the run, with its trace written down. -/
theorem Program.run_recording (world : Layer σ) (p : Program α) (s : σ) (seen : List Exchange) :
    p.run world.recording (s, seen) =
      ((p.run world s).1, (p.run world s).2, seen ++ p.trace world s) := by
  induction p generalizing s seen with
  | done a => rw [trace, List.append_nil]; rfl
  | raise f => rw [trace, List.append_nil]; rfl
  | call c next ih =>
    refine (ih (world.reply c s).1 (world.reply c s).2
      (seen ++ [⟨c, (world.reply c s).1⟩])).trans ?_
    rw [List.append_assoc, List.singleton_append]
    rfl

end HomeProvision
