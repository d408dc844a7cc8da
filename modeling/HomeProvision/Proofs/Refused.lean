import HomeProvision.Proofs.Forgotten

/-!
# An elevation that is refused

A window opens by at most two changes of the identity, and either may be refused. The window is not
open then and the process is what it was, since a user that was changed is changed back. What is left
in the controller differs, with the change that was refused: it keeps the identity or has forgotten
it. No program can tell these controllers apart (`under_resembles`), for without a window
what is kept is not read again. So a refusal leaves no trace (`refused_elevation_vanishes`). A release
that is refused does (`failed_release_lasts`).
-/

namespace HomeProvision

/-- The fault, if an exchange is a change of the identity that was refused. -/
def Exchange.refusal? (x : Exchange) : Option Fault :=
  if x.call.setsIdentity then x.call.fault? x.reply else none

/-- Whether a process can go back to what it was: a change of the group fails only with an error of
the system, and a change to another user than the administrator not at all. -/
def Retreats (c : Call) (r : c.Reply) : Prop :=
  match c with
  | .setEffectiveGid _ => FailsOrderly r
  | .setEffectiveUid uid => uid ≠ 0 → r = .ok ()
  | _ => True

/-- Whether two controllers are the same, or neither has an open window. -/
inductive Controller.Resembles : Controller → Controller → Prop
  | refl (c : Controller) : Resembles c c
  | idle (saved saved' : Option (Int × Int)) :
      Resembles (.administrator 0 saved) (.administrator 0 saved')

theorem Controller.Resembles.depth {c c' : Controller} (h : c.Resembles c') : c.depth = c'.depth := by
  cases h <;> rfl

namespace Program

variable {α σ : Type} {world : Layer σ} {view : σ → Credentials}

/-! ## Refusals -/

/-- The refusals so far, with that of one more exchange. -/
def noteRefusal (seen : List Fault) (x : Moment Credentials) : List Fault :=
  seen ++ x.refusal?.toList

/-- What calls do to an identity from which the process can retreat, with the refusals noted. -/
def Refusing : Rule (Credentials × List Fault) :=
  Rule.watched Identifies Retreats noteRefusal

theorem foldl_noteRefusal (history : List (Moment Credentials)) (seen : List Fault) :
    history.foldl noteRefusal seen =
      seen ++ (history.map Moment.toExchange).filterMap Exchange.refusal? := by
  induction history generalizing seen with
  | nil => exact (List.append_nil seen).symm
  | cons x rest ih =>
    rw [List.foldl_cons, ih, noteRefusal, List.append_assoc, List.map_cons, List.filterMap_cons]
    cases x.refusal? <;> rfl

/-- What a change of the identity has come to: it is made, or it is refused and has no effect. -/
def Switched (p p' : Credentials) (may : Fault → Prop) (out : Except Fault (Except Fault Unit))
    (s : Credentials × List Fault) : Prop :=
  (out = .ok (.ok ()) ∧ s = (p', [])) ∨ ∃ f, may f ∧ out = .ok (.error f) ∧ s = (p, [f])

theorem meets_askUid (p : Credentials) :
    (ask .effectiveUid).Meets Refusing (fun _ _ => True)
      (fun out s => out = .ok p.uid ∧ (p, []) = s) (p, []) := by
  refine ⟨trivial, fun r s step => ?_⟩
  obtain ⟨⟨⟨same, kept⟩, -⟩, noted⟩ := step
  exact ⟨congrArg _ same, Prod.ext kept.symm noted.symm⟩

theorem meets_askGid (p : Credentials) :
    (ask .effectiveGid).Meets Refusing (fun _ _ => True)
      (fun out s => out = .ok p.gid ∧ (p, []) = s) (p, []) := by
  refine ⟨trivial, fun r s step => ?_⟩
  obtain ⟨⟨⟨same, kept⟩, -⟩, noted⟩ := step
  exact ⟨congrArg _ same, Prod.ext kept.symm noted.symm⟩

theorem meets_toAdministrator (p : Credentials) :
    (Controller.switchUid p.uid 0).Meets Refusing (fun _ _ => True)
      (Switched p { p with uid := 0 } fun _ => True) (p, []) := by
  unfold Controller.switchUid
  split
  · next same => exact .inl ⟨rfl, by rw [← same]⟩
  · refine meets_outcome.mpr ⟨trivial, fun r s step => meets_ofExcept.mpr ?_⟩
    obtain ⟨⟨set, -⟩, noted⟩ := step
    cases r with
    | ok _ => exact .inl ⟨rfl, Prod.ext set noted⟩
    | error f => exact .inr ⟨f, trivial, rfl, Prod.ext set noted⟩

theorem meets_toGroup (p : Credentials) :
    (Controller.switchGid p.gid 0).Meets Refusing (fun _ _ => True)
      (Switched p { p with gid := 0 } Fault.IsSystem) (p, []) := by
  unfold Controller.switchGid
  split
  · next same => exact .inl ⟨rfl, by rw [← same]⟩
  · refine meets_outcome.mpr ⟨trivial, fun r s step => meets_ofExcept.mpr ?_⟩
    obtain ⟨⟨set, orderly⟩, noted⟩ := step
    cases r with
    | ok _ => exact .inl ⟨rfl, Prod.ext set noted⟩
    | error f => exact .inr ⟨f, orderly f rfl, rfl, Prod.ext set noted⟩

/-- The way back is not refused. -/
theorem meets_retreat (p : Credentials) (uid : Int) (seen : List Fault) :
    (Controller.switchUid 0 uid).Meets Refusing (fun _ _ => True)
      (fun out s => out = .ok (.ok ()) ∧ ({ p with uid }, seen) = s) ({ p with uid := 0 }, seen) := by
  unfold Controller.switchUid
  split
  · next same => exact ⟨rfl, by rw [same]⟩
  · next other =>
    refine meets_outcome.mpr ⟨trivial, fun r s step => meets_ofExcept.mpr ?_⟩
    obtain ⟨⟨set, granted⟩, noted⟩ := step
    obtain rfl := granted (Ne.symm other)
    exact ⟨rfl, Prod.ext set.symm (noted.trans (List.append_nil seen)).symm⟩

/-- What becomes of an elevation: no change is refused, or one is and the process is what it was. -/
def Settled (p : Credentials) (out : Except Fault (Except Fault Unit × Controller))
    (s : Credentials × List Fault) : Prop :=
  s.2 = [] ∨ ∃ f kept, out = .ok (.error f, .administrator 0 kept) ∧ s = (p, [f])

theorem takeOver_settles (p : Credentials) :
    Controller.takeOver.Meets Refusing (fun _ _ => True) (Settled p) (p, []) := by
  refine (meets_askUid p).surely fun _ same => ?_
  subst same
  refine (meets_askGid p).surely fun _ same => ?_
  subst same
  refine (meets_toAdministrator p).bind (fun first s switched => ?_) fun f s switched => ?_
  · rcases switched with ⟨same, rfl⟩ | ⟨f, -, same, rfl⟩ <;> cases same
    · refine (meets_toGroup { p with uid := 0 }).bind (fun second s switched => ?_)
        fun f s switched => ?_
      · rcases switched with ⟨same, rfl⟩ | ⟨f, ⟨e, rfl⟩, same, rfl⟩ <;> cases same
        · exact .inl rfl
        · refine (meets_retreat p p.uid [.system e]).surely fun _ same => ?_
          subst same
          exact .inr ⟨_, _, rfl, rfl⟩
      · rcases switched with ⟨same, -⟩ | ⟨_, -, same, -⟩ <;> cases same
    · exact .inr ⟨f, _, rfl, rfl⟩
  · rcases switched with ⟨same, -⟩ | ⟨_, -, same, -⟩ <;> cases same

/-- An elevation in which a change is refused ends with this refusal, without a window and with the
identity that was there. -/
theorem takeOver_refused (keeps : world.KeepsTo Identifies view) {s : σ} {x : Exchange} {f : Fault}
    (retreats : ∀ y ∈ Controller.takeOver.trace world s, Retreats y.call y.reply)
    (mem : x ∈ Controller.takeOver.trace world s) (refused : x.refusal? = some f) :
    ∃ kept s', Controller.takeOver.run world s = (.ok (.error f, .administrator 0 kept), s') ∧
      view s' = view s := by
  have settled := Meets.watched keeps retreats (takeOver_settles (view s))
  rw [foldl_noteRefusal, history_trace, List.nil_append] at settled
  have noted : f ∈ (Controller.takeOver.trace world s).filterMap Exchange.refusal? :=
    List.mem_filterMap.mpr ⟨x, mem, refused⟩
  rcases settled with none | ⟨g, kept, ends, same⟩
  · dsimp only at none
    rw [none] at noted
    cases noted
  · obtain ⟨restored, only⟩ := Prod.mk.inj same
    rw [only] at noted
    obtain rfl := List.mem_singleton.mp noted
    exact ⟨kept, _, Prod.ext ends rfl, restored⟩

/-! ## What a program sees of a controller -/

/-- A program cannot tell controllers apart that resemble each other: it makes the same calls, ends in
the same way, and leaves controllers behind that resemble each other again. -/
theorem under_resembles {c c' : Controller} (h : c.Resembles c') (world : Layer σ)
    (p : Program α) (s : σ) :
    (under c p).trace world s = (under c' p).trace world s ∧
      ∃ out k k' s', (under c p).run world s = (.ok (out, k), s') ∧
        (under c' p).run world s = (.ok (out, k'), s') ∧ k.Resembles k' := by
  cases h with
  | refl c => exact ⟨rfl, _, _, _, _, run_under world p c s, run_under world p c s, .refl _⟩
  | idle saved saved' =>
    induction p generalizing s with
    | done a => exact ⟨rfl, _, _, _, _, rfl, rfl, .idle saved saved'⟩
    | raise f => exact ⟨rfl, _, _, _, _, rfl, rfl, .idle saved saved'⟩
    | call other next ih =>
      cases other with
      | elevate =>
        -- an elevation reads the identity anew
        have same : under (.administrator 0 saved) (call .elevate next) =
            under (.administrator 0 saved') (call .elevate next) := rfl
        rw [same]
        exact ⟨rfl, _, _, _, _, run_under world _ _ s, run_under world _ _ s, .refl _⟩
      | relinquish => exact ih _ s
      | _ =>
        obtain ⟨same, ends⟩ := ih _ _
        exact ⟨congrArg (List.cons _) same, ends⟩

/-! ## Refused elevations -/

/-- A window that cannot be opened ends its program at once. -/
theorem elevated_under_refused {c c' : Controller} {s s' : σ} {f : Fault} (body : Program α)
    (ends : c.elevate.run world s = (.ok (.error f, c'), s')) :
    (under c (elevated body)).run world s = (.ok (.error f, c'), s') ∧
      (under c (elevated body)).trace world s = c.elevate.trace world s ∧
      (elevated body).trace world.governed (s, c) = [⟨.elevate, .error f⟩] := by
  have refused : (under c (elevated body)) = c.elevate.bind fun r =>
      under r.2 ((ofExcept r.1).bind fun _ => ensuring body (call .relinquish ofExcept)) := rfl
  refine ⟨?_, ?_, ?_⟩
  · rw [refused, run_bind_ok ends]
    rfl
  · rw [refused, trace_bind_ok ends]
    exact List.append_nil _
  · have answer : world.governed.reply .elevate (s, c) = (.error f, s', c') := by
      change c.answered (c.elevate.run world s) = _
      rw [ends]
      rfl
    change ⟨.elevate, (world.governed.reply .elevate (s, c)).1⟩ ::
      ((ofExcept (world.governed.reply .elevate (s, c)).1).bind fun _ =>
        ensuring body (call .relinquish ofExcept)).trace world.governed _ = _
    rw [answer]
    rfl

/-- A refused elevation leaves no trace. Let a controller have no open window, whatever it has kept,
and let a change of the identity be refused in its elevation, in a world where the process can go back
to what it was. The elevation ends with that refusal; the identity and the depth are as before; and
every program has, in whatever world and state, the same run on the controller that is left as on the
one before. A window that is to be opened so ends with the refusal too: its calls are those of the
elevation, nothing of its body is run, and nothing is given back. -/
theorem refused_elevation_vanishes (keeps : world.KeepsTo Identifies view)
    {saved : Option (Int × Int)} {s : σ} {x : Exchange} {f : Fault}
    (retreats : ∀ y ∈ (Controller.administrator 0 saved).elevate.trace world s,
      Retreats y.call y.reply)
    (mem : x ∈ (Controller.administrator 0 saved).elevate.trace world s)
    (refused : x.refusal? = some f) :
    ∃ c s', (Controller.administrator 0 saved).elevate.run world s = (.ok (.error f, c), s') ∧
      view s' = view s ∧ c.depth = 0 ∧
      (∀ {τ β : Type} (later : Layer τ) (p : Program β) (t : τ),
        (under c p).trace later t = (under (.administrator 0 saved) p).trace later t ∧
          ∃ out k k' t', (under c p).run later t = (.ok (out, k), t') ∧
            (under (.administrator 0 saved) p).run later t = (.ok (out, k'), t') ∧
            k.depth = k'.depth) ∧
      ∀ {β : Type} (body : Program β),
        (under (.administrator 0 saved) (elevated body)).run world s = (.ok (.error f, c), s') ∧
        (under (.administrator 0 saved) (elevated body)).trace world s =
          (Controller.administrator 0 saved).elevate.trace world s ∧
        (elevated body).trace world.governed (s, .administrator 0 saved) =
          [⟨.elevate, .error f⟩] := by
  obtain ⟨kept, s', ends, restored⟩ := takeOver_refused keeps retreats mem refused
  refine ⟨.administrator 0 kept, s', ends, restored, rfl, fun later p t => ?_,
    fun body => elevated_under_refused body ends⟩
  obtain ⟨same, out, k, k', t', run, run', alike⟩ :=
    under_resembles (.idle kept saved) later p t
  exact ⟨same, out, k, k', t', run, run', alike.depth⟩

/-- A process that was another user's, under a kernel that refuses to change the group, is that user's
again, and where nothing is refused any more it opens its window as if nothing had happened. -/
theorem refused_elevation_vanishes_stuck :
    let home : Credentials := ⟨0, 1000, 100⟩
    let refusal : Fault := Machine.refusedDescriptor .notPermitted
    ∃ c, (Controller.administrator 0 (some (7, 8))).elevate.run stuck home =
        (.ok (.error refusal, c), home) ∧ c.depth = 0 ∧
      (under c unruly).trace Credentials.layer home =
        (under (.administrator 0 (some (7, 8))) unruly).trace Credentials.layer home := by
  intro home refusal
  have whole : (Controller.administrator 0 (some (7, 8))).elevate.trace stuck home =
      [⟨.effectiveUid, (1000 : Int)⟩, ⟨.effectiveGid, (100 : Int)⟩, ⟨.setEffectiveUid 0, .ok ()⟩,
        ⟨.setEffectiveGid 0, .error refusal⟩, ⟨.setEffectiveUid 1000, .ok ()⟩] := rfl
  have retreats : ∀ y ∈ (Controller.administrator 0 (some (7, 8))).elevate.trace stuck home,
      Retreats y.call y.reply := by
    rw [whole]
    rintro y (_ | ⟨_, _ | ⟨_, _ | ⟨_, _ | ⟨_, _ | ⟨_, bad⟩⟩⟩⟩⟩)
    · trivial
    · trivial
    · exact fun bad => absurd rfl bad
    · exact fun f same => ⟨_, (Except.error.inj same).symm⟩
    · exact fun _ => rfl
    · cases bad
  obtain ⟨c, s', ends, restored, depth, later, -⟩ := refused_elevation_vanishes stuck_identifies
    retreats (x := ⟨.setEffectiveGid 0, .error refusal⟩) (f := refusal)
    (by rw [whole]; simp) rfl
  obtain rfl : s' = home := restored
  exact ⟨c, ends, depth, (later Credentials.layer unruly home).1⟩

end Program

end HomeProvision
