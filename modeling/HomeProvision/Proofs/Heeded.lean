import HomeProvision.Proofs.Disturbance
import HomeProvision.Proofs.Orderly
import HomeProvision.Proofs.Requests
import HomeProvision.Proofs.Status
import HomeProvision.Proofs.Watched

/-!
# What the hook raises

The hook gets control after every step on the way to a home, before every entry of a skeleton and
after every piece of a file. When it raises a fault, the run ends with this fault, the hook does not
get control again, and there are no more calls than those that clean up (`ensurePath_heeds`,
`cloneTree_heeds` and `provision_heeds`).

There is one exception. After a piece of a file the hook gets control where errors of writing are
dealt with. An error of the system that it raises there is taken for one of these
(`stream_mistakes`), and the run goes on (`cloneTree_unheeding`).
-/

namespace HomeProvision

variable {α β σ : Type}

/-! ## Heeded faults -/

/-- Whether a call belongs to a clean-up. -/
def Call.cleansUp : Call → Bool
  | .close _ | .relinquish | .log _ => true
  | _ => false

/-- A call of the hook in which it raises a fault. -/
abbrev Exchange.raised (f : Fault) : Exchange :=
  ⟨.pause, .error f⟩

/-- The replies of a world in which closing a file raises nothing: an error of the system is no
reason for a run not to go on. -/
def Closes (c : Call) (r : c.Reply) : Prop :=
  match c with
  | .close _ => FailsOrderly r
  | _ => True

/-- The replies of a world in which giving back the rights raises nothing, either. -/
def CleansUp (c : Call) (r : c.Reply) : Prop :=
  Closes c r ∧
    match c with
    | .relinquish => r = .ok ()
    | _ => True

/-- Whether a fault of the hook ends a run, with nothing but a clean-up after it. Errors of the
system that are raised between two pieces of a file are left out. -/
def Heeds (out : Except Fault α) (t : List Exchange) : Prop :=
  ∀ before f after, t = before ++ .raised f :: after →
    (f.IsSystem → betweenPieces before = false) →
      out = .error f ∧ ∀ x ∈ after, x.call.cleansUp = true

/-! ## What is noted of the hook -/

/-- The fault of the hook that has to end a run. -/
def Exchange.fault? (wrote : Bool) : Exchange → Option Fault
  | ⟨.pause, .error (.system e)⟩ => if wrote then none else some (.system e)
  | ⟨.pause, .error f⟩ => some f
  | _ => none

/-- What is noted of a run: whether its last call was a write that went well, and the fault that has
to end it. -/
structure Hearing where
  wrote : Bool := false
  fault : Option Fault := none

/-- The note after one more exchange. -/
def Hearing.note (h : Hearing) (x : Exchange) : Hearing where
  wrote := x.isWrite
  fault := h.fault.or (x.fault? h.wrote)

theorem fault?_pause {wrote : Bool} {f : Fault} (heard : f.IsSystem → wrote = false) :
    (Exchange.raised f).fault? wrote = some f := by
  cases f with
  | system e =>
    cases heard ⟨e, rfl⟩
    rfl
  | _ => rfl

theorem fault?_other {wrote : Bool} {c : Call} {r : c.Reply} (other : c.isPause = false) :
    (⟨c, r⟩ : Exchange).fault? wrote = none := by
  cases c <;> first | rfl | cases other

theorem foldl_note_wrote (t : List Exchange) :
    (t.foldl Hearing.note {}).wrote = betweenPieces t :=
  (List.foldl_hom Hearing.wrote fun _ _ => rfl).symm.trans (foldl_isWrite t)

/-- A fault that has to end a run stays noted. -/
theorem foldl_note_fault {h : Hearing} {f : Fault} (heard : h.fault = some f) (t : List Exchange) :
    (t.foldl Hearing.note h).fault = some f := by
  induction t generalizing h with
  | nil => exact heard
  | cons x rest ih => exact ih (by rw [Hearing.note, heard, Option.some_or])

namespace Program

/-- What happens in a world in which closing a file raises nothing, with the note on it. -/
abbrev Hears : Rule Hearing :=
  noting Closes Hearing.note

/-- Once a fault has to end a run, calls are made to clean up only. -/
def onlyCleansUp (c : Call) (h : Hearing) : Prop :=
  h.fault.isSome = true → c.cleansUp = true

/-- Nothing was raised that has to end the run. -/
def Unheard (h : Hearing) : Prop :=
  h.fault = none

/-- A failure of a part is the fault that has to end the run, if there is one. -/
def Passes (f : Fault) (h : Hearing) : Prop :=
  ∀ g, h.fault = some g → f = g

theorem onlyCleansUp_of_unheard {c : Call} {h : Hearing} (unheard : Unheard h) :
    onlyCleansUp c h := by
  intro some
  rw [unheard] at some
  cases some

theorem passes_of_unheard (f : Fault) (h : Hearing) (unheard : Unheard h) : Passes f h := by
  intro g heard
  rw [unheard] at heard
  cases heard

/-- A program that passes on what has to end the run heeds the hook. -/
theorem Carries.heeds {allowed : (c : Call) → c.Reply → Prop} {p : Program α}
    (h : p.Carries (noting allowed Hearing.note) onlyCleansUp Unheard Passes) :
    p.Yields allowed Heeds := by
  refine (Meets.yields (h {} rfl)).mono fun out t told before f after same heard => ?_
  obtain ⟨ended, guarded⟩ := told
  subst same
  have free : (before.foldl Hearing.note {}).fault = none := by
    refine Option.not_isSome_iff_eq_none.mp fun some => ?_
    cases guarded before (Exchange.raised f) after rfl some
  have here : ((before ++ [Exchange.raised f]).foldl Hearing.note {}).fault = some f := by
    rw [List.foldl_append, List.foldl_cons, List.foldl_nil, Hearing.note, free, Option.none_or,
      foldl_note_wrote]
    exact fault?_pause heard
  have whole : ∀ rest, (before ++ Exchange.raised f :: rest).foldl Hearing.note {} =
      rest.foldl Hearing.note ((before ++ [Exchange.raised f]).foldl Hearing.note {}) := by
    intro rest
    rw [← List.foldl_append, List.append_assoc, List.singleton_append]
  rw [whole] at ended
  have last := foldl_note_fault here after
  refine ⟨?_, fun x mem => ?_⟩
  · cases out with
    | ok a => cases last.symm.trans ended
    | error g => rw [ended f last]
  · obtain ⟨first, rest, rfl⟩ := List.append_of_mem mem
    refine guarded (before ++ .raised f :: first) x rest (by simp) ?_
    rw [whole, foldl_note_fault here first]
    rfl

/-! ## Parts that the hook has no part in -/

theorem unheard_call (c : Call) (h : Hearing) (own : c.isPause = false) (unheard : Unheard h) :
    onlyCleansUp c h ∧ ∀ r h', Hears c h r h' → Unheard h' := by
  refine ⟨onlyCleansUp_of_unheard unheard, fun r h' step => ?_⟩
  rw [step.2, Unheard, Hearing.note, unheard, Option.none_or]
  exact fault?_other own

theorem unheard_one {c : Call} {next : c.Reply → Program α} (own : c.isPause = false)
    (onward : ∀ r, (next r).Keeps Hears onlyCleansUp Unheard) :
    (call c next).Keeps Hears onlyCleansUp Unheard :=
  fun h unheard => ⟨(unheard_call c h own unheard).1, fun r h' step =>
    onward r h' ((unheard_call c h own unheard).2 r h' step)⟩

theorem unheard_log : KeepsLog Hears onlyCleansUp Unheard :=
  fun _ _ _ => unheard_one rfl fun _ => .done _

/-- A clean-up does not fail, and it may be made in any case. -/
theorem closeQuietly_hears (number : Int) (event path : String) (h : Hearing) :
    (closeQuietly number event path).Meets Hears onlyCleansUp
      (fun out h' => out = .ok () ∧ h'.fault = h.fault) h := by
  have closed : (close number).Meets Hears onlyCleansUp
      (fun out h' => FailsOrderly out ∧ h'.fault = h.fault) h := by
    refine ⟨fun _ => rfl, fun r h' step => meets_ofExcept.mpr ⟨step.1, ?_⟩⟩
    rw [step.2, Hearing.note, fault?_other rfl, Option.or_none]
  refine Meets.attempt closed ?_ ?_ fun f h' other failed => ?_
  · exact fun _ h' kept => ⟨rfl, kept.2⟩
  · intro e h' kept
    refine ⟨fun _ => rfl, fun _ h'' step => ⟨rfl, ?_⟩⟩
    rw [step.2, Hearing.note, fault?_other rfl, Option.or_none, kept.2]
  · obtain ⟨e, same⟩ := failed.1 f rfl
    exact absurd same (other e)

/-- A fault goes through a clean-up that does not fail. -/
theorem carries_ensuring {body : Program α} {cleanup : Program Unit}
    (h : body.Carries Hears onlyCleansUp Unheard Passes)
    (clean : ∀ h, cleanup.Meets Hears onlyCleansUp
      (fun out h' => out = .ok () ∧ h'.fault = h.fault) h) :
    (ensuring body cleanup).Carries Hears onlyCleansUp Unheard Passes := by
  refine fun h₀ unheard => (h h₀ unheard).ensuring fun out h₁ reached => ?_
  refine (clean h₁).mono fun out' h₂ cleaned => ?_
  obtain ⟨rfl, same⟩ := cleaned
  cases out with
  | ok a => exact same.trans reached
  | error f => exact fun g heard => reached g (same ▸ heard)

/-! ## Files -/

/-- Before an entry or after a step, whatever the hook raises goes through. -/
theorem pause_hears : pause.Carries Hears onlyCleansUp Unheard Passes := by
  refine fun h unheard => ⟨onlyCleansUp_of_unheard unheard, fun r h' step => ?_⟩
  refine meets_ofExcept.mpr ?_
  rw [step.2]
  cases r with
  | ok _ => exact (congrArg (Option.or · _) unheard)
  | error f =>
    intro g heard
    rw [Hearing.note, unheard, Option.none_or] at heard
    cases f with
    | system e =>
      change (if h.wrote = true then none else some (Fault.system e)) = some g at heard
      split at heard
      · cases heard
      · exact Option.some.inj heard
    | _ => exact Option.some.inj heard

/-- After a piece, no error of the system has to end the run. -/
theorem pause_hears_between {h : Hearing} (unheard : Unheard h) (wrote : h.wrote = true) :
    pause.Meets Hears onlyCleansUp
      (Carried Unheard fun f h' => Passes f h' ∧ (f.IsSystem → Unheard h')) h := by
  refine ⟨onlyCleansUp_of_unheard unheard, fun r h' step => ?_⟩
  refine meets_ofExcept.mpr ?_
  have noted : h'.fault = (⟨.pause, r⟩ : Exchange).fault? true := by
    rw [step.2, Hearing.note, unheard, Option.none_or, wrote]
  cases r with
  | ok _ => exact noted
  | error f =>
    cases f with
    | system e => exact ⟨passes_of_unheard _ _ noted, fun _ => noted⟩
    | _ =>
      refine ⟨fun g heard => Option.some.inj (noted.symm.trans heard), fun system => ?_⟩
      obtain ⟨_, bad⟩ := system
      cases bad

theorem copyPieces_hears (reading writing size : Int) (pieces : Nat) :
    (copyPieces reading writing size pieces).Carries Hears onlyCleansUp Unheard
      fun f h => Passes f h ∧ (f.IsSystem → Unheard h) := by
  have leave : ∀ f h, Unheard h → Passes f h ∧ (f.IsSystem → Unheard h) :=
    fun f h unheard => ⟨passes_of_unheard f h unheard, fun _ => unheard⟩
  induction pieces with
  | zero => exact .of_keeps leave (.raise _)
  | succ pieces ih =>
    refine (Carries.of_keeps leave (unheard_one rfl .ofExcept)).bind fun chunk => ?_
    split
    · exact .done _
    intro h unheard
    -- the hook gets control where the last call is a write that went well
    have written : (write writing chunk).Meets Hears onlyCleansUp
        (fun out h' => Unheard h' ∧ ∀ n, out = .ok n → h'.wrote = true) h := by
      obtain ⟨may, kept⟩ := unheard_call (.write writing chunk) h rfl unheard
      refine ⟨may, fun r h' step => meets_ofExcept.mpr ⟨kept r h' step, ?_⟩⟩
      rintro n rfl
      rw [step.2]
      rfl
    refine written.bind (fun n h' reached => ?_) fun f h' reached => leave f h' reached.1
    split
    · exact reached.1
    · exact (pause_hears_between reached.1 (reached.2 n rfl)).bind (fun _ => ih) fun _ _ => id

theorem stream_hears (c : Cloner) (reading writing : Int) (path : String) :
    (stream c reading writing path).Carries Hears onlyCleansUp Unheard Passes := by
  intro h unheard
  have leave : ∀ f h, Unheard h → Passes f h ∧ (f.IsSystem → Unheard h) :=
    fun f h unheard => ⟨passes_of_unheard f h unheard, fun _ => unheard⟩
  refine Meets.attempt
    (((copyPieces_hears reading writing c.chunkSize c.limits.pieces).bind fun copied => ?_) h unheard)
    (fun result h' kept => kept) (fun e h' failed => ?_) fun f h' _ failed => failed.1
  · cases copied with
    | none => exact .done _
    | some short => exact (Carries.of_keeps leave (unheard_log _ _ _)).bind fun _ => .done _
  · exact ((Carries.of_keeps passes_of_unheard (unheard_log _ _ _)).bind fun _ => .done _) h'
      (failed.2 ⟨e, rfl⟩)

theorem finishing_unheard (path : String) (mode : Int) :
    FinishCalls Hears onlyCleansUp Unheard path mode where
  note := unheard_log
  chown := fun _ _ => unheard_one rfl .ofExcept
  chmod := unheard_one rfl .ofExcept

theorem fillFile_hears (c : Cloner) (reading writing : Int) (path : String) (mode : Int) :
    (fillFile c reading writing path mode).Carries Hears onlyCleansUp Unheard Passes := by
  have filled : (ensuring
      (do
        let result ← stream c reading writing path
        let result ← finishOwner c path result
        finishMode path mode result)
      (closeQuietly writing "Error closing destination file" path)).Carries Hears onlyCleansUp
        Unheard Passes := by
    refine carries_ensuring ?_ (closeQuietly_hears _ _ _)
    exact (stream_hears c reading writing path).bind fun result =>
      .of_keeps passes_of_unheard (((finishing_unheard path mode).finishOwner c result).bind
        (finishing_unheard path mode).finishMode)
  refine (Carries.of_keeps passes_of_unheard (Keeps.attempt (unheard_one rfl .ofExcept))).bind
    fun cut => ?_
  cases cut with
  | ok _ => exact filled
  | error e => exact (Carries.of_keeps passes_of_unheard (unheard_log _ _ _)).bind fun _ => filled

theorem copyFile_hears (c : Cloner) (source path : String) (mode : Int) :
    (copyFile c source path mode).Carries Hears onlyCleansUp Unheard Passes := by
  have noted : ∀ level event details (result : StepResult),
      ((log level event details).bind fun _ => done result).Carries Hears onlyCleansUp Unheard
        Passes := fun _ _ _ _ =>
    (Carries.of_keeps passes_of_unheard (unheard_log _ _ _)).bind fun _ => .done _
  refine (Carries.of_keeps passes_of_unheard (Keeps.attempt (unheard_one rfl .ofExcept))).bind
    fun opened => ?_
  cases opened with
  | error e => exact noted _ _ _ _
  | ok reading =>
    refine carries_ensuring ?_ (closeQuietly_hears _ _ _)
    refine (Carries.of_keeps passes_of_unheard (Keeps.attempt (unheard_one rfl .ofExcept))).bind
      fun made => ?_
    cases made with
    | error e => exact noted _ _ _ _
    | ok writing => exact fillFile_hears c reading writing path mode

/-! ## Requests -/

/-- The parts of a request pass on what the hook raises. -/
theorem hearingParts : CarryingParts Hears onlyCleansUp Unheard Passes :=
  have others : ∀ (c : Call) h, c.isWork = true → c.isListing = false → c.isPause = false →
      Unheard h → onlyCleansUp c h ∧ ∀ r h', Hears c h r h' → Unheard h' :=
    fun c h _ _ => unheard_call c h
  { LookParts.of_calls fun c h light => unheard_call c h (c.isPause_of_isLight light) with
    leave := passes_of_unheard
    list := fun _ => unheard_one rfl .ofExcept
    pause := pause_hears
    directory := fun path uid gid mode => .of_keeps passes_of_unheard
      (DirectoryCalls.of_calls others path uid gid mode).ensureDirectory
    file := copyFile_hears }

theorem provision_hears (r : Request) (user : String) (chunkSize : Option Int) (limits : Limits) :
    (provision r user chunkSize limits).Carries (noting CleansUp Hearing.note) onlyCleansUp Unheard
      Passes := by
  have logged : ∀ level event details,
      (log level event details).Keeps (noting CleansUp Hearing.note) onlyCleansUp Unheard :=
    fun level event details h unheard => (unheard_log level event details h unheard).of_guarded
      fun _ _ _ _ _ step => ⟨step.1.1, step.2⟩
  have elevated : (elevated (establishHome r user chunkSize limits)).Carries
      (noting CleansUp Hearing.note) onlyCleansUp Unheard Passes := by
    intro h unheard
    have taken : (call .elevate ofExcept : Program Unit).Keeps Hears onlyCleansUp Unheard :=
      unheard_one rfl .ofExcept
    refine Meets.bind ((taken h unheard).of_guarded fun _ _ _ _ _ step => ⟨step.1.1, step.2⟩)
      (fun _ h₁ unheard => ?_) fun f h₁ => passes_of_unheard f h₁
    refine Meets.ensuring (((hearingParts.establishHome r user chunkSize limits) h₁
      unheard).of_guarded fun _ _ _ _ _ step => ⟨step.1.1, step.2⟩) fun out h₂ reached => ?_
    -- nothing is raised when the rights are given back
    refine ⟨fun _ => rfl, fun given h₃ step => ?_⟩
    have done : given = .ok () := step.1.2
    subst done
    have same : h₃.fault = h₂.fault := by
      rw [step.2, Hearing.note, fault?_other rfl, Option.or_none]
    cases out with
    | ok a => exact same.trans reached
    | error f => exact fun g heard => reached g (same ▸ heard)
  refine elevated.bind fun outcome => ?_
  cases outcome with
  | ready report => exact (Carries.of_keeps passes_of_unheard (logged _ _ _)).bind fun _ => .done _
  | _ => exact .done _

section

variable {world : Layer σ} {s : σ}

/-- On the way to a home, the run ends with what the hook raises. -/
theorem ensurePath_heeds (path user : String) (uid gid intermediateMode finalMode : Int)
    (clean : ∀ x ∈ (ensurePath path user uid gid intermediateMode finalMode).trace world s,
      Closes x.call x.reply) :
    Heeds ((ensurePath path user uid gid intermediateMode finalMode).run world s).1
      ((ensurePath path user uid gid intermediateMode finalMode).trace world s) :=
  Yields.run_of_trace clean (hearingParts.ensurePath path user uid gid intermediateMode finalMode).heeds

/-- The clone of a skeleton ends with what the hook raises, except between two pieces of a file. -/
theorem cloneTree_heeds (source dest : String) (uid gid : Int) (chunkSize : Option Int)
    (limits : Limits)
    (clean : ∀ x ∈ (cloneTree source dest uid gid chunkSize limits).trace world s,
      Closes x.call x.reply) :
    Heeds ((cloneTree source dest uid gid chunkSize limits).run world s).1
      ((cloneTree source dest uid gid chunkSize limits).trace world s) :=
  Yields.run_of_trace clean (hearingParts.cloneTree source dest uid gid chunkSize limits).heeds

/-- A request ends with what the hook raises, except between two pieces of a file. -/
theorem provision_heeds (r : Request) (user : String) (chunkSize : Option Int) (limits : Limits)
    (clean : ∀ x ∈ (provision r user chunkSize limits).trace world s, CleansUp x.call x.reply) :
    Heeds ((provision r user chunkSize limits).run world s).1
      ((provision r user chunkSize limits).trace world s) :=
  Yields.run_of_trace clean (provision_hears r user chunkSize limits).heeds

end

/-! ## The fault that is not heeded -/

/-- Whether a program ends with what the hook raises in it. -/
def EndsRaised (out : Except Fault α) (t : List Exchange) : Prop :=
  ∀ f, .raised f ∈ t → out = .error f

theorem endsRaised_nil (out : Except Fault α) : EndsRaised out [] :=
  fun _ mem => absurd mem List.not_mem_nil

theorem EndsRaised.cons {out : Except Fault α} {x : Exchange} {t : List Exchange}
    (other : ∀ f, Exchange.raised f ≠ x) (h : EndsRaised out t) : EndsRaised out (x :: t) :=
  fun f mem => h f (List.mem_of_ne_of_mem (other f) mem)

theorem copyPieces_endsRaised (reading writing size : Int) (pieces : Nat) :
    (copyPieces reading writing size pieces).Yields (fun _ _ => True) EndsRaised := by
  induction pieces with
  | zero => exact endsRaised_nil _
  | succ pieces ih =>
    intro read _
    cases read with
    | error f => exact .cons (fun _ bad => by cases bad) (endsRaised_nil _)
    | ok chunk =>
      change Yields _ (if _ then _ else _) _
      split
      · exact .cons (fun _ bad => by cases bad) (endsRaised_nil _)
      refine Yields.mono ?_ fun out t ended => EndsRaised.cons (fun _ bad => by cases bad) ended
      intro write _
      cases write with
      | error f => exact .cons (fun _ bad => by cases bad) (endsRaised_nil _)
      | ok written =>
        change Yields _ (if _ then _ else _) _
        split
        · exact .cons (fun _ bad => by cases bad) (endsRaised_nil _)
        refine Yields.mono ?_ fun out t ended => EndsRaised.cons (fun _ bad => by cases bad) ended
        intro paused _
        cases paused with
        | error f => exact fun g mem => by cases List.mem_singleton.mp mem; rfl
        | ok _ => exact ih.mono fun out t ended => .cons (fun _ bad => by cases bad) ended

/-- An error of the system that the hook raises after a piece of a file is taken for an error of
writing: the copy counts as failed, and nothing is raised. -/
theorem stream_mistakes (c : Cloner) (reading writing : Int) (path : String) :
    (stream c reading writing path).Yields (fun _ _ => True) fun out t =>
      ∀ e, .raised (.system e) ∈ t → out = .ok (.failure .copy path e.message) := by
  refine Yields.attempt (?_ : Yields _ _ EndsRaised) ?_ ?_ ?_
  · refine (copyPieces_endsRaised reading writing c.chunkSize c.limits.pieces).bind ?_ ?_
    · intro copied t ended
      cases copied with
      | none => exact fun f mem => by cases ended f (List.append_nil t ▸ mem)
      | some short =>
        intro _ _ f mem
        rcases List.mem_append.mp mem with mem | mem
        · cases ended f mem
        · cases List.mem_singleton.mp mem
    · exact fun f t ended g mem => by cases ended g mem; rfl
  · exact fun result t ended e mem => by cases ended _ (List.append_nil t ▸ mem)
  · intro e t ended _ _ e' mem
    rcases List.mem_append.mp mem with mem | mem
    · cases ended _ mem
      rfl
    · cases List.mem_singleton.mp mem
  · exact fun f t other ended e mem => by cases ended _ mem; exact absurd rfl (other e)

/-- The hook of a user who runs out of time as soon as a file is open. -/
def timeout (c : Call) (m : Machine) : Option Fault :=
  match c with
  | .pause => if m.descriptors.isEmpty then none else some (.system (.bare "out of time"))
  | _ => none

/-- A clone that goes on after an error of the system between two pieces of a file. -/
theorem cloneTree_unheeding :
    let work := cloneTree "/skel" "/home" 7 7 none { depth := 3, pieces := 3 }
    (∃ x ∈ work.trace (Machine.failing timeout) Machine.sample,
      x.fault? false = some (.system (.bare "out of time"))) ∧
        (work.run (Machine.failing timeout) Machine.sample).1 ≠
          .error (.system (.bare "out of time")) := by
  decide

end Program

end HomeProvision
