import HomeProvision.Proofs.Borrowed
import HomeProvision.Proofs.Disturbance
import HomeProvision.Proofs.Places
import HomeProvision.Proofs.Reported

/-!
# One window for all work

A request opens one window of elevated rights, does all its work inside and closes the window,
however the work ends (`provision_window`). The first part of the work is the way to the home. If it
fails, the skeleton plays no part: the run is the same for every other one. And whatever becomes of
the skeleton, the verdict on the request is that of the way.

Two programs are compared in one world (`Alike`), and two runs of one program by their traces
(`outcome_of_trace`).
-/

namespace HomeProvision

/-! ## Windows in traces -/

/-- Whether a call notes an event. -/
def Call.isNote : Call → Bool
  | .log _ => true
  | _ => false

/-- Whether a run has one window: it is opened at first, all work is done inside, then it is closed,
and after that only events are noted. If it cannot be opened, that is the end. -/
inductive OneWindow {α : Type} : Except Fault α → List Exchange → Prop
  | refused (f : Fault) : OneWindow (.error f) [⟨.elevate, .error f⟩]
  | opened (out : Except Fault α) {inside after : List Exchange} (given : Except Fault Unit)
      (work : ∀ x ∈ inside, x.call.isWork = true) (notes : ∀ x ∈ after, x.call.isNote = true) :
      OneWindow out (⟨.elevate, .ok ()⟩ :: inside ++ ⟨.relinquish, given⟩ :: after)

/-- What a result says of a request: whether it was carried out, and if not, what failed and why. -/
def ProvisionResult.verdict (result : ProvisionResult) :
    Bool × Option FailureKind × Option String :=
  (result.success, result.error, result.message)

/-- Whether a call has no path but one of some paths. -/
def Call.Within (paths : List String) (c : Call) : Prop :=
  ∀ path, c.path? = some path → path ∈ paths

namespace Program

variable {α β σ : Type} {world : Layer σ} {s : σ}

/-! ## Two programs in one world -/

/-- Whether two programs do the same in a world, from a state on. -/
structure Alike (world : Layer σ) (s : σ) (p p' : Program α) : Prop where
  run : p.run world s = p'.run world s
  trace : p.trace world s = p'.trace world s

/-- The trace of two programs, one after the other. -/
theorem trace_bind (p : Program α) (k : α → Program β) (s : σ) :
    (p.bind k).trace world s = p.trace world s ++
      match p.run world s with
      | (.ok a, s') => (k a).trace world s'
      | (.error _, _) => [] := by
  induction p generalizing s with
  | done a => rfl
  | raise f => rfl
  | call c next ih => exact congrArg (List.cons _) (ih _ _)

namespace Alike

theorem refl (p : Program α) (s : σ) : Alike world s p p :=
  ⟨rfl, rfl⟩

theorem call {c : Call} {next next' : c.Reply → Program α}
    (onward : Alike world (world.reply c s).2 (next (world.reply c s).1)
      (next' (world.reply c s).1)) :
    Alike world s (Program.call c next) (Program.call c next') :=
  ⟨onward.run, congrArg (List.cons _) onward.trace⟩

theorem bind {p p' : Program α} {k k' : α → Program β} (first : Alike world s p p')
    (onward : ∀ a s', p.run world s = (.ok a, s') → Alike world s' (k a) (k' a)) :
    Alike world s (p.bind k) (p'.bind k') := by
  obtain ⟨run, trace⟩ := first
  constructor
  · rw [run_bind, run_bind, ← run]
    cases ends : p.run world s with
    | mk out s' =>
      cases out with
      | ok a => exact (onward a s' ends).run
      | error f => rfl
  · rw [trace_bind, trace_bind, ← run, ← trace]
    cases ends : p.run world s with
    | mk out s' =>
      cases out with
      | ok a => exact congrArg _ (onward a s' ends).trace
      | error f => rfl

theorem outcome {p p' : Program α} (h : Alike world s p p') :
    Alike world s p.outcome p'.outcome :=
  ⟨by rw [run_outcome, run_outcome, h.run], by rw [trace_outcome, trace_outcome, h.trace]⟩

theorem elevated {body body' : Program α}
    (h : Alike world (world.reply .elevate s).2 body body') :
    Alike world s (Program.elevated body) (Program.elevated body') := by
  refine .call (bind (.refl _ _) fun _ s' opened => ?_)
  rw [run_ofExcept] at opened
  obtain rfl := (Prod.ext_iff.mp opened).2
  exact h.outcome.bind fun _ _ _ => .refl _ _

end Alike

/-- A program that is given the same replies ends in the same way, in whatever worlds. -/
theorem outcome_of_trace {σ' : Type} {world' : Layer σ'} {s' : σ'} {p : Program α}
    (same : p.trace world s = p.trace world' s') : (p.run world s).1 = (p.run world' s').1 := by
  induction p generalizing s s' with
  | done a => rfl
  | raise f => rfl
  | call c next ih =>
    obtain ⟨first, rest⟩ := List.cons.inj same
    have reply : (world.reply c s).1 = (world'.reply c s').1 := by
      injection first with _ reply
    rw [← reply] at rest
    have ends := ih _ rest
    change ((next (world.reply c s).1).run world (world.reply c s).2).1 =
      ((next (world'.reply c s').1).run world' (world'.reply c s').2).1
    rwa [← reply]

/-! ## The work of a request -/

/-- What a request does in its window is work. -/
theorem establishHome_works (r : Request) (user : String) (chunkSize : Option Int)
    (limits : Limits) :
    (establishHome r user chunkSize limits).Makes (fun _ _ => True) fun c => c.isWork = true :=
  (RequestParts.of_calls fun _ _ work _ => ⟨work, fun _ _ _ => trivial⟩).establishHome r user
    chunkSize limits

theorem conclude_notes (r : Request) (user : String) (outcome : ProvisionOutcome) :
    (conclude r user outcome).Makes (fun _ _ => True) fun c => c.isNote = true := by
  cases outcome with
  | ready report => exact .call rfl fun _ _ => .done _
  | skipped => exact .done _
  | failed kind message => exact .done _

/-- Work in a window, however it ends. -/
theorem elevated_oneWindow {body : Program α}
    (work : body.Makes (fun _ _ => True) fun c => c.isWork = true) :
    (elevated body).Yields (fun _ _ => True) fun out t =>
      (∃ f, out = .error f ∧ t = [⟨.elevate, .error f⟩]) ∨
        ∃ inside given, t = ⟨.elevate, .ok ()⟩ :: inside ++ [⟨.relinquish, given⟩] ∧
          ∀ x ∈ inside, x.call.isWork = true := by
  intro opening _
  cases opening with
  | error f => exact .inl ⟨f, rfl, rfl⟩
  | ok _ =>
    refine Yields.ensuring (Yields.of_guard work) fun out inside made given _ => ?_
    cases given with
    | ok _ => exact .inr ⟨inside, .ok (), rfl, made⟩
    | error f => exact .inr ⟨inside, .error f, rfl, made⟩

theorem provision_oneWindow (r : Request) (user : String) (chunkSize : Option Int)
    (limits : Limits) :
    (provision r user chunkSize limits).Yields (fun _ _ => True) OneWindow := by
  refine (elevated_oneWindow (establishHome_works r user chunkSize limits)).bind
    (fun outcome t either => ?_) fun f t either => ?_
  · rcases either with ⟨f, bad, -⟩ | ⟨inside, given, rfl, work⟩
    · cases bad
    · refine Yields.mono (Yields.of_guard (conclude_notes r user outcome)) fun out after notes => ?_
      rw [List.append_assoc]
      exact .opened out given work notes
  · rcases either with ⟨f, same, rfl⟩ | ⟨inside, given, rfl, work⟩
    · cases same
      exact .refused f
    · exact .opened _ given work fun _ mem => absurd mem List.not_mem_nil

/-- A window makes the calls that open and close it, and those of the work inside. -/
theorem elevated_makes {body : Program α} {good : Call → Prop} (opens : good .elevate)
    (closes : good .relinquish) (work : body.Makes (fun _ _ => True) good) :
    (elevated body).Makes (fun _ _ => True) good :=
  Makes.bind (.call opens fun _ _ => .ofExcept _) fun _ =>
    Keeps.ensuring work (Makes.call closes fun _ _ => .ofExcept _)

/-! ## The way to a home -/

theorem within_none {paths : List String} {c : Call} (none : c.path? = none) : c.Within paths := by
  intro p same
  rw [none] at same
  cases same

/-- The way to a home concerns the home and the directories above it. -/
theorem ensurePath_within (path user : String) (uid gid intermediateMode finalMode : Int) :
    (ensurePath path user uid gid intermediateMode finalMode).Makes (fun _ _ => True)
      (Call.Within (path :: Path.ancestors path)) := by
  have way : WayParts (anyWith fun _ _ => True)
      (fun c _ => c.Within (path :: Path.ancestors path)) (fun _ => True) (fun _ _ => True)
      (· ∈ path :: Path.ancestors path) :=
    .of_calls fun c _ _ covered _ => ⟨covered, fun _ _ _ => trivial⟩
  exact (way.ensurePath List.mem_cons_self (fun _ mem => List.mem_cons_of_mem _ mem) user uid gid
    intermediateMode finalMode).keeps

/-! ## The part of the skeleton -/

section

variable {r : Request} {user : String} {chunkSize : Option Int} {limits : Limits}

/-- A request without a skeleton concerns the home and the directories above it. -/
theorem provision_within (bare : r.skeleton = none) :
    (provision r user chunkSize limits).Makes (fun _ _ => True)
      (Call.Within (r.target :: Path.ancestors r.target)) := by
  have works : (establishHome r user chunkSize limits).Makes (fun _ _ => True)
      (Call.Within (r.target :: Path.ancestors r.target)) := by
    refine (ensurePath_within _ _ _ _ _ _).bind fun step => ?_
    rw [fillHome_eq_none fun source own => by rw [bare] at own; cases own]
    split
    · exact .done _
    · exact Makes.bind (.call (within_none rfl) fun _ _ => .done _) fun _ => .done _
  refine (elevated_makes (within_none rfl) (within_none rfl) works).bind fun outcome =>
    (conclude_notes r user outcome).mono fun c notes => ?_
  cases c <;> first | exact within_none rfl | cases notes

/-- Where the way to the home fails, the rest of the work is the same for every skeleton. -/
theorem establishHome_alike
    (fails : ∀ step, ((wayToHome r user).run world s).1 = .ok step → step.success = false)
    (skeleton : Option String) (chunkSize' : Option Int) (limits' : Limits) :
    Alike world s (establishHome { r with skeleton } user chunkSize' limits')
      (establishHome r user chunkSize limits) := by
  refine Alike.bind (.refl _ s) fun step s' ends => ?_
  have bad : ¬ step.success = true := by simp [fails step (congrArg Prod.fst ends)]
  rw [if_neg bad, if_neg bad]
  exact .refl _ _

theorem provision_alike
    (fails : ∀ step, ((wayToHome r user).run world (world.reply .elevate s).2).1 = .ok step →
      step.success = false)
    (skeleton : Option String) (chunkSize' : Option Int) (limits' : Limits) :
    Alike world s (provision { r with skeleton } user chunkSize' limits')
      (provision r user chunkSize limits) :=
  (establishHome_alike fails skeleton chunkSize' limits').elevated.bind fun _ _ _ => .refl _ _

/-- What comes out of a window is what the work in it has come to. -/
theorem elevated_run_eq_ok {body : Program α} {a : α} {s' : σ}
    (ends : (elevated body).run world s = (.ok a, s')) :
    ∃ s₁, body.run world (world.reply .elevate s).2 = (.ok a, s₁) := by
  obtain ⟨_, s₁, opened, within, -⟩ := bind_run_eq_ok (p := call .elevate ofExcept) ends
  change (ofExcept (world.reply .elevate s).1).run world _ = _ at opened
  rw [run_ofExcept] at opened
  obtain rfl := (Prod.ext_iff.mp opened).2
  obtain ⟨out, s₂, worked, after, -⟩ := bind_run_eq_ok (p := body.outcome) within
  obtain ⟨_, s₃, -, given, -⟩ := bind_run_eq_ok (p := call .relinquish ofExcept) after
  rw [run_outcome] at worked
  rw [run_ofExcept] at given
  obtain rfl := (Prod.ext_iff.mp given).1
  exact ⟨(body.run world (world.reply .elevate s).2).2,
    Prod.ext (Except.ok.inj (Prod.ext_iff.mp worked).1) rfl⟩

/-- The verdict on a request is that on the way to the home. -/
theorem provision_verdict {result : ProvisionResult}
    (ends : ((provision r user chunkSize limits).run world s).1 = .ok result) :
    ∃ step, ((wayToHome r user).run world (world.reply .elevate s).2).1 = .ok step ∧
      result.verdict =
        (step.success, if step.success then none else some .path,
          if step.success then none else step.message) := by
  obtain ⟨outcome, s₁, windowed, ends, -⟩ := bind_run_eq_ok
    (p := elevated (establishHome r user chunkSize limits)) (k := conclude r user)
    (Prod.ext ends rfl)
  obtain ⟨_, concluded, -⟩ := conclude_run world r user s₁ outcome
  rw [concluded] at ends
  cases ends
  obtain ⟨s₂, worked⟩ := elevated_run_eq_ok windowed
  obtain ⟨step, s₃, _, way, -, either⟩ := establishHome_run worked
  refine ⟨step, congrArg Prod.fst way, ?_⟩
  rcases either with ⟨bad, rfl, -⟩ | ⟨good, report, _, rfl, -⟩
  · rw [bad]
    rfl
  · rw [good]
    rfl

end

/-- All work is done in one window, however it ends; in particular nothing is done if the window
cannot be opened. Unless the way to the home succeeds, every call with a path concerns the home or a
directory above it, and the run is the same for every other skeleton. The verdict of a result is that
of any other run which went the same way to the home, whatever the skeleton is and whatever becomes
of it. Where calls fail only with errors of the system, and the mask, the hook and the window not at
all, nothing but the limits of the walk can keep the result from coming. -/
theorem provision_window {σ : Type} (world : Layer σ) (r : Request) (user : String)
    (chunkSize : Option Int) (limits : Limits) (s : σ) :
    OneWindow ((provision r user chunkSize limits).run world s).1
      ((provision r user chunkSize limits).trace world s) ∧
    ((∀ step, ((wayToHome r user).run world (world.reply .elevate s).2).1 = .ok step →
        step.success = false) →
      (∀ x ∈ (provision r user chunkSize limits).trace world s, ∀ path,
        x.call.path? = some path → path = r.target ∨ path ∈ Path.ancestors r.target) ∧
      ∀ skeleton chunkSize' limits',
        (provision { r with skeleton } user chunkSize' limits').run world s =
          (provision r user chunkSize limits).run world s ∧
        (provision { r with skeleton } user chunkSize' limits').trace world s =
          (provision r user chunkSize limits).trace world s) ∧
    (∀ result, ((provision r user chunkSize limits).run world s).1 = .ok result →
      ∀ {σ' : Type} (world' : Layer σ') (skeleton : Option String) (chunkSize' : Option Int)
        (limits' : Limits) (s' : σ') (result' : ProvisionResult),
        (wayToHome r user).trace world' (world'.reply .elevate s').2 =
          (wayToHome r user).trace world (world.reply .elevate s).2 →
        ((provision { r with skeleton } user chunkSize' limits').run world' s').1 = .ok result' →
        result'.success = result.success ∧ result'.error = result.error ∧
          result'.message = result.message) ∧
    ((∀ x ∈ (provision r user chunkSize limits).trace world s, Orderly x.call x.reply) →
      ∀ f, ((provision r user chunkSize limits).run world s).1 = .error f → f = .limit) := by
  refine ⟨(provision_oneWindow r user chunkSize limits).run fun _ _ => trivial, fun fails => ?_,
    fun result ends _ world' skeleton chunkSize' limits' s' result' same ends' => ?_,
    fun fair f failed => ((provision_handles r user chunkSize limits).run_of_trace fair).2 f failed⟩
  · have alike : ∀ skeleton chunkSize' limits',
        Alike world s (provision { r with skeleton } user chunkSize' limits')
          (provision r user chunkSize limits) :=
      provision_alike fails
    refine ⟨fun x mem path own => ?_, fun skeleton chunkSize' limits' =>
      ⟨(alike skeleton chunkSize' limits').run, (alike skeleton chunkSize' limits').trace⟩⟩
    -- the run is that of the request without a skeleton
    rw [← (alike none chunkSize limits).trace] at mem
    have within : (provision { r with skeleton := none } user chunkSize limits).Yields
        (fun _ _ => True) fun _ t => ∀ x ∈ t, x.call.Within (r.target :: Path.ancestors r.target) :=
      Yields.of_guard (provision_within (r := { r with skeleton := none }) rfl)
    exact List.mem_cons.mp (within.run (fun _ _ => trivial) x mem path own)
  · obtain ⟨step, way, verdict⟩ := provision_verdict ends
    obtain ⟨step', way', verdict'⟩ := provision_verdict ends'
    have steps : step' = step := by
      have same : ((wayToHome r user).run world' (world'.reply .elevate s').2).1 = .ok step := by
        rw [outcome_of_trace same, way]
      exact Except.ok.inj (way'.symm.trans same)
    have verdicts : result'.verdict = result.verdict := by rw [verdict, verdict', steps]
    obtain ⟨success, rest⟩ := Prod.ext_iff.mp verdicts
    exact ⟨success, Prod.ext_iff.mp rest⟩

/-- On a machine that makes no directory the home is not made, and the skeleton plays no part. On any
other the home is made, also for a skeleton that is not there. -/
theorem provision_window_sample :
    let unmade := Machine.refusing (fun | .mkdir _ _ => true | _ => false)
      (Machine.refused "/home/u" .notPermitted)
    let limits : Limits := { depth := 3, pieces := 3 }
    let work skeleton := provision { sampleRequest with skeleton } "u" none limits
    (work none).trace unmade Machine.sample = (work (some "/skel")).trace unmade Machine.sample ∧
    ∃ result result', ((work (some "/skel")).run Machine.layer Machine.sample).1 = .ok result ∧
      ((work (some "/none")).run Machine.layer Machine.sample).1 = .ok result' ∧
      result' ≠ result ∧ result'.success = result.success ∧ result'.error = result.error ∧
        result'.message = result.message := by
  intro unmade limits work
  have way : (wayToHome sampleRequest "u").run unmade (unmade.reply .elevate Machine.sample).2 =
      (.ok (.failure .path "/home/u" "home directory for u was not created"), Machine.sample) := by
    decide
  have blind := ((provision_window unmade sampleRequest "u" none limits
    Machine.sample).2.1 fun step ends => by rw [way] at ends; cases ends; rfl).2 none none limits
  have whole : ((work (some "/skel")).run Machine.layer Machine.sample).1 = .ok
      ⟨"/home/u", .ready (some
        { outcome := .ok (some "/skel"), copied := ["/home/u/d", "/home/u/f", "/home/u/l"] })⟩ := by
    decide
  have short : ((work (some "/none")).run Machine.layer Machine.sample).1 = .ok
      ⟨"/home/u", .ready (some
        { outcome := .failure .openFile "/none" (Machine.refused "/none" .noEntry).message })⟩ := by
    decide
  refine ⟨blind.2, _, _, whole, short, by decide, ?_⟩
  exact (provision_window Machine.layer sampleRequest "u" none limits Machine.sample).2.2.1 _ whole
    Machine.layer (some "/none") none limits Machine.sample _ rfl short

end Program

end HomeProvision
