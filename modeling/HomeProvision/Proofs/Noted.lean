import HomeProvision.Proofs.Accounted

/-!
# Every failure is noted

Every failure in the report of a clone has an event of its own in the log, on the same path, and the
events come in the order of the failures (`cloneTree_notes`). Such an event is a warning, unless an
entry could not be looked at or a file could not be opened: then it may be for debugging only.

`Voices seen failures t` says this of the exchanges `t` that come after `seen`. A part of the walk
adds failures to those before it and notes each of them (`Program.Voicing`). Parts that follow each
other note their failures one after the other (`Voicing.bind`), so the failures of a directory below
are noted where the report takes them over.
-/

namespace HomeProvision

/-! ## Events that tell of failures -/

/-- The path that an event is about. -/
def LogEvent.path? (event : LogEvent) : Option String :=
  match event.details.lookup "path" with
  | some (.text path) => some path
  | _ => none

/-- An event that was noted. -/
abbrev Exchange.noted (event : LogEvent) : Exchange :=
  ⟨.log event, ()⟩

/-- Whether a path is that of an entry in a directory that was listed. -/
def IsEntry (seen : List Exchange) (path : String) : Prop :=
  ∃ directory names name, (⟨.list directory, .ok names⟩ : Exchange) ∈ seen ∧ name ∈ names ∧
    path = Path.join directory name

theorem IsEntry.append {seen : List Exchange} {path : String} (h : IsEntry seen path)
    (t : List Exchange) : IsEntry (seen ++ t) path := by
  obtain ⟨directory, names, name, listed, mem, same⟩ := h
  exact ⟨directory, names, name, List.mem_append_left t listed, mem, same⟩

/-- Whether a failure is that of a call which may be noted for debugging only. -/
inductive Slight (seen : List Exchange) : Exchange → StepResult → Prop
  /-- An entry could not be looked at. -/
  | unseen {path : String} (e : SystemError) (entry : IsEntry seen path) :
      Slight seen ⟨.lstat path, .error (.system e)⟩ (.failure .stat path e.message)
  /-- A source file could not be opened. -/
  | unread (path : String) (e : SystemError) :
      Slight seen ⟨.openRead path, .error (.system e)⟩ (.failure .openFile path e.message)
  /-- A destination file could not be created. -/
  | uncreated (path : String) (mode : Int) (e : SystemError) :
      Slight seen ⟨.openExclusive path mode, .error (.system e)⟩ (.failure .openFile path e.message)

/-- Whether an event, which comes after some exchanges, tells of a failure. -/
structure TellsOf (seen : List Exchange) (event : LogEvent) (failure : StepResult) : Prop where
  path : ∃ path, event.path? = some path ∧ failure.path = some path
  level : event.level = .warning ∨
    event.level = .debug ∧ ∃ before x, seen = before ++ [x] ∧ Slight before x failure

/-- Whether every failure has a place in a trace where an event tells of it, each its own and in
their order. -/
def Noted (failures : List StepResult) (t : List Exchange) : Prop :=
  ∃ place : Fin failures.length → Nat, (∀ i j, i < j → place i < place j) ∧
    ∀ i, ∃ event, t[place i]? = some (.noted event) ∧ TellsOf (t.take (place i)) event failures[i]

/-- Whether every failure is told of in a trace that comes after some exchanges, in their order. -/
inductive Voices : (seen : List Exchange) → List StepResult → List Exchange → Prop
  | nil {seen : List Exchange} : Voices seen [] []
  | silent {seen t : List Exchange} {failures : List StepResult} (x : Exchange)
      (rest : Voices (seen ++ [x]) failures t) : Voices seen failures (x :: t)
  | voiced {seen t : List Exchange} {event : LogEvent} {failure : StepResult}
      {failures : List StepResult} (tells : TellsOf seen event failure)
      (rest : Voices (seen ++ [.noted event]) failures t) :
      Voices seen (failure :: failures) (.noted event :: t)

namespace Voices

variable {seen t t' : List Exchange} {failures failures' : List StepResult}

/-- Where nothing failed, nothing has to be said. -/
theorem silence (seen t : List Exchange) : Voices seen [] t := by
  induction t generalizing seen with
  | nil => exact .nil
  | cons x rest ih => exact .silent x (ih _)

theorem append (first : Voices seen failures t) (second : Voices (seen ++ t) failures' t') :
    Voices seen (failures ++ failures') (t ++ t') := by
  induction first with
  | nil => simpa using second
  | silent x rest ih => exact .silent x (ih (List.append_assoc _ _ _ ▸ second))
  | voiced tells rest ih => exact .voiced tells (ih (List.append_assoc _ _ _ ▸ second))

/-- The places of the events, counted from the first exchange that was seen. -/
theorem places (h : Voices seen failures t) :
    ∃ place : Fin failures.length → Nat, (∀ i j, i < j → place i < place j) ∧
      (∀ i, seen.length ≤ place i) ∧ ∀ i, ∃ event, (seen ++ t)[place i]? = some (.noted event) ∧
        TellsOf ((seen ++ t).take (place i)) event failures[i] := by
  induction h with
  | nil => exact ⟨fun i => i.elim0, fun i => i.elim0, fun i => i.elim0, fun i => i.elim0⟩
  | @silent seen t failures x rest ih =>
    obtain ⟨place, ordered, later, told⟩ := ih
    refine ⟨place, ordered, fun i => Nat.le_of_succ_le ?_, ?_⟩
    · simpa using later i
    · simpa only [List.append_assoc, List.singleton_append] using told
  | @voiced seen t event failure failures tells rest ih =>
    obtain ⟨place, ordered, later, told⟩ := ih
    rw [List.length_append, List.length_singleton] at later
    simp only [List.append_assoc, List.singleton_append] at told
    refine ⟨Fin.cases seen.length place, fun i j before => ?_, fun i => ?_, fun i => ?_⟩
    · cases i using Fin.cases with
      | zero =>
        cases j using Fin.cases with
        | zero => exact absurd before (Nat.lt_irrefl _)
        | succ j => exact later j
      | succ i =>
        cases j using Fin.cases with
        | zero => exact absurd before (Nat.not_lt_zero _)
        | succ j => exact ordered i j (Fin.succ_lt_succ_iff.mp before)
    · cases i using Fin.cases with
      | zero => exact Nat.le_refl _
      | succ i => exact Nat.le_of_succ_le (later i)
    · cases i using Fin.cases with
      | zero => exact ⟨event, by simp, by simpa using tells⟩
      | succ i => exact told i

theorem noted (h : Voices [] failures t) : Noted failures t := by
  obtain ⟨place, ordered, -, told⟩ := h.places
  exact ⟨place, ordered, told⟩

end Voices

/-- A warning about the path of a failure tells of it. -/
theorem tellsOf_warning {seen : List Exchange} {event : LogEvent} {kind : FailureKind}
    {path message : String} (warns : event.level = .warning) (about : event.path? = some path) :
    TellsOf seen event (.failure kind path message) :=
  ⟨⟨path, about, rfl⟩, .inl warns⟩

/-- An event about the path of a failure tells of it right after the call that failed. -/
theorem tellsOf_slight {seen : List Exchange} {event : LogEvent} {x : Exchange} {kind : FailureKind}
    {path message : String} (debugs : event.level = .debug) (about : event.path? = some path)
    (slight : Slight seen x (.failure kind path message)) :
    TellsOf (seen ++ [x]) event (.failure kind path message) :=
  ⟨⟨path, about, rfl⟩, .inr ⟨debugs, seen, x, rfl, slight⟩⟩

theorem path?_cons (level : Level) (event path : String) (more : List (String × Detail)) :
    LogEvent.path? ⟨level, event, ("path", .text path) :: more⟩ = some path := by
  simp [LogEvent.path?]

/-- The failure that a result is, if it is one. -/
def StepResult.asFailure (result : StepResult) : List StepResult :=
  if result.success then [] else [result]

/-- The failures of a report, its own after those of its entries. -/
def CloneReport.allFailures (r : CloneReport) : List StepResult :=
  r.failures ++ r.ownFailure

namespace CloneReport

variable {r : CloneReport}

theorem failures_record (result : StepResult) (path : String) :
    (r.record result path).failures = r.failures ++ result.asFailure := by
  unfold record StepResult.asFailure
  split
  · exact (List.append_nil _).symm
  · rfl

theorem failures_absorb (other : CloneReport) :
    (r.absorb other).failures = r.failures ++ other.allFailures :=
  List.append_assoc _ _ _

theorem allFailures_opened {path : Option String} (outcome : r.outcome = .ok path) :
    r.allFailures = r.failures := by
  unfold allFailures ownFailure success
  rw [outcome]
  exact List.append_nil _

end CloneReport

/-! ## Programs that note their failures -/

namespace Program

variable {α β σ : Type}

/-- Whether a program adds failures to those before it, and notes each of them. `held` are the
failures that a result stands for. -/
def Voicing (seen : List Exchange) (held : α → List StepResult) (before : List StepResult)
    (p : Program α) : Prop :=
  p.Yields (fun _ _ => True) fun out t =>
    ∀ a, out = .ok a → ∃ more, held a = before ++ more ∧ Voices seen more t

variable {seen : List Exchange} {held : α → List StepResult} {held' : β → List StepResult}
  {before : List StepResult}

namespace Voicing

theorem done {a : α} (same : held a = before) : (Program.done a).Voicing seen held before :=
  fun b ends => ⟨[], by cases ends; rw [same, List.append_nil], .nil⟩

theorem raise (f : Fault) : (Program.raise f : Program α).Voicing seen held before :=
  fun _ bad => by cases bad

/-- What comes after exchanges that told of some failures. -/
theorem behind {q : Program β} {t : List Exchange} {more : List StepResult}
    (voices : Voices seen more t) (h : q.Voicing (seen ++ t) held' (before ++ more)) :
    q.Yields (fun _ _ => True) fun out t' =>
      ∀ b, out = .ok b → ∃ more', held' b = before ++ more' ∧ Voices seen more' (t ++ t') := by
  refine Yields.mono h fun out t' reached b ends => ?_
  obtain ⟨more', same, voices'⟩ := reached b ends
  exact ⟨more ++ more', by rw [same, List.append_assoc], voices.append voices'⟩

theorem behind_silence {q : Program β} {t : List Exchange}
    (h : q.Voicing (seen ++ t) held' before) :
    q.Yields (fun _ _ => True) fun out t' =>
      ∀ b, out = .ok b → ∃ more, held' b = before ++ more ∧ Voices seen more (t ++ t') :=
  behind (Voices.silence seen t) ((List.append_nil before).symm ▸ h)

theorem bind {p : Program α} {k : α → Program β} (first : p.Voicing seen held before)
    (onward : ∀ a t, (k a).Voicing (seen ++ t) held' (held a)) :
    (p.bind k).Voicing seen held' before := by
  refine Yields.bind first (fun a t reached => ?_) fun f t _ b bad => by cases bad
  obtain ⟨more, same, voices⟩ := reached a rfl
  exact behind voices (same ▸ onward a t)

/-- A program whose result does not matter need not note anything. -/
theorem quiet (p : Program α) : p.Voicing seen (fun _ => before) before := by
  induction p generalizing seen with
  | done a => exact .done rfl
  | raise f => exact .raise f
  | call c next ih =>
    intro r _
    have later : (next r).Voicing (seen ++ [⟨c, r⟩]) (fun _ => before) before := ih r
    refine Yields.mono later fun out t reached a ends => ?_
    obtain ⟨more, same, voices⟩ := reached a ends
    exact ⟨more, same, .silent _ voices⟩

theorem after {p : Program α} {k : α → Program β}
    (onward : ∀ a t, (k a).Voicing (seen ++ t) held' before) :
    (p.bind k).Voicing seen held' before :=
  (quiet p).bind onward

/-- An attempt, and then a way to go on from its result and one from an error, with which nothing
of the attempt is kept. -/
theorem attempt {p : Program α} {k : Except SystemError α → Program β}
    (first : p.Voicing seen held before)
    (onward : ∀ a t, (k (.ok a)).Voicing (seen ++ t) held' (held a))
    (caught : ∀ e t, (k (.error e)).Voicing (seen ++ t) held' before) :
    ((Program.attempt p).bind k).Voicing seen held' before := by
  refine Yields.attempt first (fun a t reached => ?_) (fun e t _ => behind_silence (caught e t))
    fun f t _ _ b bad => by cases bad
  obtain ⟨more, same, voices⟩ := reached a rfl
  exact behind voices (same ▸ onward a t)

/-- An attempt that adds nothing, and of which more is known than that. -/
theorem tried {p : Program α} {k : Except SystemError α → Program β}
    {mid : Except Fault α → List Exchange → Prop} (first : p.Yields (fun _ _ => True) mid)
    (onward : ∀ a t, mid (.ok a) t → (k (.ok a)).Voicing (seen ++ t) held' before)
    (caught : ∀ e t, mid (.error (.system e)) t →
      (k (.error e)).Voicing (seen ++ t) held' before) :
    ((Program.attempt p).bind k).Voicing seen held' before :=
  Yields.attempt first (fun a t known => behind_silence (onward a t known))
    (fun e t known => behind_silence (caught e t known)) fun f t _ _ b bad => by cases bad

/-- An event that tells of one failure more. -/
theorem tell {level : Level} {event : String} {details : List (String × Detail)}
    {failure : StepResult} {k : Unit → Program β}
    (tells : TellsOf seen ⟨level, event, details⟩ failure)
    (onward : (k ()).Voicing (seen ++ [.noted ⟨level, event, details⟩]) held'
      (before ++ [failure])) :
    ((log level event details).bind k).Voicing seen held' before := by
  refine fun _ _ => Yields.mono onward fun out t reached b ends => ?_
  obtain ⟨more, same, voices⟩ := reached b ends
  exact ⟨failure :: more, by rw [same, List.append_assoc]; rfl, .voiced tells voices⟩

theorem shift {p : Program α} (h : p.Voicing seen held []) :
    p.Voicing seen (fun a => before ++ held a) before := by
  refine Yields.mono h fun out t reached a ends => ?_
  obtain ⟨more, same, voices⟩ := reached a ends
  exact ⟨more, congrArg (before ++ ·) same, voices⟩

/-- A clean-up adds nothing. -/
theorem ensuring {body : Program α} {cleanup : Program Unit} (h : body.Voicing seen held before) :
    (Program.ensuring body cleanup).Voicing seen held before := by
  refine Yields.ensuring h fun r t reached => ?_
  have cleaned : cleanup.Voicing [] (fun _ => []) [] := quiet cleanup
  refine Yields.mono cleaned fun out t' _ => ?_
  cases out with
  | error f => exact fun _ bad => by cases bad
  | ok _ =>
    intro a ends
    obtain ⟨more, same, voices⟩ := reached a ends
    refine ⟨more, same, ?_⟩
    have := voices.append (Voices.silence (seen ++ t) t')
    rwa [List.append_nil] at this

end Voicing

/-! ## Directories -/

/-- The failure that an early result is, if there is one. -/
def earlyFailure (made : Option StepResult) : List StepResult :=
  made.elim [] StepResult.asFailure

theorem createDirectory_voices (path : String) (mode : Int) :
    (createDirectory path mode).Voicing seen earlyFailure [] := by
  refine .after fun made t => ?_
  cases made with
  | ok _ => exact .done rfl
  | error e =>
    dsimp only
    split
    · exact .after fun _ _ => .done rfl
    · exact .tell (tellsOf_warning rfl (path?_cons ..)) (.done rfl)

theorem makeDirectory_voices (path : String) (uid gid mode : Int) :
    (makeDirectory path uid gid mode).Voicing seen StepResult.asFailure [] := by
  have created : (withClearMask (createDirectory path mode)).Voicing seen earlyFailure [] :=
    .after fun mask t => .ensuring (createDirectory_voices path mode)
  refine created.bind fun made t => ?_
  cases made with
  | some result => exact .done rfl
  | none =>
    refine .after fun owned t => ?_
    cases owned with
    | ok _ => exact .after fun _ _ => .done rfl
    | error e => exact .after fun _ _ => .after fun _ _ => .done rfl

theorem ensureDirectory_voices (path : String) (uid gid mode : Int) :
    (ensureDirectory path uid gid mode).Voicing seen StepResult.asFailure [] := by
  refine .after fun looked t => ?_
  cases looked with
  | ok _ => exact .after fun _ _ => .done rfl
  | error e =>
    dsimp only
    split
    · exact makeDirectory_voices path uid gid mode
    · exact .tell (tellsOf_warning rfl (path?_cons ..)) (.done rfl)

/-! ## Files and links -/

theorem stream_voices (c : Cloner) (source dest : Int) (path : String) :
    (stream c source dest path).Voicing seen StepResult.asFailure [] := by
  refine Voicing.attempt (?_ : Voicing seen StepResult.asFailure [] _) (fun _ _ => .done rfl)
    fun e t => .tell (tellsOf_warning rfl (path?_cons ..)) (.done rfl)
  refine .after fun copied t => ?_
  cases copied with
  | none => exact .done rfl
  | some short => exact .tell (tellsOf_warning rfl (path?_cons ..)) (.done rfl)

/-- A failure of a file is noted in any case, and added where it is the first one. -/
theorem firstFailure_voices {event path : String} {details : List (String × Detail)}
    (about : LogEvent.path? ⟨.warning, event, details⟩ = some path) (result : StepResult)
    (kind : FailureKind) (e : SystemError) :
    ((log .warning event details).bind fun _ => done (firstFailure result kind path e)).Voicing seen
      StepResult.asFailure result.asFailure := by
  unfold firstFailure
  split
  · next good =>
    have tells : TellsOf seen ⟨.warning, event, details⟩ (.failure kind path e.message) :=
      tellsOf_warning rfl about
    refine .tell tells (.done ?_)
    unfold StepResult.asFailure
    rw [if_pos good]
    rfl
  · exact .after fun _ _ => .done rfl

theorem finishOwner_voices (c : Cloner) (path : String) (result : StepResult) :
    (finishOwner c path result).Voicing seen StepResult.asFailure result.asFailure := by
  refine .after fun owned t => ?_
  cases owned with
  | ok _ => exact .done rfl
  | error e => exact firstFailure_voices (path?_cons ..) result .chown e

theorem finishMode_voices (path : String) (mode : Int) (result : StepResult) :
    (finishMode path mode result).Voicing seen StepResult.asFailure result.asFailure := by
  refine .after fun moded t => ?_
  cases moded with
  | ok _ => exact .done rfl
  | error e => exact firstFailure_voices (path?_cons ..) result .chmod e

theorem fillFile_voices (c : Cloner) (source dest : Int) (path : String) (mode : Int) :
    (fillFile c source dest path mode).Voicing seen StepResult.asFailure [] := by
  have filled : ∀ seen, (ensuring
      (do
        let result ← stream c source dest path
        let result ← finishOwner c path result
        finishMode path mode result)
      (closeQuietly dest "Error closing destination file" path)).Voicing seen
        StepResult.asFailure [] := fun seen =>
    .ensuring ((stream_voices c source dest path).bind fun result _ =>
      (finishOwner_voices c path result).bind fun result _ => finishMode_voices path mode result)
  refine .after fun cut t => ?_
  cases cut with
  | ok _ => exact filled _
  | error e => exact .after fun _ _ => filled _

/-- The call that opens or creates a file is the last one when its error is dealt with. -/
theorem openRead_ends (path : String) :
    (openRead path).Yields (fun _ _ => True) fun out t => t = [⟨.openRead path, out⟩] :=
  fun _ _ => yields_ofExcept.mpr rfl

theorem openExclusive_ends (path : String) :
    (openExclusive path).Yields (fun _ _ => True) fun out t =>
      t = [⟨.openExclusive path freshFileMode, out⟩] :=
  fun _ _ => yields_ofExcept.mpr rfl

theorem copyFile_voices (c : Cloner) (source path : String) (mode : Int) :
    (copyFile c source path mode).Voicing seen StepResult.asFailure [] := by
  refine .tried (openRead_ends source) (fun reading t _ => .ensuring ?_) fun e t last => ?_
  · refine .tried (openExclusive_ends path) (fun writing t _ => fillFile_voices c _ _ path mode)
      fun e t last => ?_
    subst last
    exact .tell (tellsOf_slight rfl (path?_cons ..) (.uncreated path _ e)) (.done rfl)
  · subst last
    exact .tell (tellsOf_slight rfl (path?_cons ..) (.unread source e)) (.done rfl)

theorem placeLink_voices (c : Cloner) (target path : String) :
    (placeLink c target path).Voicing seen StepResult.asFailure [] := by
  refine .after fun placed t => ?_
  cases placed with
  | error e =>
    have about : LogEvent.path? ⟨.warning, "Error creating link", [("target", .text target),
        ("path", .text path), ("error", .text e.message)]⟩ = some path :=
      rfl
    exact .tell (tellsOf_warning rfl about) (.done rfl)
  | ok _ =>
    refine .after fun owned t => ?_
    cases owned with
    | ok _ => exact .done rfl
    | error e => exact .after fun _ _ => .done rfl

theorem copySymlink_voices (c : Cloner) (sourceTop source destTop path : String)
    (target : Option String) :
    (copySymlink c sourceTop source destTop path target).Voicing seen StepResult.asFailure [] := by
  cases target with
  | some target => exact placeLink_voices c _ path
  | none =>
    refine .after fun target t => ?_
    cases target with
    | error e => exact .tell (tellsOf_warning rfl (path?_cons ..)) (.done rfl)
    | ok target => exact placeLink_voices c _ path

/-! ## Entries -/

/-- The failure of an entry whose place is taken by something else. -/
def plantedFailure (dest : String) (planted : Bool) : List StepResult :=
  if planted then [.failure .create dest "destination exists and is not a directory"] else []

theorem isPlantedNonDirectory_voices (dest : String) :
    (isPlantedNonDirectory dest).Voicing seen (plantedFailure dest) [] := by
  refine .after fun looked t => ?_
  cases looked with
  | error e => exact .done rfl
  | ok status =>
    refine .after fun mode t => ?_
    split
    · exact .done rfl
    · exact .tell (tellsOf_warning rfl (path?_cons ..)) (.done rfl)

/-- An entry that cannot be described could not be looked at, and nothing else was tried. -/
theorem describeEntry_fails (name path : String) :
    (describeEntry name path).Yields (fun _ _ => True) fun out t =>
      ∀ e, out = .error (.system e) → t = [⟨.lstat path, .error (.system e)⟩] := by
  intro look _
  cases look with
  | error f => exact fun e same => by cases same; rfl
  | ok status =>
    change Yields _ ((ofRange (Entry.ofStatus name path status)).bind _) _
    cases Entry.ofStatus name path status with
    | error f => exact fun e bad => by cases bad
    | ok entry =>
      change Yields _ (if _ then _ else _) _
      split
      · intro target _
        cases target with
        | ok target => exact fun e bad => by cases bad
        | error f =>
          cases f with
          | system e' => exact fun e bad => by cases bad
          | _ => exact fun e bad => by cases bad
      · exact fun e bad => by cases bad

/-- The failures in the report of a walk so far. -/
def WalkState.failures (state : WalkState) : List StepResult :=
  state.1.failures

/-- The failures in the report of a walk that is done. -/
def WalkState.allFailures (state : WalkState) : List StepResult :=
  state.1.allFailures

section

variable {w : Walk} {descend : String → String → List Identity → Program WalkState}
  (below : ∀ source dest entered seen,
    (descend source dest entered).Voicing seen WalkState.allFailures [])
include below

theorem cloneSubdirectory_voices (entry : Entry) (dest : String) (state : WalkState) :
    (cloneSubdirectory w descend entry dest state).Voicing seen WalkState.failures
      state.failures := by
  obtain ⟨report, entered⟩ := state
  unfold cloneSubdirectory
  dsimp only
  split
  · exact .after fun _ _ => .done rfl
  · refine ((isPlantedNonDirectory_voices dest).shift).bind fun planted t => ?_
    split
    · next there =>
      subst there
      exact .done rfl
    · next free =>
      rw [plantedFailure, if_neg free, List.append_nil]
      refine ((ensureDirectory_voices dest _ _ _).shift).bind fun created t => ?_
      cases success : created.success with
      | false =>
        refine .done ?_
        simp [StepResult.asFailure, success, WalkState.failures, CloneReport.addFailure]
      | true =>
        refine ((below entry.path dest entered _).shift).bind fun inner t => .done ?_
        change ((report.addCopied dest).absorb inner.1).failures = _
        rw [CloneReport.failures_absorb]
        simp [StepResult.asFailure, success, WalkState.failures, WalkState.allFailures,
          CloneReport.addCopied]

theorem cloneEntry_voices (name source dest : String) (entry : IsEntry seen source)
    (state : WalkState) :
    (cloneEntry w descend name source dest state).Voicing seen WalkState.failures
      state.failures := by
  obtain ⟨report, entered⟩ := state
  refine .tried (describeEntry_fails name source) (fun described t _ => ?_) fun e t last => ?_
  · dsimp only
    split
    · exact cloneSubdirectory_voices below described dest _
    · exact ((copyFile_voices _ _ _ _).shift).bind fun result _ =>
        .done (report.failures_record result dest)
    · exact ((copySymlink_voices _ _ _ _ _ _).shift).bind fun result _ =>
        .done (report.failures_record result dest)
    · exact .after fun _ _ => .done rfl
  · rw [last e rfl]
    exact .tell (tellsOf_slight rfl (path?_cons ..) (.unseen e entry)) (.done rfl)

theorem cloneNames_voices (source dest : String) (names : List String)
    (entries : ∀ name ∈ names, IsEntry seen (Path.join source name)) (state : WalkState) :
    (cloneNames w descend source dest names state).Voicing seen WalkState.failures
      state.failures := by
  induction names generalizing seen state with
  | nil => exact .done rfl
  | cons name rest ih =>
    obtain ⟨entry, entries⟩ := List.forall_mem_cons.mp entries
    have later : ∀ t, ∀ name ∈ rest, IsEntry (seen ++ t) (Path.join source name) :=
      fun t name mem => (entries name mem).append t
    refine .after fun _ t => ?_
    split
    · exact ih (later t) state
    · refine (cloneEntry_voices below name _ _ (entry.append t) state).bind fun state t' => ?_
      rw [List.append_assoc]
      exact ih (later (t ++ t')) state

end

/-- Copying the content of a directory notes every failure, here and below. -/
theorem cloneDirectory_voices (w : Walk) (depth : Nat) (source dest : String)
    (entered : List Identity) :
    (cloneDirectory w depth source dest entered).Voicing seen WalkState.allFailures [] := by
  induction depth generalizing source dest entered seen with
  | zero => exact .raise .limit
  | succ depth ih =>
    refine .tried (opening_begins source) ?_ fun e t _ =>
      .tell (tellsOf_warning rfl (path?_cons ..)) (.done rfl)
    rintro ⟨status, names⟩ t ⟨opened, -⟩
    obtain rfl := opened status names rfl
    have entries : ∀ name ∈ names,
        IsEntry (seen ++ [⟨.stat source, .ok status⟩, ⟨.list source, .ok names⟩])
          (Path.join source name) :=
      fun name mem => ⟨source, names, name, by simp, mem, rfl⟩
    have start : HasOutcome (.ok (some source))
        ({ outcome := .ok (some source) }, status.identity :: entered) :=
      rfl
    have walked := cloneNames_voices (w := w) (fun source dest entered seen => ih source dest entered)
      source dest names entries ({ outcome := .ok (some source) }, status.identity :: entered)
    refine Yields.mono (walked.returns (cloneNames_returns source dest names start)) ?_
    -- the directory was read, so it has no failure but those of its entries
    intro out t ⟨reached, kept⟩ state ends
    obtain ⟨more, same, voices⟩ := reached state ends
    exact ⟨more, (CloneReport.allFailures_opened (kept state ends)).trans same, voices⟩

theorem cloneTree_voices (source dest : String) (uid gid : Int) (chunkSize : Option Int)
    (limits : Limits) :
    (cloneTree source dest uid gid chunkSize limits).Voicing seen CloneReport.allFailures [] := by
  have walked : ∀ w seen, ((cloneDirectory w limits.depth source dest []).bind fun state =>
      done state.1).Voicing seen CloneReport.allFailures [] := fun w seen =>
    (cloneDirectory_voices w limits.depth source dest []).bind fun state t => .done rfl
  refine .after fun looked t => ?_
  cases looked with
  | ok status => exact walked _ _
  | error e => exact walked _ _

/-- No failure is silent. In any world, each failure in the report of a clone, and that of the report
itself, has an event of its own that tells of it, and the events come in the order of the failures.
Where calls fail only with errors of the system, and the mask and the hook not at all, nothing but
the limits of the walk can keep the report from coming. -/
theorem cloneTree_notes {σ : Type} (world : Layer σ) (source dest : String) (uid gid : Int)
    (chunkSize : Option Int) (limits : Limits) (s : σ) :
    (∀ report, ((cloneTree source dest uid gid chunkSize limits).run world s).1 = .ok report →
      Noted (report.failures ++ report.ownFailure)
        ((cloneTree source dest uid gid chunkSize limits).trace world s)) ∧
    ((∀ x ∈ (cloneTree source dest uid gid chunkSize limits).trace world s,
        Orderly x.call x.reply) →
      ∀ f, ((cloneTree source dest uid gid chunkSize limits).run world s).1 = .error f →
        f = .limit) := by
  refine ⟨fun report ends => ?_, fun fair f failed => ?_⟩
  · have voicing : (cloneTree source dest uid gid chunkSize limits).Voicing []
        CloneReport.allFailures [] :=
      cloneTree_voices source dest uid gid chunkSize limits
    obtain ⟨more, same, voices⟩ := voicing.run (fun _ _ => trivial) report ends
    rw [← CloneReport.allFailures, same]
    exact voices.noted
  · exact ((cloneTree_yields source dest uid gid chunkSize limits).run_of_trace fair).1 f failed

/-- A skeleton with a directory that cannot be listed and a file that cannot be opened. The first is
warned of, the second is noted for debugging. -/
theorem cloneTree_notes_unread :
    let world := Machine.refusing
      (fun c => decide (c = .list "/skel/d") || decide (c = .openRead "/skel/f"))
      (Machine.refused "/skel" .inputOutput)
    let work := cloneTree "/skel" "/home" 7 7 none { depth := 3, pieces := 3 }
    ∃ report, (work.run world Machine.sample).1 = .ok report ∧
      report.failures.map StepResult.path = [some "/skel/d", some "/skel/f"] ∧
      Noted (report.failures ++ report.ownFailure) (work.trace world Machine.sample) := by
  intro world work
  have ends : (work.run world Machine.sample).1 = .ok
      { outcome := .ok (some "/skel")
        copied := ["/home/d", "/home/l"]
        failures := [
          .failure .openFile "/skel/d" (Machine.refused "/skel" .inputOutput).message,
          .failure .openFile "/skel/f" (Machine.refused "/skel" .inputOutput).message] } := by
    decide
  exact ⟨_, ends, rfl, (cloneTree_notes world "/skel" "/home" 7 7 none { depth := 3, pieces := 3 }
    Machine.sample).1 _ ends⟩

end Program

end HomeProvision
