import HomeProvision.Proofs.Enabled
import HomeProvision.Proofs.Loaded
import HomeProvision.Proofs.Nesting
import HomeProvision.Proofs.Reported

/-!
# Bad input and the command

Bad input should end the command with an exit code. `run_survives` says for a world in which nothing
fails but calls on files, and for a configuration file that is read or refused as bad input, that
the exit code is 0, 1 or 2, and that it is 2 whenever the file is refused or a mode among the
options is out of range.

One kind of bad input is left out of this. The owner's numbers are checked last, when the request
is made, and there nothing turns a refusal into an exit code: a negative number ends the command by
a fault. This happens before any work. Arguments that a call cannot be made with (a path that holds
NUL, a number beyond those of the machine) are no matter of the checks; the calls that are given
them fail with other faults than those of the system, which is what `Willing` rules out.
-/

namespace HomeProvision

/-! ## Willing worlds -/

/-- The replies of an orderly world that grants every change of the identity. -/
def Willing (c : Call) (r : c.Reply) : Prop :=
  Orderly c r ∧ (c.setsIdentity = true → c.fault? r = none)

/-- What a world allows is all that a run sees. -/
theorem Layer.Allows.of_trace {α σ : Type} {world : Layer σ}
    {allowed : (c : Call) → c.Reply → Prop} (allows : world.Allows allowed) {p : Program α}
    {s : σ} :
    ∀ x ∈ p.trace world s, allowed x.call x.reply := by
  induction p generalizing s with
  | done a => exact fun _ mem => nomatch mem
  | raise f => exact fun _ mem => nomatch mem
  | call c next ih => exact List.forall_mem_cons.mpr ⟨allows c s, ih _⟩

namespace Program

variable {α : Type}

/-- Whether a program, in willing worlds, has a result, and a good one. -/
def Succeeds (good : α → Prop) (p : Program α) : Prop :=
  p.Yields Willing fun out _ => ∃ a, out = .ok a ∧ good a

namespace Succeeds

variable {β : Type} {good : α → Prop}

theorem done {a : α} (h : good a) : (Program.done a).Succeeds good :=
  ⟨a, rfl, h⟩

theorem bind {p : Program α} {k : α → Program β} {good' : β → Prop} (first : p.Succeeds good)
    (onward : ∀ a, good a → (k a).Succeeds good') : (p.bind k).Succeeds good' := by
  refine Yields.bind first (fun a t reached => ?_) fun f t bad => nomatch bad.choose_spec.1
  obtain ⟨_, same, h⟩ := reached
  cases same
  exact onward a h

theorem effectiveUid : (ask .effectiveUid).Succeeds fun _ => True :=
  fun uid _ => ⟨uid, rfl, trivial⟩

theorem effectiveGid : (ask .effectiveGid).Succeeds fun _ => True :=
  fun gid _ => ⟨gid, rfl, trivial⟩

theorem switchUid (current wanted : Int) :
    (Controller.switchUid current wanted).Succeeds (· = .ok ()) := by
  unfold Controller.switchUid
  split
  · exact .done rfl
  · intro r willing
    have granted := willing.2 rfl
    cases r with
    | ok _ => exact ⟨_, rfl, rfl⟩
    | error f => cases granted

theorem switchGid (current wanted : Int) :
    (Controller.switchGid current wanted).Succeeds (· = .ok ()) := by
  unfold Controller.switchGid
  split
  · exact .done rfl
  · intro r willing
    have granted := willing.2 rfl
    cases r with
    | ok _ => exact ⟨_, rfl, rfl⟩
    | error f => cases granted

/-- Where the identity can be changed a window can be opened. -/
theorem elevate (c : Controller) : c.elevate.Succeeds (·.1 = .ok ()) := by
  match c with
  | .nominal n => exact .done rfl
  | .administrator (n + 1) saved => exact .done rfl
  | .administrator 0 saved =>
    refine bind effectiveUid fun uid _ => bind effectiveGid fun gid _ =>
      bind (switchUid uid 0) fun _ same => ?_
    cases same
    refine bind (switchGid gid 0) fun _ same => ?_
    cases same
    exact .done rfl

/-- And it can be closed. -/
theorem relinquish (c : Controller) : c.relinquish.Succeeds (·.1 = .ok ()) := by
  match c with
  | .nominal n => exact .done rfl
  | .administrator 0 saved => exact .done rfl
  | .administrator 1 none => exact .done rfl
  | .administrator (n + 2) saved => exact .done rfl
  | .administrator 1 (some (uid, gid)) =>
    refine bind (?_ : (Controller.giveBack uid gid).Succeeds (· = .ok ())) fun _ same => .done same
    refine bind effectiveGid fun now _ => bind (switchGid now gid) fun _ same => ?_
    cases same
    exact bind effectiveUid fun now _ => switchUid now uid

/-- A process has a controller. -/
theorem defaultController : Program.defaultController.Succeeds fun _ => True := by
  intro uid _
  dsimp only [Program.bind]
  split
  · exact ⟨_, rfl, trivial⟩
  · exact fun _ _ => ⟨_, rfl, trivial⟩

end Succeeds

/-- What is known of the outcome of a program in orderly worlds holds of it in willing ones with its
controller as a part of it. -/
theorem Yields.under {p : Program α} {post : Except Fault α → Prop}
    (h : p.Yields Orderly fun out _ => post out) (c : Controller) :
    (Program.under c p).Succeeds fun r => post r.1 := by
  induction p generalizing c with
  | done a => exact .done h
  | raise f => exact .done h
  | call other next ih =>
    have answered : ∀ {q : Program (Except Fault Unit × Controller)}
        {k : Except Fault Unit → Program α}, q.Succeeds (·.1 = .ok ()) →
        (∀ c, (Program.under c (k (.ok ()))).Succeeds fun r => post r.1) →
        (q.bind fun r => Program.under r.2 (k r.1)).Succeeds fun r => post r.1 := by
      intro q k grants onward
      refine grants.bind fun a same => ?_
      rw [same]
      exact onward a.2
    cases other with
    | elevate => exact answered (.elevate c) (ih (.ok ()) (h (.ok ()) ⟨_, rfl⟩))
    | relinquish => exact answered (.relinquish c) (ih (.ok ()) (h (.ok ()) ⟨_, rfl⟩))
    | _ => exact fun r willing => ih r (h r willing.1) c

/-- A request with the controller that suits the process ends with a result or at the limit of the
walk. -/
theorem provision_survives (r : Request) (user : String) (chunkSize : Option Int)
    (limits : Limits) :
    (withPrivileges .automatic (provision r user chunkSize limits)).Yields Willing
      fun out _ => ∀ f, out = .error f → f = .limit := by
  have work : (provision r user chunkSize limits).Yields Orderly
      fun out _ => ∀ f, out = .error f → f = .limit :=
    Yields.mono (provision_handles r user chunkSize limits) fun _ _ reached => reached.2
  refine Yields.bind Succeeds.defaultController (fun c t _ => ?_) fun f t bad =>
    nomatch bad.choose_spec.1
  refine Yields.bind (work.under c) (fun out t ends => ?_) fun f t bad =>
    nomatch bad.choose_spec.1
  obtain ⟨_, same, known⟩ := ends
  cases same
  exact yields_ofExcept.mpr known

end Program

namespace Command

open Program

variable {σ : Type} {world : Layer σ} {s : σ} {o : Options}

/-! ## Owners -/

/-- Whether a number is given and negative. -/
def Given.IsNegative (g : Given Int) : Prop :=
  ∃ n, g = .value n ∧ n < 0

/-- The owner's numbers: those among the options, and where one is missing those that the list of
users has been asked for. -/
def Options.OwnedBy (o : Options) (t : List Exchange) (uid gid : Given Int) : Prop :=
  ∃ known : Int × Int, uid = o.uid.orValue known.1 ∧ gid = o.gid.orValue known.2 ∧
    ((o.uid.isAbsent = false ∧ o.gid.isAbsent = false) ∨
      ∃ user, ⟨.lookupUser user, some known⟩ ∈ t)

theorem Given.orValue_of_present {g : Given Int} (present : g.isAbsent = false) (n : Int) :
    g.orValue n = g := by
  cases g with
  | absent => cases present
  | blank | value _ => rfl

/-- A number that is there and no blank is refused only for being negative. -/
theorem Given.owner_eq_error {g : Given Int} (plain : g ≠ .blank) {n : Int} {e : FieldProblem}
    (refused : (g.orValue n).owner = .error e) : (g.orValue n).IsNegative := by
  have negative : ∀ k : Int, (Given.value k).owner = .error e → k < 0 := by
    intro k refused
    unfold Given.owner checkOwner at refused
    dsimp only at refused
    split at refused
    · cases refused
    · omega
  cases g with
  | absent => exact ⟨n, rfl, negative n refused⟩
  | blank => exact absurd rfl plain
  | value k => exact ⟨k, rfl, negative k refused⟩

/-- A request is made unless one of the owner's numbers is refused. -/
theorem requestFor_eq_error {st : Settings} {path : String} {uid gid : Except FieldProblem Nat}
    {e : Invalid} (refused : st.requestFor path uid gid = .error e) :
    (∃ p, uid = .error p) ∨ ∃ p, gid = .error p := by
  cases uid with
  | error p => exact .inl ⟨p, rfl⟩
  | ok n =>
    cases gid with
    | error p => exact .inr ⟨p, rfl⟩
    | ok k => cases refused

/-- The owner of the home is found without a fault, or there is no such user. -/
theorem resolveOwner_yields {name : String} (named : o.userName = .ok name)
    (allowed : (c : Call) → c.Reply → Prop) :
    (resolveOwner o).Yields allowed fun out t => (∀ x ∈ t, x.call.isInquiry = true) ∧
      ∃ owner, out = .ok owner ∧ ∀ uid gid, owner = some (uid, gid) → o.OwnedBy t uid gid := by
  unfold resolveOwner
  split
  · next given =>
    have given : o.uid.isAbsent = false ∧ o.gid.isAbsent = false := by simpa using given
    refine ⟨fun _ mem => (nomatch mem), _, rfl, fun uid gid same => ?_⟩
    cases same
    exact ⟨(0, 0), (Given.orValue_of_present given.1 0).symm,
      (Given.orValue_of_present given.2 0).symm, .inl given⟩
  · rw [named]
    intro known _
    refine ⟨fun x mem => (by rw [List.mem_singleton.mp mem]; rfl), _, rfl, fun uid gid same => ?_⟩
    cases known with
    | none => cases same
    | some ids =>
      cases same
      exact ⟨ids, rfl, rfl, .inr ⟨name, List.mem_singleton_self _⟩⟩

/-! ## Runs that survive -/

/-- Whether a run ends with one of the exit codes of the command. -/
def Exits (out : Except Fault CommandResult) : Prop :=
  ∃ r, out = .ok r ∧ r.exitCode ≤ refusedCode

/-- Whether a run is ended by the owner's numbers: by a fault, before any work, for a number that is
negative. -/
structure EndedByOwner (o : Options) (out : Except Fault CommandResult) (t : List Exchange) :
    Prop where
  fault : ∃ e, out = .error (.invalid e)
  owner : ∃ uid gid, o.OwnedBy t uid gid ∧ (uid.IsNegative ∨ gid.IsNegative)
  inquiries : ∀ x ∈ t, x.call.isInquiry = true

/-- Inquiries may come before. -/
theorem EndedByOwner.after {out : Except Fault CommandResult} {t t' : List Exchange}
    (first : ∀ x ∈ t, x.call.isInquiry = true) (h : EndedByOwner o out t') :
    EndedByOwner o out (t ++ t') := by
  obtain ⟨fault, ⟨uid, gid, ⟨known, same, same', source⟩, negative⟩, inquiries⟩ := h
  refine ⟨fault, ⟨uid, gid, ⟨known, same, same', ?_⟩, negative⟩, fun x mem => ?_⟩
  · exact source.imp_right fun ⟨user, mem⟩ => ⟨user, List.mem_append_right _ mem⟩
  · exact (List.mem_append.mp mem).elim (first x) (inquiries x)

/-- Creating a home ends with a result or at the limit of the walk, unless no request can be
made. -/
theorem provisionIfEnabled_survives (settings : Option Settings) (target user : String)
    (request : Settings → Except Invalid Request) (chunkSize : Option Int) (limits : Limits) :
    (provisionIfEnabled settings target user request .automatic chunkSize limits).Yields Willing
      fun out t => ∀ f, out = .error f → f = .limit ∨ ∃ st e, settings = some st ∧
        st.enabled = true ∧ request st = .error e ∧ f = .invalid e ∧ t = [] := by
  unfold provisionIfEnabled
  cases settings with
  | none => exact nofun
  | some st =>
    dsimp only
    split
    · next on =>
      cases made : request st with
      | error e =>
        intro f failed
        cases failed
        exact .inr ⟨st, e, rfl, on, made, rfl, rfl⟩
      | ok r =>
        refine (provision_survives r user chunkSize limits).mono fun _ _ known f failed => ?_
        exact .inl (known f failed)
    · exact nofun

/-- Once there are settings a run ends with an exit code, at the limit of the walk, or, if the
settings are enabled, by the owner's numbers. -/
theorem runWith_survives {constants : Constants} {path name : String} {settings : Option Settings}
    (named : o.userName = .ok name) (uid : o.uid ≠ .blank) (gid : o.gid ≠ .blank) :
    (runWith constants path o settings).Yields Willing fun out t =>
      Exits out ∨ out = .error .limit ∨
        ((∃ st, settings = some st ∧ st.enabled = true) ∧ EndedByOwner o out t) := by
  refine (resolveOwner_yields named Willing).bind (fun owner t known => ?_) fun f t bad => ?_
  · obtain ⟨inquiries, owner', same, owned⟩ := known
    cases same
    cases owner with
    | none => exact fun _ _ => .inl ⟨_, rfl, Nat.le_refl _⟩
    | some ids =>
      obtain ⟨u, g⟩ := ids
      refine (provisionIfEnabled_survives settings path o.userLabel _ _ _).bind
        (fun result t' _ => .inl ⟨_, rfl, ?_⟩) fun f t' ends => ?_
      · change (if result.success then 0 else 1) ≤ 2
        split <;> decide
      · rcases ends f rfl with rfl | ⟨st, e, same, on, refused, rfl, rfl⟩
        · exact .inr (.inl rfl)
        · refine .inr (.inr ⟨⟨st, same, on⟩, ⟨e, rfl⟩, ?_, by simpa using inquiries⟩)
          refine ⟨u, g, by simpa using owned u g rfl, ?_⟩
          obtain ⟨known, rfl, rfl, -⟩ := owned u g rfl
          rcases requestFor_eq_error refused with ⟨p, refused⟩ | ⟨p, refused⟩
          · exact .inl (Given.owner_eq_error uid refused)
          · exact .inr (Given.owner_eq_error gid refused)
  · obtain ⟨_, _, bad, _⟩ := bad
    cases bad

/-- Whether a mode is given and out of range. -/
def Given.IsOutOfRange (g : Given Int) : Prop :=
  ∃ n, g = .value n ∧ Mode.ofInt? n = none

theorem Given.IsOutOfRange.isNoMode {g : Given Int} (h : g.IsOutOfRange) : g.IsNoMode := by
  obtain ⟨n, rfl, out⟩ := h
  change n < 0 ∨ 0o7777 < n
  unfold Mode.ofInt? modeLimit at out
  split at out
  · cases out
  · omega

/-- No settings come of a mode that is out of range. -/
theorem Options.resolve_outOfRange (h : o.mode.IsOutOfRange ∨ o.intermediateMode.IsOutOfRange)
    (loaded settings : Option Settings) : o.resolve loaded ≠ .ok settings := by
  have refused : ∃ e, o.resolve loaded = .error e :=
    Options.resolve_eq_error_iff.mpr
      (h.imp Given.IsOutOfRange.isNoMode Given.IsOutOfRange.isNoMode)
  obtain ⟨e, refused⟩ := refused
  rw [refused]
  exact nofun

/-- The user that a command line names, unless the name is blank. -/
theorem userName_of_line {arguments : List String} {path : String}
    (line : Line.ofArguments arguments = .ok (.run path o)) (user : o.user ≠ .blank) :
    ∃ name, o.userName = .ok name := by
  obtain ⟨_, t, -, -, rfl, complete⟩ := Line.ofArguments_run line
  unfold Options.userName
  cases given : t.options.user with
  | value name => exact ⟨name, rfl⟩
  | blank => exact absurd given user
  | absent => simp [Taken.missing, given, Given.isAbsent] at complete

section

variable {constants : Constants} {path configuration : String}

theorem runOptions_eq (place : o.configurationPath constants = .ok configuration) :
    runOptions constants path o =
      (outcome (resolveSettings o configuration)).bind fun
        | .ok settings => runWith constants path o settings
        | .error f =>
            if f.isBadInput then
              refuse "Invalid configuration"
                [("path", .text configuration), ("error", .text f.message)]
            else .raise f := by
  unfold runOptions
  rw [place]
  rfl

/-- Settings that are refused as bad input end a run with the exit code for refusals. -/
theorem runOptions_refused (path : String) {f : Fault} {s' : σ}
    (place : o.configurationPath constants = .ok configuration)
    (ends : (resolveSettings o configuration).run world s = (.error f, s'))
    (bad : f.isBadInput = true) :
    ((runOptions constants path o).run world s).1 = .ok { exitCode := refusedCode } ∧
      ∀ x ∈ (runOptions constants path o).trace world s, x.call.isInquiry = true := by
  have first : (outcome (resolveSettings o configuration)).run world s = (.ok (.error f), s') := by
    rw [run_outcome, ends]
  rw [runOptions_eq place, run_bind_ok first, trace_bind_ok first, trace_outcome]
  dsimp only
  rw [if_pos bad]
  refine ⟨rfl, fun x mem => ?_⟩
  rcases List.mem_append.mp mem with mem | mem
  · exact (resolveSettings_inquires o configuration).trace x mem
  · exact (refuse_inquires _ _).trace x mem

/-- Settings that have been resolved are what a run goes on with. -/
theorem runOptions_resolved (path : String) {settings : Option Settings} {s' : σ}
    (place : o.configurationPath constants = .ok configuration)
    (ends : (resolveSettings o configuration).run world s = (.ok settings, s')) :
    (runOptions constants path o).run world s = (runWith constants path o settings).run world s' ∧
      (runOptions constants path o).trace world s =
        (resolveSettings o configuration).trace world s ++
          (runWith constants path o settings).trace world s' := by
  have first : (outcome (resolveSettings o configuration)).run world s =
      (.ok (.ok settings), s') := by
    rw [run_outcome, ends]
  rw [runOptions_eq place, run_bind_ok first, trace_bind_ok first, trace_outcome]
  exact ⟨rfl, rfl⟩

/-- A failure to resolve settings is bad input if that of loading them is. -/
theorem resolveSettings_failsOnInput {f : Fault}
    (loads : ∀ f, ((loadSettings configuration).run world s).1 = .error f → f.isBadInput = true)
    (ends : ((resolveSettings o configuration).run world s).1 = .error f) :
    f.isBadInput = true := by
  rw [resolveSettings_run] at ends
  rcases Options.resolved_eq_error_iff.mp ends with failed | ⟨_, e, -, -, rfl⟩
  · exact loads f failed
  · rfl

end

/-- Bad input does not crash the command, with one exception. Where the configuration file is read
or refused as bad input, and the calls that the work relies on do not fail, a run ends with exit
code 0, 1 or 2, or at the limit of the walk; or it is enabled and a number of the owner is negative,
and then a fault ends it before any work. The exit code is 2, and nothing has been done, if the file
is refused or a mode among the options is out of range. -/
theorem run_survives {constants : Constants} {arguments : List String} {path configuration : String}
    (line : Line.ofArguments arguments = .ok (.run path o))
    (user : o.user ≠ .blank) (uid : o.uid ≠ .blank) (gid : o.gid ≠ .blank)
    (place : o.configurationPath constants = .ok configuration)
    (loads : ∀ f, ((loadSettings configuration).run world s).1 = .error f → f.isBadInput = true)
    (willing : ∀ x ∈ (run constants arguments).trace world s, Willing x.call x.reply) :
    (Exits ((run constants arguments).run world s).1 ∨
      ((run constants arguments).run world s).1 = .error .limit ∨
      (IsEnabled world s constants arguments ∧
        EndedByOwner o ((run constants arguments).run world s).1
          ((run constants arguments).trace world s))) ∧
    ((∃ f, ((loadSettings configuration).run world s).1 = .error f) ∨
        o.mode.IsOutOfRange ∨ o.intermediateMode.IsOutOfRange →
      (∃ r, ((run constants arguments).run world s).1 = .ok r ∧ r.exitCode = refusedCode) ∧
        ∀ x ∈ (run constants arguments).trace world s, x.call.isInquiry = true) := by
  obtain ⟨name, named⟩ := userName_of_line line user
  have same : run constants arguments = runOptions constants path o := by
    unfold run
    rw [line]
  rw [same] at willing ⊢
  cases ends : (resolveSettings o configuration).run world s with
  | mk out s' =>
    cases out with
    | error f =>
      have bad := resolveSettings_failsOnInput loads (congrArg Prod.fst ends)
      obtain ⟨out, inquiries⟩ := runOptions_refused path place ends bad
      exact ⟨.inl ⟨_, out, Nat.le_refl _⟩, fun _ => ⟨⟨_, out, rfl⟩, inquiries⟩⟩
    | ok settings =>
      obtain ⟨loaded, loads', given⟩ := resolveSettings_run_eq_ok (congrArg Prod.fst ends)
      refine ⟨?_, fun refused => ?_⟩
      · obtain ⟨run, trace⟩ := runOptions_resolved path place ends
        rw [trace] at willing ⊢
        rw [run]
        have rest := (runWith_survives named uid gid).run_of_trace fun x mem =>
          willing x (List.mem_append_right _ mem)
        refine rest.imp_right fun rest => rest.imp_right fun ⟨⟨st, some_, on⟩, ended⟩ => ?_
        subst some_
        refine ⟨⟨path, o, configuration, loaded, st, line, place, loads', given, on, ?_⟩, ?_⟩
        · exact (Options.resolve_enabled given on).imp_left (exists_isSwitch line)
        · exact ended.after (resolveSettings_inquires o configuration).trace
      · rcases refused with ⟨f, failed⟩ | out
        · rw [failed] at loads'
          cases loads'
        · exact absurd given (o.resolve_outOfRange out loaded settings)

/-- A configuration file that must not be read, and a mode that is out of range. -/
theorem run_survives_guarded :
    let constants := Constants.ofEnvironment [] []
    let arguments := ["/u", "--user", "u", "--mode", "77777"]
    (∃ r, ((run constants arguments).run guarded ()).1 = .ok r ∧ r.exitCode = refusedCode) ∧
      ∀ x ∈ (run constants arguments).trace guarded (), x.call.isInquiry = true := by
  intro constants arguments
  have line : Line.ofArguments arguments =
      .ok (.run "/u" { user := .value "u", mode := .value 0o77777 }) := by
    decide +kernel
  have refused : ((loadSettings "/etc/mkhome.yaml").run guarded ()).1 =
      .error (.settings (.unreadable "/etc/mkhome.yaml" "[Errno 1] Operation not permitted")) := by
    decide +kernel
  have kept : ∀ x ∈ (run constants arguments).trace guarded (), x.call.setsIdentity = false := by
    decide +kernel
  refine (run_survives line nofun nofun nofun rfl (fun f failed => ?_) fun x mem => ?_).2
    (.inl ⟨_, refused⟩)
  · cases refused.symm.trans failed
    rfl
  · refine ⟨guarded_orderly.of_trace x mem, fun sets => ?_⟩
    rw [kept x mem] at sets
    cases sets

/-- A negative number of the owner ends the command by a fault. -/
example : ((run (Constants.ofEnvironment [] [])
      ["/u", "--user", "u", "--uid", "-1", "--gid", "0", "--enable"]).run Machine.layer {}).1 =
    .error (.invalid ⟨.request, [("owner_uid", .negative)]⟩) := by
  decide +kernel

end Command

end HomeProvision
