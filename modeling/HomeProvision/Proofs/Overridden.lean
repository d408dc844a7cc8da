import HomeProvision.Proofs.Grammar

/-!
# Options over the file

Options override single fields of the settings that the configuration file gives. Each field is
taken from its own option if that is given, else from the file, else from the defaults, whatever the
other fields come from (`Options.Layered`). What counts as given differs: the switch is given where
it is on, a skeleton where its path is not empty, and a mode wherever its option stands, also if it
is 0.

Nothing comes of options and a file that both give nothing. A mode among the options that is no
permission mode is refused as a broken file is (`resolveSettings_layers`). A file is refused
first, since options are looked at once it has been read.
-/

namespace HomeProvision.Command

open Program

theorem map_eq_ok {ε α β : Type} {x : Except ε α} {g : α → β} {b : β} :
    x.map g = .ok b ↔ ∃ a, x = .ok a ∧ g a = b := by
  cases x <;> simp [Except.map]

/-! ## Modes -/

/-- Whether an option gives something that is no permission mode. -/
def Given.IsNoMode : Given Int → Prop
  | .absent => False
  | .blank => True
  | .value n => n < 0 ∨ 0o7777 < n

section

variable {g : Given Int} {m m' : Mode}

theorem toInt_eq_iff : m.toInt = m'.toInt ↔ m = m' := by
  rw [← checkMode_eq_ok_iff, checkMode_toInt, Except.ok.injEq, eq_comm]

/-- A mode with an option over it is the option's number where there is one. -/
theorem Given.overMode_eq_ok_iff :
    g.overMode m = .ok m' ↔ ¬ g.IsNoMode ∧ m'.toInt = g.value?.getD m.toInt := by
  cases g with
  | absent => simp [Given.overMode, Given.IsNoMode, Given.value?, toInt_eq_iff, eq_comm]
  | blank => simp [Given.overMode, Given.IsNoMode]
  | value n =>
    change checkMode n = .ok m' ↔ ¬ (n < 0 ∨ 0o7777 < n) ∧ m'.toInt = n
    rw [checkMode_eq_ok_iff, iff_and_self]
    intro same
    have := exists_mode.mp ⟨m', same⟩
    omega

theorem Given.exists_overMode (m : Mode) (fits : ¬ g.IsNoMode) : ∃ m', g.overMode m = .ok m' := by
  cases g with
  | absent => exact ⟨m, rfl⟩
  | blank => exact absurd trivial fits
  | value n =>
    have fits : ¬ (n < 0 ∨ 0o7777 < n) := fits
    obtain ⟨m', same⟩ := exists_mode (n := n).mpr (by omega)
    exact ⟨m', checkMode_eq_ok_iff.mpr same⟩

end

/-! ## One record over another -/

variable {o : Options}

/-- Whether options give any field of the settings. -/
def Options.GiveSettings (o : Options) : Prop :=
  o.enable = true ∨ (∃ path, o.skeleton = .value path ∧ path ≠ "") ∨
    o.mode ≠ .absent ∨ o.intermediateMode ≠ .absent

/-- Whether a mode among the options is no permission mode. -/
def Options.GiveNoMode (o : Options) : Prop :=
  o.mode.IsNoMode ∨ o.intermediateMode.IsNoMode

/-- Whether each field of settings comes from its own option if that is given, else from what is
written in the file, else from the defaults. -/
structure Options.Layered (o : Options) (written : Option Settings) (st : Settings) : Prop where
  enabled : st.enabled = if o.enable then true else (written.map (·.enabled)).getD false
  finalMode : st.finalMode.toInt =
    (o.mode.value?.or (written.map (·.finalMode.toInt))).getD 0o700
  intermediateMode : st.intermediateMode.toInt =
    (o.intermediateMode.value?.or (written.map (·.intermediateMode.toInt))).getD 0o711
  skeleton : st.skeleton =
    match o.skeleton with
    | .value path => if path = "" then written.bind (·.skeleton) else some path
    | _ => written.bind (·.skeleton)

theorem Given.isAbsent_eq_false_iff {α : Type} {g : Given α} :
    g.isAbsent = false ↔ g ≠ .absent := by
  cases g <;> simp [Given.isAbsent]

theorem Options.overrides_iff : o.overrides = true ↔ o.GiveSettings := by
  have asked : o.skeleton?.isSome = true ↔ ∃ path, o.skeleton = .value path ∧ path ≠ "" := by
    unfold Options.skeleton?
    cases o.skeleton <;> simp [Given.value?]
  unfold Options.overrides Options.GiveSettings
  rw [Bool.or_eq_true, Bool.or_eq_true, Bool.or_eq_true, asked, Bool.not_eq_true',
    Bool.not_eq_true', Given.isAbsent_eq_false_iff, Given.isAbsent_eq_false_iff, or_assoc, or_assoc]

/-- Options that give no permission mode give settings all the same. -/
theorem Options.GiveNoMode.giveSettings (h : o.GiveNoMode) : o.GiveSettings := by
  have given : ∀ {g : Given Int}, g.IsNoMode → g ≠ .absent := by
    rintro g h rfl
    exact h
  exact .inr (.inr (h.imp given given))

/-- Without a file the defaults stand in for what is written. -/
theorem Options.layered_defaults {st : Settings} : o.Layered (some {}) st ↔ o.Layered none st := by
  have last : ∀ (x : Option Int) (n : Int), (x.or (some n)).getD n = (x.or none).getD n := by
    intro x n
    cases x <;> rfl
  constructor <;> rintro ⟨enabled, finalMode, intermediateMode, skeleton⟩
  · exact ⟨enabled, finalMode.trans (last _ _), intermediateMode.trans (last _ _), skeleton⟩
  · exact ⟨enabled, finalMode.trans (last _ _).symm, intermediateMode.trans (last _ _).symm,
      skeleton⟩

/-- The fields of settings with options over them. -/
theorem Options.layered_iff {written st : Settings} :
    o.Layered (some written) st ↔
      st.enabled = (written.enabled || o.enable) ∧
      st.finalMode.toInt = o.mode.value?.getD written.finalMode.toInt ∧
      st.intermediateMode.toInt = o.intermediateMode.value?.getD written.intermediateMode.toInt ∧
      st.skeleton = o.skeleton?.or written.skeleton := by
  have switched : (if o.enable then true else written.enabled) = (written.enabled || o.enable) := by
    cases o.enable <;> simp
  have overridden : ∀ (x : Option Int) (n k : Int), (x.or (some n)).getD k = x.getD n := by
    intro x n k
    cases x <;> rfl
  have path : (match o.skeleton with
      | .value path => if path = "" then written.skeleton else some path
      | _ => written.skeleton) = o.skeleton?.or written.skeleton := by
    unfold Options.skeleton?
    cases o.skeleton with
    | value path => by_cases empty : path = "" <;> simp [Given.value?, Option.filter, empty]
    | _ => rfl
  constructor
  · rintro ⟨enabled, finalMode, intermediateMode, skeleton⟩
    exact ⟨enabled.trans switched, finalMode.trans (overridden _ _ _),
      intermediateMode.trans (overridden _ _ _), skeleton.trans path⟩
  · rintro ⟨enabled, finalMode, intermediateMode, skeleton⟩
    exact ⟨enabled.trans switched.symm, finalMode.trans (overridden _ _ _).symm,
      intermediateMode.trans (overridden _ _ _).symm, skeleton.trans path.symm⟩

theorem Options.override_eq_ok_iff {written st : Settings} :
    o.override written = .ok st ↔ ¬ o.GiveNoMode ∧ o.Layered (some written) st := by
  obtain ⟨enabled, finalMode, intermediateMode, skeleton⟩ := st
  have checked : o.override written = .ok ⟨enabled, finalMode, intermediateMode, skeleton⟩ ↔
      enabled = (written.enabled || o.enable) ∧
      o.mode.overMode written.finalMode = .ok finalMode ∧
      o.intermediateMode.overMode written.intermediateMode = .ok intermediateMode ∧
      skeleton = o.skeleton?.or written.skeleton := by
    unfold Options.override Settings.checked
    split
    · next first second => simp [first, second, eq_comm]
    · next other =>
      refine iff_of_false nofun fun ⟨_, first, second, _⟩ => other _ _ first second
  rw [checked, Given.overMode_eq_ok_iff, Given.overMode_eq_ok_iff, Options.layered_iff,
    Options.GiveNoMode, not_or]
  constructor
  · rintro ⟨on, ⟨fits, first⟩, ⟨fits', second⟩, path⟩
    exact ⟨⟨fits, fits'⟩, on, first, second, path⟩
  · rintro ⟨⟨fits, fits'⟩, on, first, second, path⟩
    exact ⟨on, ⟨fits, first⟩, ⟨fits', second⟩, path⟩

/-- Nothing but the modes among the options can be refused: those of the file have been checked. -/
theorem Options.exists_override (fits : ¬ o.GiveNoMode) (written : Settings) :
    ∃ st, o.override written = .ok st := by
  obtain ⟨fits, fits'⟩ := not_or.mp fits
  obtain ⟨m, first⟩ := Given.exists_overMode written.finalMode fits
  obtain ⟨m', second⟩ := Given.exists_overMode written.intermediateMode fits'
  unfold Options.override
  rw [first, second]
  exact ⟨_, rfl⟩

/-! ## Over what a file gives -/

/-- Settings come of options and a file where one of them gives any. -/
theorem Options.resolve_eq_some_iff {written : Option Settings} {st : Settings} :
    o.resolve written = .ok (some st) ↔
      (written.isSome = true ∨ o.GiveSettings) ∧ ¬ o.GiveNoMode ∧ o.Layered written st := by
  have overridden : ∀ written : Settings, (o.override written).map some = .ok (some st) ↔
      ¬ o.GiveNoMode ∧ o.Layered (some written) st := by
    intro written
    rw [map_eq_ok, ← Options.override_eq_ok_iff]
    simp
  unfold Options.resolve
  cases written with
  | some written => simp [overridden]
  | none =>
    rw [← Options.overrides_iff]
    dsimp only
    split
    · next given => simp [overridden, given, Options.layered_defaults]
    · next given => simp [given]

theorem Options.resolve_eq_none_iff {written : Option Settings} :
    o.resolve written = .ok none ↔ written = none ∧ ¬ o.GiveSettings := by
  have overridden : ∀ written : Settings, (o.override written).map some ≠ .ok none := by
    intro written made
    obtain ⟨_, -, same⟩ := map_eq_ok.mp made
    cases same
  unfold Options.resolve
  cases written with
  | some written => simp [overridden]
  | none =>
    rw [← Options.overrides_iff]
    dsimp only
    split
    · next given => simp [overridden, given]
    · next given => simp [given]

theorem Options.exists_resolve (fits : ¬ o.GiveNoMode) (written : Option Settings) :
    ∃ out, o.resolve written = .ok out := by
  obtain ⟨st, made⟩ := Options.exists_override fits (written.getD {})
  unfold Options.resolve
  cases written with
  | some written => exact ⟨some st, map_eq_ok.mpr ⟨st, made, rfl⟩⟩
  | none =>
    dsimp only
    split
    · exact ⟨some st, map_eq_ok.mpr ⟨st, made, rfl⟩⟩
    · exact ⟨none, rfl⟩

/-- A refusal is for a mode among the options, whatever the file gives. -/
theorem Options.resolve_eq_error_iff {written : Option Settings} :
    (∃ e, o.resolve written = .error e) ↔ o.GiveNoMode := by
  constructor
  · rintro ⟨e, failed⟩
    by_contra fits
    obtain ⟨out, made⟩ := Options.exists_resolve fits written
    rw [made] at failed
    cases failed
  · intro bad
    cases made : o.resolve written with
    | error e => exact ⟨e, rfl⟩
    | ok out =>
      cases out with
      | none => exact absurd bad.giveSettings (Options.resolve_eq_none_iff.mp made).2
      | some st => exact absurd bad (Options.resolve_eq_some_iff.mp made).2.1

/-! ## Over the file -/

/-- What resolving comes to once loading the file has ended. -/
def Options.resolved (o : Options) (loaded : Except Fault (Option Settings)) :
    Except Fault (Option Settings) :=
  loaded >>= fun written => (o.resolve written).mapError .invalid

theorem resolveSettings_run {σ : Type} {world : Layer σ} {s : σ} {path : String} :
    (resolveSettings o path).run world s =
      (o.resolved ((loadSettings path).run world s).1, ((loadSettings path).run world s).2) := by
  unfold resolveSettings Options.resolved
  rw [bind_eq, run_bind]
  cases (loadSettings path).run world s with
  | mk out s' =>
    cases out with
    | error f => rfl
    | ok written => exact run_ofExcept world _ s'

theorem Options.resolved_eq_ok_iff {loaded : Except Fault (Option Settings)}
    {out : Option Settings} :
    o.resolved loaded = .ok out ↔
      ∃ written, loaded = .ok written ∧ o.resolve written = .ok out := by
  unfold Options.resolved
  rw [Machine.bind_eq_ok]
  simp only [Machine.mapError_eq_ok]

theorem Options.resolved_eq_error_iff {loaded : Except Fault (Option Settings)} {f : Fault} :
    o.resolved loaded = .error f ↔ loaded = .error f ∨
      ∃ written e, loaded = .ok written ∧ o.resolve written = .error e ∧ f = .invalid e := by
  unfold Options.resolved
  rw [Machine.bind_eq_error]
  simp only [Machine.mapError_eq_error, exists_and_left]

/-- What options make of a configuration file, however loading it ends. There are no settings if and
only if the file gives none and no option does. They are refused as bad input if and only if the
file is, or the file is not and a mode among the options is out of range; and a failure of another
kind stays what it is. Otherwise each field is the option's if that is given, else the file's, else
the default. And the settings make a request for every owner. -/
theorem resolveSettings_layers (o : Options) :
    (∀ {σ : Type} (world : Layer σ) (s : σ) (path : String),
      (resolveSettings o path).run world s =
        (o.resolved ((loadSettings path).run world s).1, ((loadSettings path).run world s).2)) ∧
    ∀ loaded : Except Fault (Option Settings),
      (o.resolved loaded = .ok none ↔ loaded = .ok none ∧ ¬ o.GiveSettings) ∧
      ((∃ f, o.resolved loaded = .error f ∧ f.isBadInput = true) ↔
        (∃ f, loaded = .error f ∧ f.isBadInput = true) ∨
          (∃ written, loaded = .ok written) ∧ o.GiveNoMode) ∧
      (∀ f, f.isBadInput = false → (o.resolved loaded = .error f ↔ loaded = .error f)) ∧
      ∀ st, (o.resolved loaded = .ok (some st) ↔
          ∃ written, loaded = .ok written ∧ (written.isSome = true ∨ o.GiveSettings) ∧
            ¬ o.GiveNoMode ∧ o.Layered written st) ∧
        ∀ (target : String) (uid gid : Nat),
          st.toRequest target uid gid = .ok {
            target, ownerUid := uid, ownerGid := gid
            intermediateMode := st.intermediateMode
            finalMode := st.finalMode
            skeleton := st.skeleton } := by
  refine ⟨fun world s path => resolveSettings_run, fun loaded => ⟨?_, ?_, fun f other => ?_,
    fun st => ⟨?_, fun target uid gid => ?_⟩⟩⟩
  · simp [Options.resolved_eq_ok_iff, Options.resolve_eq_none_iff]
  · constructor
    · rintro ⟨f, failed, bad⟩
      rcases Options.resolved_eq_error_iff.mp failed with first | ⟨written, e, loads, refused, -⟩
      · exact .inl ⟨f, first, bad⟩
      · exact .inr ⟨⟨written, loads⟩, Options.resolve_eq_error_iff.mp ⟨e, refused⟩⟩
    · rintro (⟨f, failed, bad⟩ | ⟨⟨written, loads⟩, noMode⟩)
      · exact ⟨f, Options.resolved_eq_error_iff.mpr (.inl failed), bad⟩
      · obtain ⟨e, refused⟩ := Options.resolve_eq_error_iff.mpr noMode
        exact ⟨.invalid e,
          Options.resolved_eq_error_iff.mpr (.inr ⟨written, e, loads, refused, rfl⟩), rfl⟩
  · rw [Options.resolved_eq_error_iff, or_iff_left]
    rintro ⟨_, _, -, -, rfl⟩
    cases other
  · simp only [Options.resolved_eq_ok_iff, Options.resolve_eq_some_iff]
  · unfold Settings.toRequest Settings.requestFor checkOwner
    simp

/-- An empty path leaves the skeleton as it is written, and a mode of zero is one. -/
example : ({ skeleton := .value "", mode := .value 0 } : Options).resolve
      (some { enabled := true, skeleton := some "/etc/skel" }) =
    .ok (some { enabled := true, finalMode := { bits := 0 }, skeleton := some "/etc/skel" }) := by
  decide

end HomeProvision.Command
