import HomeProvision.Proofs.Change
import HomeProvision.Proofs.Configured

/-!
# What a configuration file comes to

A file is read as settings, as none, or it is refused. A refusal should be bad input, which the
command reports and survives, and a file should hold no settings only if there is none, or its
document is empty, or it is a mapping with nothing under the settings key. The reader falls short of
this in two ways.

* Documents that are false or empty collections are taken for empty ones (`Document.HoldsNone`), so
  that a file with an empty list in it is read as one without settings.
* Some refusals are of another class and end the command (`IsBeyond`): a value that its rule cannot
  build, unknown keys without an order, and a mode of a type that has no reading as one.

`loadSettings_ends` says that there is nothing else: these are all the files without settings, and,
next to a failure of the system to look, all the refusals of another class.
-/

namespace HomeProvision

open HomeProvision.Data HomeProvision.Text HomeProvision.Yaml

/-! ## Refusals of another class -/

/-- Whether a reading is refused for a cause that is no bad input. -/
def Escapes {α : Type} (x : Except SettingsError α) (e : SettingsError) : Prop :=
  x = .error e ∧ e.isBadInput = false

section

variable {α β : Type} {x : Except SettingsError α} {e : SettingsError}

theorem FailsOnInput.error (bad : e.isBadInput = true) :
    FailsOnInput (.error e : Except SettingsError α) :=
  fun e' failed => by cases failed; exact bad

theorem FailsOnInput.not_escapes (h : FailsOnInput x) : ¬ Escapes x e := by
  rintro ⟨failed, other⟩
  rw [h e failed] at other
  cases other

theorem not_escapes_ok {a : α} : ¬ Escapes (.ok a) e :=
  fun h => nomatch h.1

theorem escapes_error {e' : SettingsError} :
    Escapes (.error e' : Except SettingsError α) e ↔ e' = e ∧ e.isBadInput = false :=
  and_congr_left' ⟨Except.error.inj, congrArg _⟩

/-- Of two readings the first one escapes, or else the second one with what the first one gives. -/
theorem escapes_bind {k : α → Except SettingsError β} :
    Escapes (x >>= k) e ↔ Escapes x e ∨ ∃ a, x = .ok a ∧ Escapes (k a) e := by
  unfold Escapes
  rw [Machine.bind_eq_error, or_and_right, ← exists_and_right]
  simp only [and_assoc]

theorem escapes_map {g : α → β} : Escapes (x.map g) e ↔ Escapes x e := by
  cases x with
  | ok a => exact iff_of_false not_escapes_ok not_escapes_ok
  | error e' => exact escapes_error.trans escapes_error.symm

end

/-! ## Directives -/

namespace Directive

theorem readPairs_failsOnInput (d : Draft) (words : List Word) :
    FailsOnInput (readPairs d words) := by
  fun_induction readPairs d words with
  | case1 d => exact .ok d
  | case2 d word _ _ => exact .error rfl
  | case3 d word _ => exact .error rfl
  | case4 d word value rest k _ ih => exact (k.apply_failsOnInput value d).bind ih
  | case5 d word value rest _ => exact .error rfl

theorem readParameters_failsOnInput (d : Draft) (words : List Word) :
    FailsOnInput (readParameters d words) := by
  cases words with
  | nil => exact .ok d
  | cons word rest =>
    dsimp only [readParameters]
    split
    · exact readPairs_failsOnInput d _
    · exact (readOctal_failsOnInput word).bind fun n => readPairs_failsOnInput _ rest

theorem readWords_failsOnInput (words : List Word) : FailsOnInput (readWords words) := by
  cases words with
  | nil => exact .error rfl
  | cons switch rest =>
    exact (readSwitch_failsOnInput switch).bind fun _ => readParameters_failsOnInput _ rest

end Directive

theorem failsOnInput_mapError {α ε : Type} {x : Except ε α} {g : ε → SettingsError}
    (bad : ∀ e, (g e).isBadInput = true) : FailsOnInput (x.mapError g) := by
  intro e failed
  obtain ⟨e', -, rfl⟩ := Machine.mapError_eq_error.mp failed
  exact bad e'

namespace Settings

/-- A directive is understood or refused as bad input, whatever it is. -/
theorem ofDirective_failsOnInput (line : String) : FailsOnInput (ofDirective line) :=
  (failsOnInput_mapError fun _ => rfl).bind fun _ =>
    (Directive.readWords_failsOnInput _).bind Draft.settings_failsOnInput

theorem ofPoints_failsOnInput (line : List CodePoint) : FailsOnInput (ofPoints line) :=
  (failsOnInput_mapError fun _ => rfl).bind fun _ =>
    (Directive.readWords_failsOnInput _).bind Draft.settings_failsOnInput

end Settings

/-! ## Mappings -/

/-- Whether a value has a type without a reading as a mode. -/
def Data.Value.isModeless : Value → Bool
  | .null | .bool _ | .int _ | .text _ | .illFormed _ | .bytes _ => false
  | .float _ | .nan _ | .date _ | .moment _ | .list _ | .pairs _ | .mapping _ | .set _ | .again _ =>
      true

namespace Settings

/-- The keys of a mapping that have no meaning. -/
def unknownKeys (entries : List (Value × Value)) : List Value :=
  (entries.filter fun entry =>
    match entry.1 with
    | .text key => !(["enabled", "mode", "dirmode", "skel"].contains key)
    | _ => true).map (·.1)

/-- The value under a key, or null. -/
def entry (entries : List (Value × Value)) (key : String) : Value :=
  (Value.lookup? (.text key) entries).getD .null

/-- The switch that a value stands for. -/
def readSwitchEntry : Value → Except SettingsError Bool
  | .text word => Directive.readSwitch (.ofText word)
  | .illFormed word => Directive.readSwitch (.ofPoints word)
  | v => .ok v.truthy

/-- The mode that a value stands for, where null stands for a default. -/
def readModeEntry (default : Mode) : Value → Except SettingsError Int
  | .null => .ok default.toInt
  | v => Directive.readModeValue v

/-- A mapping without unknown keys is read entry by entry. -/
theorem ofMapping_known {entries : List (Value × Value)} (known : unknownKeys entries = []) :
    ofMapping entries =
      readSwitchEntry (entry entries "enabled") >>= fun enabled =>
        readModeEntry .home (entry entries "mode") >>= fun finalMode =>
          readModeEntry .intermediate (entry entries "dirmode") >>= fun intermediateMode =>
            Draft.settings
              { enabled, finalMode, intermediateMode
                skeleton := if (entry entries "skel").truthy
                  then some (entry entries "skel").plain else none } := by
  have empty := List.isEmpty_iff.mpr (List.map_eq_nil_iff.mp known)
  unfold ofMapping entry
  refine (if_neg fun some_ => ?_).trans ?_
  · rw [Bool.not_eq_true'] at some_
    exact Bool.false_ne_true (some_.symm.trans empty)
  · dsimp only
    generalize (Value.lookup? (.text "enabled") entries).getD .null = switch
    cases switch <;> rfl

/-- A mapping with unknown keys is refused for them. -/
theorem ofMapping_unknown {entries : List (Value × Value)} (unknown : unknownKeys entries ≠ []) :
    ofMapping entries =
      ((Value.sortKeys (unknownKeys entries)).mapError .unorderedKeys >>= fun keys =>
        .error (.unknownKeys (keys.map Value.shown))) := by
  unfold ofMapping
  refine (if_pos ?_).trans ?_
  · rw [Bool.not_eq_true', List.isEmpty_eq_false_iff]
    exact fun none => unknown (List.map_eq_nil_iff.mpr none)
  · change (Except.mapError _ (Value.sortKeys (unknownKeys entries)) >>= _) = _
    cases Value.sortKeys (unknownKeys entries) <;> rfl

theorem readSwitchEntry_failsOnInput (v : Value) : FailsOnInput (readSwitchEntry v) := by
  cases v with
  | text word => exact Directive.readSwitch_failsOnInput _
  | illFormed word => exact Directive.readSwitch_failsOnInput _
  | _ => exact .ok _

theorem readModeEntry_modeless {v : Value} (modeless : v.isModeless = true) (default : Mode) :
    readModeEntry default v = .error .modeType := by
  cases v <;> first | rfl | cases modeless

theorem readModeEntry_failsOnInput {v : Value} (fits : v.isModeless = false) (default : Mode) :
    FailsOnInput (readModeEntry default v) := by
  cases v with
  | null | int => exact .ok _
  | bool b => exact .error rfl
  | text s => exact Directive.readOctal_failsOnInput _
  | illFormed ps => exact Directive.readOctal_failsOnInput _
  | bytes bs => exact Directive.readOctal_failsOnInput _
  | _ => cases fits

/-- A mode is refused as bad input unless its type has no reading as one. -/
theorem readModeEntry_escapes_iff {default : Mode} {v : Value} {e : SettingsError} :
    Escapes (readModeEntry default v) e ↔ v.isModeless = true ∧ e = .modeType := by
  cases fits : v.isModeless with
  | false => exact iff_of_false (readModeEntry_failsOnInput fits default).not_escapes nofun
  | true =>
    rw [readModeEntry_modeless fits]
    constructor
    · exact fun h => ⟨rfl, (Except.error.inj h.1).symm⟩
    · rintro ⟨-, rfl⟩
      exact ⟨rfl, rfl⟩

/-- Whether a mapping is beyond its reader: its unknown keys have no order, or there are none, what
comes before can be read, and a mode has a type without a reading. -/
inductive IsBeyond (entries : List (Value × Value)) : SettingsError → Prop
  | keys {e : Value.OrderError} (unordered : Value.sortKeys (unknownKeys entries) = .error e) :
      IsBeyond entries (.unorderedKeys e)
  | finalMode {enabled : Bool} (known : unknownKeys entries = [])
      (switch : readSwitchEntry (entry entries "enabled") = .ok enabled)
      (modeless : (entry entries "mode").isModeless = true) : IsBeyond entries .modeType
  | intermediateMode {enabled : Bool} {n : Int} (known : unknownKeys entries = [])
      (switch : readSwitchEntry (entry entries "enabled") = .ok enabled)
      (mode : readModeEntry .home (entry entries "mode") = .ok n)
      (modeless : (entry entries "dirmode").isModeless = true) : IsBeyond entries .modeType

/-- A mapping is understood or refused as bad input unless it is beyond its reader. -/
theorem ofMapping_escapes_iff {entries : List (Value × Value)} {e : SettingsError} :
    Escapes (ofMapping entries) e ↔ IsBeyond entries e := by
  by_cases known : unknownKeys entries = []
  · rw [ofMapping_known known, escapes_bind]
    constructor
    · rintro (h | ⟨enabled, switch, h⟩)
      · exact absurd h (readSwitchEntry_failsOnInput _).not_escapes
      rcases escapes_bind.mp h with h | ⟨n, mode, h⟩
      · obtain ⟨modeless, rfl⟩ := readModeEntry_escapes_iff.mp h
        exact .finalMode known switch modeless
      rcases escapes_bind.mp h with h | ⟨n', -, h⟩
      · obtain ⟨modeless, rfl⟩ := readModeEntry_escapes_iff.mp h
        exact .intermediateMode known switch mode modeless
      · exact absurd h (Draft.settings_failsOnInput _).not_escapes
    · intro h
      cases h with
      | keys unordered => rw [known] at unordered; cases unordered
      | finalMode _ switch modeless =>
        refine .inr ⟨_, switch, escapes_bind.mpr (.inl ?_)⟩
        exact readModeEntry_escapes_iff.mpr ⟨modeless, rfl⟩
      | intermediateMode _ switch mode modeless =>
        refine .inr ⟨_, switch, escapes_bind.mpr (.inr ⟨_, mode, escapes_bind.mpr (.inl ?_)⟩)⟩
        exact readModeEntry_escapes_iff.mpr ⟨modeless, rfl⟩
  · rw [ofMapping_unknown known, escapes_bind]
    constructor
    · rintro (⟨failed, -⟩ | ⟨keys, -, failed, other⟩)
      · cases sorted : Value.sortKeys (unknownKeys entries) with
        | ok keys => rw [sorted] at failed; cases failed
        | error e' => rw [sorted] at failed; cases failed; exact .keys sorted
      · cases failed
        cases other
    · intro h
      cases h with
      | keys unordered => exact .inl ⟨by rw [unordered]; rfl, rfl⟩
      | finalMode known' => exact absurd known' known
      | intermediateMode known' => exact absurd known' known

end Settings

/-! ## Documents -/

/-- Whether a document holds no settings: a scalar that is false, an empty collection, or a mapping
that has nothing or null under the settings key. -/
def Yaml.Document.HoldsNone (d : Document) : Prop :=
  match d.view d.root with
  | .scalar v => v.truthy = false
  | .items empty => empty = true
  | .mapping entries => ∀ place, Value.lookup? (.text settingsKey) entries = some place →
      d.view place = .scalar .null

/-- The mapping under the settings key of a document. -/
def Yaml.Document.SettingsMapping (d : Document) (inner : List (Value × Value)) : Prop :=
  ∃ entries place places, d.view d.root = .mapping entries ∧
    Value.lookup? (.text settingsKey) entries = some place ∧ d.view place = .mapping places ∧
    inner = places.map fun entry => (entry.1, d.value entry.2)

namespace Settings

variable {path : String} {d : Document} {e : SettingsError}

/-- The settings that stand at a place of a document. -/
def ofPlace (d : Document) (place : Nat) : Except SettingsError (Option Settings) :=
  match d.view place with
  | .scalar .null => .ok none
  | .scalar (.bool enabled) => .ok (some { enabled })
  | .scalar (.text line) => (ofDirective line).map some
  | .scalar (.illFormed line) => (ofPoints line).map some
  | .scalar v => .error (.unsupported v.shown)
  | .items _ => .error (.unsupported (d.value place).shown)
  | .mapping places => (ofMapping (places.map fun entry => (entry.1, d.value entry.2))).map some

/-- A document is refused or holds none, or what counts is what stands under the settings key. -/
theorem ofDocument_eq (path : String) (d : Document) :
    ofDocument path d =
      match d.view d.root with
      | .scalar v => if v.truthy then .error (.notMapping path) else .ok none
      | .items empty => if empty then .ok none else .error (.notMapping path)
      | .mapping entries =>
          match Value.lookup? (.text settingsKey) entries with
          | none => .ok none
          | some place => ofPlace d place :=
  rfl

theorem map_some_ne (x : Except SettingsError Settings) : x.map some ≠ .ok none := by
  cases x <;> simp [Except.map]

theorem ofPlace_eq_none_iff {place : Nat} :
    ofPlace d place = .ok none ↔ d.view place = .scalar .null := by
  unfold ofPlace
  cases d.view place with
  | scalar v => cases v <;> simp [map_some_ne]
  | mapping places => simp [map_some_ne]
  | items empty => simp

theorem ofPlace_escapes_iff {place : Nat} :
    Escapes (ofPlace d place) e ↔ ∃ places, d.view place = .mapping places ∧
      IsBeyond (places.map fun entry => (entry.1, d.value entry.2)) e := by
  unfold ofPlace
  cases d.view place with
  | scalar v =>
    refine iff_of_false ?_ fun ⟨_, bad, _⟩ => nomatch bad
    cases v with
    | null | bool _ => exact not_escapes_ok
    | text line => exact fun h => (ofDirective_failsOnInput line).not_escapes (escapes_map.mp h)
    | illFormed line => exact fun h => (ofPoints_failsOnInput line).not_escapes (escapes_map.mp h)
    | _ => exact (FailsOnInput.error rfl).not_escapes
  | mapping places =>
    dsimp only
    rw [escapes_map, ofMapping_escapes_iff]
    simp
  | items empty =>
    exact iff_of_false (FailsOnInput.error rfl).not_escapes fun ⟨_, bad, _⟩ => nomatch bad

/-- Which documents are taken for ones without settings. -/
theorem ofDocument_eq_none_iff : ofDocument path d = .ok none ↔ d.HoldsNone := by
  rw [ofDocument_eq]
  unfold Document.HoldsNone
  cases d.view d.root with
  | scalar v => cases v.truthy <;> simp
  | items empty => cases empty <;> simp
  | mapping entries =>
    dsimp only
    cases Value.lookup? (.text settingsKey) entries with
    | none => simp
    | some place => simp [ofPlace_eq_none_iff]

/-- A document is understood or refused as bad input unless its settings are a mapping that is
beyond its reader. -/
theorem ofDocument_escapes_iff :
    Escapes (ofDocument path d) e ↔ ∃ inner, d.SettingsMapping inner ∧ IsBeyond inner e := by
  rw [ofDocument_eq]
  unfold Document.SettingsMapping
  cases d.view d.root with
  | scalar v =>
    refine iff_of_false ?_ fun ⟨_, ⟨_, _, _, bad, _⟩, _⟩ => nomatch bad
    dsimp only
    split
    · exact (FailsOnInput.error rfl).not_escapes
    · exact not_escapes_ok
  | items empty =>
    refine iff_of_false ?_ fun ⟨_, ⟨_, _, _, bad, _⟩, _⟩ => nomatch bad
    cases empty with
    | true => exact not_escapes_ok
    | false => exact (FailsOnInput.error rfl).not_escapes
  | mapping entries =>
    dsimp only
    cases found : Value.lookup? (.text settingsKey) entries with
    | none =>
      refine iff_of_false not_escapes_ok ?_
      rintro ⟨_, ⟨_, _, _, same, there, _⟩, _⟩
      cases same
      rw [found] at there
      cases there
    | some place =>
      dsimp only
      rw [ofPlace_escapes_iff]
      constructor
      · rintro ⟨places, view, beyond⟩
        exact ⟨_, ⟨entries, place, places, rfl, found, view, rfl⟩, beyond⟩
      · rintro ⟨_, ⟨_, _, places, same, there, view, rfl⟩, beyond⟩
        cases same
        cases found.symm.trans there
        exact ⟨places, view, beyond⟩

end Settings

/-! ## Files -/

/-- The document in the content of a file, if the content is one. -/
def documentOf (content : List UInt8) : Except SettingsError (Option Document) := do
  let text ← (readText content).mapError .encoding
  (Document.ofText text).mapError .document

namespace Settings

variable {path : String} {content : List UInt8} {e : SettingsError}

/-- Whether the content of a file holds no settings. -/
def HoldsNone (content : List UInt8) : Prop :=
  documentOf content = .ok none ∨ ∃ d, documentOf content = .ok (some d) ∧ d.HoldsNone

/-- Whether the content of a file is beyond its reader: a value in the document cannot be built for
a cause that is no bad input, or the settings are a mapping beyond its reader. -/
def IsBeyondContent (content : List UInt8) (e : SettingsError) : Prop :=
  Escapes (documentOf content) e ∨
    ∃ d inner, documentOf content = .ok (some d) ∧ d.SettingsMapping inner ∧ IsBeyond inner e

theorem ofContent_eq (path : String) (content : List UInt8) :
    ofContent path content =
      match documentOf content with
      | .ok none => .ok none
      | .ok (some d) => ofDocument path d
      | .error (.document .malformed) => .error (.malformed path)
      | .error e => .error e := by
  unfold ofContent documentOf
  cases readText content with
  | error e => rfl
  | ok text =>
    dsimp only [Except.mapError, bind, Except.bind]
    cases Document.ofText text with
    | error e => cases e <;> rfl
    | ok d? => cases d? <;> rfl

/-- Which files are taken for ones without settings. -/
theorem ofContent_eq_none_iff : ofContent path content = .ok none ↔ HoldsNone content := by
  rw [ofContent_eq]
  unfold HoldsNone
  cases documentOf content with
  | ok d? =>
    cases d? with
    | none => simp
    | some d => simp [ofDocument_eq_none_iff]
  | error e => split <;> simp_all

/-- A file is understood or refused as bad input unless it is beyond its reader. -/
theorem ofContent_escapes_iff :
    Escapes (ofContent path content) e ↔ IsBeyondContent content e := by
  rw [ofContent_eq]
  unfold IsBeyondContent
  cases documentOf content with
  | ok d? =>
    cases d? with
    | none =>
      refine iff_of_false not_escapes_ok ?_
      rintro (h | ⟨_, _, bad, _⟩)
      · exact not_escapes_ok h
      · cases bad
    | some d =>
      dsimp only
      rw [ofDocument_escapes_iff]
      constructor
      · rintro ⟨inner, mapping, beyond⟩
        exact .inr ⟨d, inner, rfl, mapping, beyond⟩
      · rintro (h | ⟨_, inner, same, mapping, beyond⟩)
        · exact absurd h not_escapes_ok
        · cases same
          exact ⟨inner, mapping, beyond⟩
  | error e' =>
    refine Iff.trans ?_ (or_iff_left fun ⟨_, _, bad, _⟩ => nomatch bad).symm
    split
    · next bad => cases bad
    · next bad => cases bad
    · next malformed =>
      cases malformed
      rw [escapes_error, escapes_error]
      constructor <;> · rintro ⟨rfl, other⟩; cases other
    · next same =>
      cases same
      exact escapes_error.trans escapes_error.symm

end Settings

/-! ## Loading -/

/-- What is found at the path of a configuration file. -/
inductive Found where
  | absent
  | content (bytes : List UInt8)
  /-- A file that the system does not let us read. -/
  | unreadable (e : SystemError)
  /-- A look or a reading that fails in another way. -/
  | failed (f : Fault)

/-- What a world shows at the path of a configuration file: first the file is looked at, and if it
is there it is read. -/
def Layer.found {σ : Type} (world : Layer σ) (path : String) (s : σ) : Found :=
  match world.reply (.stat path) s with
  | (.error f, _) => if f.meansAbsent then .absent else .failed f
  | (.ok _, s') =>
      match (world.reply (.readFile path) s').1 with
      | .ok bytes => .content bytes
      | .error (.system e) => .unreadable e
      | .error f => .failed f

namespace Program

variable {σ : Type} {world : Layer σ} {s : σ} {path : String}

/-- A look decides whether there is a file. -/
theorem fileExists_run :
    (fileExists path).run world s =
      match world.reply (.stat path) s with
      | (.error f, s') => (if f.meansAbsent then .ok false else .error f, s')
      | (.ok _, s') => (.ok true, s') := by
  unfold fileExists stat
  rw [bind_eq, run_bind, run_outcome, run_call, run_ofExcept]
  generalize world.reply (.stat path) s = looked
  obtain ⟨_ | _, s'⟩ := looked
  · dsimp only
    split <;> rfl
  · rfl

theorem readConfiguration_run :
    ((readConfiguration path).run world s).1 =
      match (world.reply (.readFile path) s).1 with
      | .ok bytes => .ok bytes
      | .error (.system e) => .error (.settings (.unreadable path (unreadableReason e)))
      | .error f => .error f := by
  unfold readConfiguration readFile
  rw [bind_eq, run_bind, run_attempt, run_call, run_ofExcept]
  generalize world.reply (.readFile path) s = given
  obtain ⟨f | _, s'⟩ := given
  · cases f <;> rfl
  · rfl

/-- Loading comes to what is made of what is found. -/
theorem loadSettings_run :
    ((loadSettings path).run world s).1 =
      match world.found (Path.plain path) s with
      | .absent => .ok none
      | .content bytes => (Settings.ofContent (Path.plain path) bytes).mapError .settings
      | .unreadable e =>
          .error (.settings (.unreadable (Path.plain path) (unreadableReason e)))
      | .failed f => .error f := by
  unfold loadSettings Layer.found
  dsimp only
  rw [bind_eq, run_bind, fileExists_run]
  generalize world.reply (.stat (Path.plain path)) s = looked
  obtain ⟨f | _, s'⟩ := looked
  · dsimp only
    cases f.meansAbsent <;> rfl
  · dsimp only
    rw [if_pos rfl, bind_eq, run_bind]
    have content : ((readConfiguration (Path.plain path)).run world s').1 = _ :=
      readConfiguration_run
    generalize (readConfiguration (Path.plain path)).run world s' = given at content ⊢
    obtain ⟨out, s''⟩ := given
    generalize (world.reply (.readFile (Path.plain path)) s').1 = reply at content ⊢
    dsimp only at content
    subst content
    rcases reply with f | bytes
    · cases f <;> rfl
    · exact congrArg Prod.fst (run_ofExcept world _ s'')

theorem mapError_settings_escapes_iff {x : Except SettingsError (Option Settings)} {f : Fault} :
    x.mapError .settings = .error f ∧ f.isBadInput = false ↔
      ∃ e, f = .settings e ∧ Escapes x e := by
  rw [Machine.mapError_eq_error]
  constructor
  · rintro ⟨⟨e, failed, rfl⟩, other⟩
    exact ⟨e, rfl, failed, other⟩
  · rintro ⟨e, rfl, failed, other⟩
    exact ⟨⟨e, failed, rfl⟩, other⟩

/-- How loading ends. It gives no settings if and only if there is no file or the content of the
file is taken for empty. And it is refused for a cause that is no bad input if and only if the
system fails to show the file or its content is beyond the reader. -/
theorem loadSettings_ends (world : Layer σ) (s : σ) (path : String) :
    (((loadSettings path).run world s).1 = .ok none ↔
      world.found (Path.plain path) s = .absent ∨
        ∃ bytes, world.found (Path.plain path) s = .content bytes ∧ Settings.HoldsNone bytes) ∧
    ∀ f, ((loadSettings path).run world s).1 = .error f ∧ f.isBadInput = false ↔
      (world.found (Path.plain path) s = .failed f ∧ f.isBadInput = false) ∨
        ∃ bytes e, world.found (Path.plain path) s = .content bytes ∧ f = .settings e ∧
          Settings.IsBeyondContent bytes e := by
  rw [loadSettings_run]
  cases world.found (Path.plain path) s with
  | absent => simp
  | unreadable e =>
    refine ⟨by simp, fun f => iff_of_false ?_ (by simp)⟩
    rintro ⟨same, other⟩
    cases same
    cases other
  | failed f => simp
  | content bytes =>
    dsimp only
    constructor
    · rw [Machine.mapError_eq_ok, Settings.ofContent_eq_none_iff]
      simp
    · intro f
      rw [mapError_settings_escapes_iff]
      simp [Settings.ofContent_escapes_iff]

/-- A list without items is read as no settings. -/
example : Settings.ofContent "/etc/mkhome.yaml" "[]\n".toUTF8.toList = .ok none := by
  decide +kernel

/-- A list in place of a mode is refused for a cause that is no bad input. -/
example : Settings.ofContent "/etc/mkhome.yaml" "CreateHome:\n  mode: [7]\n".toUTF8.toList =
    .error .modeType := by
  decide +kernel

end Program

end HomeProvision
