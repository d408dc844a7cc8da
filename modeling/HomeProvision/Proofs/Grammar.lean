import HomeProvision.Proofs.LetterCase
import HomeProvision.Proofs.Loaded
import HomeProvision.Proofs.OctalNumeral

/-!
# The grammar of directives

A directive is a line of words: a switch, then perhaps a mode, then pairs of a keyword and its value
(`Describes`). Switches and keywords may be in any case, modes are numerals in base eight, and of the
pairs with one keyword the last one counts. A line is accepted exactly if it is a way to write such
words and the two modes that count are permission modes, and then the settings are those that the
words describe. Every other line is refused as bad input (`ofDirective_grammar`).

The keyword of a pair can be told from the mode before it, since a keyword is no numeral; and a value
is never taken for a keyword, since the pairs are read from the left.
-/

namespace HomeProvision

open HomeProvision.Text HomeProvision.Number

namespace Directive

/-! ## The grammar -/

/-- The word that a keyword is. -/
def Keyword.text : Keyword → String
  | .skeleton => "skel"
  | .intermediateMode => "dirmode"

/-- What a pair of a keyword and its value sets. -/
inductive Setting where
  | skeleton (path : String)
  | intermediateMode (n : Int)

namespace Setting

/-- The path of a skeleton. -/
def skeleton? : Setting → Option String
  | skeleton path => some path
  | intermediateMode _ => none

/-- The mode of directories above the home. -/
def intermediateMode? : Setting → Option Int
  | skeleton _ => none
  | intermediateMode n => some n

end Setting

/-- A word that is a switch, and its truth value. -/
inductive SpellsSwitch : (text : String) → Bool → Prop
  | on {word text : String} (known : word ∈ onWords) (same : AnyCase word text) :
      SpellsSwitch text true
  | off {word text : String} (known : word ∈ offWords) (same : AnyCase word text) :
      SpellsSwitch text false

/-- No word, or one that is a mode and no keyword, and the mode. -/
inductive SpellsMode : (words : List String) → Option Int → Prop
  | none : SpellsMode [] none
  | some {word : String} {n : Int} (other : ∀ k : Keyword, ¬ AnyCase k.text word)
      (octal : SpellsOctal word.toList n) : SpellsMode [word] (some n)

/-- Words that are pairs, and what they set. -/
inductive SpellsPairs : (words : List String) → List Setting → Prop
  | done : SpellsPairs [] []
  | skeleton {key value : String} {words : List String} {settings : List Setting}
      (keyword : AnyCase "skel" key) (rest : SpellsPairs words settings) :
      SpellsPairs (key :: value :: words) (.skeleton value :: settings)
  | intermediateMode {key value : String} {n : Int} {words : List String} {settings : List Setting}
      (keyword : AnyCase "dirmode" key) (octal : SpellsOctal value.toList n)
      (rest : SpellsPairs words settings) :
      SpellsPairs (key :: value :: words) (.intermediateMode n :: settings)

/-- The skeleton of the last pair that sets one. -/
def lastSkeleton (settings : List Setting) : Option String :=
  (settings.filterMap Setting.skeleton?).getLast?

/-- The mode of the last pair that sets one. -/
def lastIntermediateMode (settings : List Setting) : Option Int :=
  (settings.filterMap Setting.intermediateMode?).getLast?

/-- The words of a directive, and what they describe. -/
inductive Describes : (words : List String) → Draft → Prop
  | mk {switch : String} {modes pairs : List String} {enabled : Bool} {mode : Option Int}
      {settings : List Setting} (switched : SpellsSwitch switch enabled)
      (moded : SpellsMode modes mode) (paired : SpellsPairs pairs settings) :
      Describes (switch :: (modes ++ pairs)) {
        enabled
        finalMode := mode.getD Mode.home.toInt
        intermediateMode := (lastIntermediateMode settings).getD Mode.intermediate.toInt
        skeleton := lastSkeleton settings }

/-! ## Words -/

theorem ascii_words : (∀ word ∈ onWords ++ offWords, IsAscii word.toList) ∧
    ∀ k : Keyword, IsAscii k.text.toList := by
  refine ⟨?_, fun k => ?_⟩
  · decide
  · cases k <;> decide

section

variable {word : Word} {k : Keyword} {d d' : Draft}

theorem ofWord?_eq_some_iff : Keyword.ofWord? word = some k ↔ AnyCase k.text word.text := by
  rw [anyCase_iff (ascii_words.2 k)]
  unfold Keyword.ofWord?
  by_cases skeleton : lowerCase word.text = "skel"
  · cases k <;> simp [skeleton, Keyword.text]
  by_cases intermediateMode : lowerCase word.text = "dirmode"
  · cases k <;> simp [intermediateMode, Keyword.text]
  · cases k <;> simp [skeleton, intermediateMode, Keyword.text]

theorem ofWord?_eq_none_iff :
    Keyword.ofWord? word = none ↔ ∀ k : Keyword, ¬ AnyCase k.text word.text := by
  rw [Option.eq_none_iff_forall_ne_some]
  exact forall_congr' fun k => not_congr ofWord?_eq_some_iff

theorem readSwitch_eq_ok_iff {enabled : Bool} :
    readSwitch word = .ok enabled ↔ SpellsSwitch word.text enabled := by
  have ascii {known : String} (mem : known ∈ onWords ++ offWords) :
      AnyCase known word.text ↔ lowerCase word.text = known := anyCase_iff (ascii_words.1 known mem)
  have apart : ∀ known ∈ offWords, known ∉ onWords := by decide
  unfold readSwitch
  simp only [List.contains_iff_mem]
  constructor
  · intro read
    split at read
    · next known =>
      cases read
      exact .on known ((ascii (List.mem_append_left _ known)).mpr rfl)
    · split at read
      · next known =>
        cases read
        exact .off known ((ascii (List.mem_append_right _ known)).mpr rfl)
      · cases read
  · intro spells
    cases spells with
    | on known same =>
      rw [(ascii (List.mem_append_left _ known)).mp same, if_pos known]
    | off known same =>
      rw [(ascii (List.mem_append_right _ known)).mp same, if_neg (apart _ known), if_pos known]

theorem readOctal_eq_ok_iff {n : Int} : readOctal word = .ok n ↔ SpellsOctal word.text.toList n := by
  rw [← octal?_eq_some_iff]
  unfold readOctal
  cases octal? word.text <;> simp

theorem apply_intermediateMode_eq_ok_iff :
    Keyword.intermediateMode.apply word d = .ok d' ↔
      ∃ n, SpellsOctal word.text.toList n ∧ { d with intermediateMode := n } = d' := by
  simp only [Keyword.apply, ← readOctal_eq_ok_iff]
  cases readOctal word <;> simp [Except.map]

end

/-! ## Pairs -/

/-- A draft with what pairs set. -/
def Setting.applyAll (settings : List Setting) (d : Draft) : Draft :=
  { d with
    skeleton := (lastSkeleton settings).or d.skeleton
    intermediateMode := (lastIntermediateMode settings).getD d.intermediateMode }

theorem Setting.applyAll_skeleton (path : String) (settings : List Setting) (d : Draft) :
    Setting.applyAll (.skeleton path :: settings) d =
      Setting.applyAll settings { d with skeleton := some path } := by
  unfold Setting.applyAll lastSkeleton lastIntermediateMode
  simp only [List.filterMap_cons, Setting.skeleton?, Setting.intermediateMode?, List.getLast?_cons]
  cases (settings.filterMap Setting.skeleton?).getLast? <;> rfl

theorem Setting.applyAll_intermediateMode (n : Int) (settings : List Setting) (d : Draft) :
    Setting.applyAll (.intermediateMode n :: settings) d =
      Setting.applyAll settings { d with intermediateMode := n } := by
  unfold Setting.applyAll lastSkeleton lastIntermediateMode
  simp only [List.filterMap_cons, Setting.skeleton?, Setting.intermediateMode?, List.getLast?_cons]
  rfl

/-- Pairs begin with a keyword. -/
theorem SpellsPairs.head {text : String} {texts : List String} {settings : List Setting}
    (spells : SpellsPairs (text :: texts) settings) : ∃ k : Keyword, AnyCase k.text text := by
  cases spells with
  | skeleton same => exact ⟨.skeleton, same⟩
  | intermediateMode same => exact ⟨.intermediateMode, same⟩

theorem exists_pair {words : List Word} {key value : String} {texts : List String}
    (same : words.map Word.text = key :: value :: texts) :
    ∃ k v rest, words = k :: v :: rest ∧ k.text = key ∧ v.text = value ∧
      rest.map Word.text = texts := by
  obtain ⟨k, _, rfl, first, same⟩ := List.map_eq_cons_iff.mp same
  obtain ⟨v, rest, rfl, second, same⟩ := List.map_eq_cons_iff.mp same
  exact ⟨k, v, rest, rfl, first, second, same⟩

/-- Words that spell pairs are read as them. -/
theorem SpellsPairs.read {texts : List String} {settings : List Setting}
    (spells : SpellsPairs texts settings) {words : List Word} (same : words.map Word.text = texts)
    (d : Draft) : readPairs d words = .ok (Setting.applyAll settings d) := by
  induction spells generalizing words d with
  | done =>
    obtain rfl := List.map_eq_nil_iff.mp same
    rfl
  | skeleton keyword _ ih =>
    obtain ⟨key, value, rest, rfl, rfl, rfl, others⟩ := exists_pair same
    have known : Keyword.ofWord? key = some .skeleton := ofWord?_eq_some_iff.mpr keyword
    rw [readPairs, known, Setting.applyAll_skeleton]
    exact ih others _
  | intermediateMode keyword octal _ ih =>
    obtain ⟨key, value, rest, rfl, rfl, rfl, others⟩ := exists_pair same
    have known : Keyword.ofWord? key = some .intermediateMode := ofWord?_eq_some_iff.mpr keyword
    rw [readPairs, known, Setting.applyAll_intermediateMode]
    exact Machine.bind_eq_ok.mpr ⟨_, apply_intermediateMode_eq_ok_iff.mpr ⟨_, octal, rfl⟩, ih others _⟩

/-- Words that are read as pairs spell them. -/
theorem spells_of_readPairs {words : List Word} {d d' : Draft} (read : readPairs d words = .ok d') :
    ∃ settings, SpellsPairs (words.map Word.text) settings ∧ Setting.applyAll settings d = d' := by
  fun_induction readPairs d words with
  | case1 d =>
    cases read
    exact ⟨[], .done, rfl⟩
  | case2 | case3 | case5 => cases read
  | case4 d key value rest k keyword ih =>
    have same := ofWord?_eq_some_iff.mp keyword
    obtain ⟨d₁, applied, read⟩ := Machine.bind_eq_ok.mp read
    obtain ⟨settings, spells, rfl⟩ := ih d₁ read
    cases k with
    | skeleton =>
      cases applied
      exact ⟨_, .skeleton same spells, Setting.applyAll_skeleton _ _ _⟩
    | intermediateMode =>
      obtain ⟨n, octal, rfl⟩ := apply_intermediateMode_eq_ok_iff.mp applied
      exact ⟨_, .intermediateMode same octal spells, Setting.applyAll_intermediateMode _ _ _⟩

/-! ## Directives -/

/-- Words that spell a mode, or none, and pairs are read as them. -/
theorem SpellsPairs.read_after {modes pairs : List String} {mode : Option Int}
    {settings : List Setting} (paired : SpellsPairs pairs settings) (moded : SpellsMode modes mode)
    {words : List Word} (same : words.map Word.text = modes ++ pairs) (d : Draft) :
    readParameters d words =
      .ok (Setting.applyAll settings { d with finalMode := mode.getD d.finalMode }) := by
  cases moded with
  | none =>
    rw [List.nil_append] at same
    subst same
    cases words with
    | nil => exact paired.read rfl d
    | cons word rest =>
      obtain ⟨k, keyword⟩ := paired.head
      rw [readParameters, ofWord?_eq_some_iff.mpr keyword]
      exact paired.read rfl d
  | some other octal =>
    obtain ⟨word, rest, rfl, rfl, others⟩ := List.map_eq_cons_iff.mp same
    rw [readParameters, ofWord?_eq_none_iff.mpr other]
    exact Machine.bind_eq_ok.mpr ⟨_, readOctal_eq_ok_iff.mpr octal, paired.read others _⟩

/-- Words that are read after a switch spell a mode, or none, and pairs. -/
theorem spells_of_readParameters {words : List Word} {d d' : Draft}
    (read : readParameters d words = .ok d') :
    ∃ modes pairs mode settings, words.map Word.text = modes ++ pairs ∧ SpellsMode modes mode ∧
      SpellsPairs pairs settings ∧
      Setting.applyAll settings { d with finalMode := mode.getD d.finalMode } = d' := by
  cases words with
  | nil =>
    cases read
    exact ⟨[], [], none, [], rfl, .none, .done, rfl⟩
  | cons word rest =>
    rw [readParameters] at read
    cases keyword : Keyword.ofWord? word with
    | some k =>
      rw [keyword] at read
      obtain ⟨settings, paired, rfl⟩ := spells_of_readPairs read
      exact ⟨[], _, none, settings, rfl, .none, paired, rfl⟩
    | none =>
      rw [keyword] at read
      obtain ⟨n, octal, read⟩ := Machine.bind_eq_ok.mp read
      obtain ⟨settings, paired, rfl⟩ := spells_of_readPairs read
      exact ⟨[word.text], rest.map Word.text, some n, settings, rfl,
        .some (ofWord?_eq_none_iff.mp keyword) (readOctal_eq_ok_iff.mp octal), paired, rfl⟩

/-- Words are read as what they describe. -/
theorem readWords_eq_ok_iff {words : List Word} {d : Draft} :
    readWords words = .ok d ↔ Describes (words.map Word.text) d := by
  cases words with
  | nil => exact ⟨fun bad => (by cases bad), fun bad => by cases bad⟩
  | cons switch rest =>
    rw [List.map_cons, readWords]
    constructor
    · intro read
      obtain ⟨enabled, switched, read⟩ := Machine.bind_eq_ok.mp read
      obtain ⟨modes, pairs, mode, settings, split, moded, paired, rfl⟩ :=
        spells_of_readParameters read
      rw [split]
      have described := Describes.mk (readSwitch_eq_ok_iff.mp switched) moded paired
      simpa [Setting.applyAll] using described
    · intro described
      generalize split : rest.map Word.text = texts at described
      cases described with
      | mk switched moded paired =>
        refine Machine.bind_eq_ok.mpr ⟨_, readSwitch_eq_ok_iff.mpr switched, ?_⟩
        rw [paired.read_after moded split]
        simp [Setting.applyAll]

end Directive

/-! ## Settings -/

/-- Whether the modes of a draft are permission modes. -/
def Draft.InRange (d : Draft) : Prop :=
  (0 ≤ d.finalMode ∧ d.finalMode ≤ 0o7777) ∧ 0 ≤ d.intermediateMode ∧ d.intermediateMode ≤ 0o7777

theorem checkMode_eq_ok_iff {n : Int} {m : Mode} : checkMode n = .ok m ↔ m.toInt = n := by
  refine ⟨fun checked => ?_, fun same => same ▸ checkMode_toInt m⟩
  unfold checkMode Mode.ofInt? at checked
  split at checked
  · next made =>
    cases checked
    split at made <;> cases made
    next valid => exact Int.toNat_of_nonneg valid.1
  · cases checked

theorem exists_mode {n : Int} : (∃ m : Mode, m.toInt = n) ↔ 0 ≤ n ∧ n ≤ 0o7777 := by
  constructor
  · rintro ⟨⟨bits, bits_le⟩, rfl⟩
    unfold modeLimit at bits_le
    exact ⟨Int.natCast_nonneg bits, by simpa [Mode.toInt] using Int.ofNat_le.mpr bits_le⟩
  · rintro ⟨low, high⟩
    exact ⟨⟨n.toNat, by unfold modeLimit; omega⟩, Int.toNat_of_nonneg low⟩

/-- Settings come of a draft where they have it. -/
theorem Draft.settings_eq_ok_iff {d : Draft} {s : Settings} : d.settings = .ok s ↔ s.draft = d := by
  refine ⟨fun made => ?_, fun same => same ▸ Draft.settings_draft s⟩
  have made := Machine.mapError_eq_ok.mp made
  unfold Draft.check Settings.checked at made
  split at made
  · next finalMode intermediateMode checked checked' =>
    cases made
    unfold Settings.draft
    rw [checkMode_eq_ok_iff.mp checked, checkMode_eq_ok_iff.mp checked']
  · cases made

theorem Draft.inRange_iff {d : Draft} : d.InRange ↔ ∃ s : Settings, s.draft = d := by
  unfold Draft.InRange
  rw [← exists_mode, ← exists_mode]
  constructor
  · rintro ⟨⟨finalMode, final⟩, intermediateMode, above⟩
    refine ⟨{ enabled := d.enabled, finalMode, intermediateMode, skeleton := d.skeleton }, ?_⟩
    unfold Settings.draft
    rw [final, above]
  · rintro ⟨s, rfl⟩
    exact ⟨⟨s.finalMode, rfl⟩, s.intermediateMode, rfl⟩

namespace Settings

open Directive

variable {s : Settings}

theorem ofDirective_eq_ok_iff {line : String} :
    ofDirective line = .ok s ↔ ∃ words, SpellsLine line words ∧ Describes words s.draft := by
  have same : ∀ words : List String, (words.map Word.ofText).map Word.text = words := by
    intro words
    rw [List.map_map]
    exact List.map_id' words
  unfold ofDirective
  simp only [Machine.bind_eq_ok, Machine.mapError_eq_ok, splitWords_eq_ok_iff, readWords_eq_ok_iff,
    Draft.settings_eq_ok_iff, same]
  simp

theorem ofPoints_eq_ok_iff {points : List CodePoint} :
    ofPoints points = .ok s ↔ ofDirective (CodePoint.seenText points) = .ok s := by
  have same : ∀ words : List (List CodePoint),
      (words.map Word.ofPoints).map Word.text = words.map CodePoint.seenText := by
    intro words
    rw [List.map_map]
    rfl
  rw [ofDirective_eq_ok_iff]
  unfold ofPoints
  simp only [Machine.bind_eq_ok, Machine.mapError_eq_ok, readWords_eq_ok_iff,
    Draft.settings_eq_ok_iff, same, ← splitWords_eq_ok_iff, splitWords_seenText]
  cases splitPoints points <;> simp [Except.map]

/-- A reading that fails on bad input gives something or is refused as bad input. -/
theorem ok_or_refused {α : Type} {x : Except SettingsError α} (h : FailsOnInput x) :
    (∃ a, x = .ok a) ∨ ∃ e, x = .error e ∧ e.isBadInput = true := by
  cases x with
  | ok a => exact .inl ⟨a, rfl⟩
  | error e => exact .inr ⟨e, rfl, h e rfl⟩

/-- The grammar of directives is accepted exactly. Settings with the values of a draft come of a line
if and only if the line is a way to write words that describe the draft, and both its modes are
permission modes. A line of which no settings come is refused as bad input. A line with code points in
it that are no characters gives the settings that come of what shows of it. -/
theorem ofDirective_grammar (line : String) :
    (∀ d : Draft, (∃ s, ofDirective line = .ok s ∧ s.draft = d) ↔
      (∃ words, SpellsLine line words ∧ Describes words d) ∧ d.InRange) ∧
    ((∃ s, ofDirective line = .ok s) ∨ ∃ e, ofDirective line = .error e ∧ e.isBadInput = true) ∧
    ∀ points : List CodePoint,
      (∀ s, ofPoints points = .ok s ↔ ofDirective (CodePoint.seenText points) = .ok s) ∧
      ((∃ s, ofPoints points = .ok s) ∨ ∃ e, ofPoints points = .error e ∧ e.isBadInput = true) := by
  refine ⟨fun d => ?_, ok_or_refused (ofDirective_failsOnInput line), fun points =>
    ⟨fun s => ofPoints_eq_ok_iff, ok_or_refused (ofPoints_failsOnInput points)⟩⟩
  rw [Draft.inRange_iff]
  constructor
  · rintro ⟨s, read, rfl⟩
    exact ⟨ofDirective_eq_ok_iff.mp read, s, rfl⟩
  · rintro ⟨described, s, rfl⟩
    exact ⟨s, ofDirective_eq_ok_iff.mpr described, rfl⟩

/-- A value may look like a keyword, and the last mode counts. -/
example : ofDirective "ON DirMode 0o7777 skel dirmode dirmode 7_55" = .ok {
    enabled := true, intermediateMode := { bits := 0o755 }, skeleton := some "dirmode" } := by
  decide +kernel

end Settings

end HomeProvision
