import HomeProvision.Command.Run
import HomeProvision.Machine.Basic
import HomeProvision.Proofs.Contract
import HomeProvision.Proofs.Numerals
import HomeProvision.Proofs.Spelling

/-!
# Ways to write settings

Settings can be written down as a directive and are read back unchanged, whatever the path of the
skeleton holds (`Settings.ofDirective_written`).

A switch with a mode, a skeleton and a mode of directories above, each of which may be missing
(`Choice`), can be given as a directive, as a mapping and, if it is switched on, by options. All
three give the same settings or are refused (`Choice.readings_agree`). A mode that is spelled like a
keyword is taken for one by the directive alone, and still no reading comes to settings: a keyword is
no numeral, and the words of the directive do not pair up any more.
-/

namespace HomeProvision

open HomeProvision.Data HomeProvision.Text HomeProvision.Command

/-! ## Modes -/

theorem checkMode_toInt (m : Mode) : checkMode m.toInt = .ok m := by
  obtain ⟨bits, bits_le⟩ := m
  simp [checkMode, Mode.ofInt?, Mode.toInt, bits_le]

/-- Settings are what their draft checks to. -/
theorem Draft.settings_draft (s : Settings) : s.draft.settings = .ok s := by
  unfold Draft.settings Draft.check Settings.draft
  rw [checkMode_toInt, checkMode_toInt]
  rfl

/-! ## Refusals -/

/-- Whether a reading fails on bad input only. -/
def FailsOnInput {α : Type} (x : Except SettingsError α) : Prop :=
  ∀ e, x = .error e → e.isBadInput = true

namespace FailsOnInput

variable {α β : Type} {x : Except SettingsError α}

theorem ok (a : α) : FailsOnInput (.ok a) :=
  fun _ bad => by cases bad

theorem bind {k : α → Except SettingsError β} (first : FailsOnInput x)
    (onward : ∀ a, FailsOnInput (k a)) : FailsOnInput (x >>= k) := by
  cases x with
  | ok a => exact onward a
  | error e => exact fun e' same => by cases same; exact first e rfl

end FailsOnInput

theorem Draft.settings_failsOnInput (d : Draft) : FailsOnInput d.settings := by
  intro e failed
  unfold Draft.settings at failed
  cases checked : d.check with
  | ok s => rw [checked] at failed; cases failed
  | error problems => rw [checked] at failed; cases failed; rfl

namespace Directive

theorem readSwitch_failsOnInput (word : Word) : FailsOnInput (readSwitch word) := by
  intro e failed
  unfold readSwitch at failed
  split at failed
  · cases failed
  · split at failed <;> cases failed
    rfl

theorem readOctal_failsOnInput (word : Word) : FailsOnInput (readOctal word) := by
  intro e failed
  unfold readOctal at failed
  split at failed <;> cases failed
  rfl

theorem Keyword.apply_failsOnInput (k : Keyword) (value : Word) (d : Draft) :
    FailsOnInput (k.apply value d) := by
  cases k with
  | skeleton => exact .ok _
  | intermediateMode =>
    intro e failed
    unfold Keyword.apply at failed
    cases read : readOctal value with
    | ok n => rw [read] at failed; cases failed
    | error e' =>
      rw [read] at failed
      cases failed
      exact readOctal_failsOnInput value _ read

/-! ## Keywords -/

theorem lowerChar_eq {c low high : Char} (same : lowerChar c = low) (other : low ≠ 'k')
    (pair : high.val + 32 = low.val) : c = low ∨ c = high := by
  unfold lowerChar at same
  split at same
  · exact absurd same.symm other
  unfold Char.toLower at same
  split at same
  · refine .inr (Char.ext ((UInt32.add_left_inj 32).mp (Eq.trans ?_ pair.symm)))
    exact congrArg Char.val same
  · exact .inl same

/-- A text that begins in lower case with some character. -/
theorem starts_of_lowerCase {s : String} (low high : Char) {cs : List Char}
    (same : lowerCase s = String.ofList (low :: cs)) (other : low ≠ 'k')
    (pair : high.val + 32 = low.val) :
    ∃ c rest, s.toList = c :: rest ∧ (c = low ∨ c = high) := by
  have mapped : s.toList.map lowerChar = low :: cs := String.ofList_injective same
  obtain ⟨c, rest, starts, first, -⟩ := List.map_eq_cons_iff.mp mapped
  exact ⟨c, rest, starts, lowerChar_eq first other pair⟩

/-- A keyword is no mode. -/
theorem readOctal_keyword {word : Word} {k : Keyword} (keyword : Keyword.ofWord? word = some k) :
    readOctal word = .error (.badMode word.shown) := by
  have starts : ∃ c rest, word.text.toList = c :: rest ∧ c ∈ ['s', 'S', 'd', 'D'] := by
    unfold Keyword.ofWord? at keyword
    split at keyword
    · next skeleton =>
      obtain ⟨c, rest, starts, first⟩ :=
        starts_of_lowerCase 's' 'S' skeleton (by decide) rfl
      exact ⟨c, rest, starts, by rcases first with rfl | rfl <;> decide⟩
    · split at keyword
      · next dirmode =>
        obtain ⟨c, rest, starts, first⟩ :=
          starts_of_lowerCase 'd' 'D' dirmode (by decide) rfl
        exact ⟨c, rest, starts, by rcases first with rfl | rfl <;> decide⟩
      · cases keyword
  obtain ⟨c, rest, starts, letter⟩ := starts
  obtain ⟨solid, plain, unsigned, other⟩ : isNumeralBlank c = false ∧ Number.plainDigit c = c ∧
      (c ≠ '-' ∧ c ≠ '+') ∧ Number.digitBelow? 8 c = none := by
    simp only [List.mem_cons, List.not_mem_nil, or_false] at letter
    rcases letter with rfl | rfl | rfl | rfl <;> decide
  unfold readOctal
  rw [Number.octal?_eq_none starts solid plain unsigned other]

theorem ofWord?_keywords : Keyword.ofWord? (.ofText "skel") = some .skeleton ∧
    Keyword.ofWord? (.ofText "dirmode") = some .intermediateMode := by
  decide

/-- Words that do not pair up are no parameters. -/
theorem readPairs_odd (d : Draft) (words : List Word) (odd : words.length % 2 = 1) :
    ∃ e, readPairs d words = .error e ∧ e.isBadInput = true := by
  fun_induction readPairs d words with
  | case1 => cases odd
  | case2 d word k keyword => exact ⟨_, rfl, rfl⟩
  | case3 d word keyword => exact ⟨_, rfl, rfl⟩
  | case4 d word value rest k keyword ih =>
    cases applied : k.apply value d with
    | error e => exact ⟨e, rfl, k.apply_failsOnInput value d e applied⟩
    | ok d' => exact ih d' (by simp only [List.length_cons] at odd; omega)
  | case5 d word value rest keyword => exact ⟨_, rfl, rfl⟩

end Directive

/-! ## Choices -/

/-- What may be given in each of the ways. -/
structure Choice where
  switch : String
  mode : Option String := none
  skeleton : Option String := none
  intermediateMode : Option String := none
  deriving Repr, DecidableEq

namespace Choice

/-- A keyword and its value. -/
def pair (keyword : String) : Option String → List String
  | some value => [keyword, value]
  | none => []

/-- A choice as the words of a directive. -/
def words (c : Choice) : List String :=
  c.switch :: (c.mode.toList ++ (pair "skel" c.skeleton ++ pair "dirmode" c.intermediateMode))

/-- An entry of a mapping. -/
def entry (key : String) : Option String → List (Value × Value)
  | some value => [(.text key, .text value)]
  | none => []

/-- A choice as a mapping. -/
def entries (c : Choice) : List (Value × Value) :=
  entry "enabled" c.switch ++ entry "mode" c.mode ++ entry "skel" c.skeleton ++
    entry "dirmode" c.intermediateMode

/-- What an option gives that takes a text. -/
def givenText : Option String → Given String
  | some word => .value word
  | none => .absent

/-- What an option gives that takes a mode. -/
def givenMode : Option String → Except SettingsError (Given Int)
  | some word => Directive.readOctal (.ofText word) >>= fun n => pure (.value n)
  | none => pure .absent

/-- Options with a choice that is switched on. -/
def options (c : Choice) (o : Options) : Except SettingsError Options := do
  let mode ← givenMode c.mode
  let intermediateMode ← givenMode c.intermediateMode
  return { o with enable := true, skeleton := givenText c.skeleton, mode, intermediateMode }

/-- The settings that the options make of those in a configuration file. -/
def resolve (c : Choice) (o : Options) (configuration : String) : Program (Option Settings) := do
  let o ← Program.ofSettings (c.options o)
  resolveSettings o configuration

/-! ## What a choice means -/

/-- The mode that a word denotes, or a default where there is no word. -/
def modeOr (default : Mode) : Option String → Except SettingsError Int
  | some word => Directive.readOctal (.ofText word)
  | none => pure default.toInt

/-- What a choice means before its modes are checked. -/
def draft (c : Choice) : Except SettingsError Draft := do
  let enabled ← Directive.readSwitch (.ofText c.switch)
  let finalMode ← modeOr .home c.mode
  let intermediateMode ← modeOr .intermediate c.intermediateMode
  return { enabled, finalMode, intermediateMode, skeleton := c.skeleton }

/-- The settings that a choice means. -/
def meaning (c : Choice) : Except SettingsError Settings :=
  c.draft >>= Draft.settings

theorem modeOr_failsOnInput (default : Mode) (word : Option String) :
    FailsOnInput (modeOr default word) := by
  cases word with
  | none => exact .ok _
  | some word => exact Directive.readOctal_failsOnInput _

theorem meaning_failsOnInput (c : Choice) : FailsOnInput c.meaning :=
  ((Directive.readSwitch_failsOnInput _).bind fun _ => (modeOr_failsOnInput _ _).bind fun _ =>
    (modeOr_failsOnInput _ _).bind fun _ => .ok _).bind Draft.settings_failsOnInput

/-! ## The mapping -/

/-- A mapping is read as what the choice means. -/
theorem ofMapping_entries (c : Choice) (full : c.skeleton ≠ some "") :
    Settings.ofMapping c.entries = c.meaning := by
  obtain ⟨switch, mode, skeleton, intermediateMode⟩ := c
  have filled : ∀ path, skeleton = some path → path ≠ "" := fun path same empty =>
    full (same.trans (congrArg some empty))
  cases mode <;> cases skeleton <;> cases intermediateMode <;>
    simp_all [Settings.ofMapping, entries, entry, Value.lookup?, Value.sameKey, meaning, draft,
      modeOr, Directive.readModeValue, Value.truthy, Value.plain]

/-! ## The directive -/

/-- Parameters that come in pairs are read as what the choice means. -/
theorem readPairs_pairs (d : Draft) (skeleton intermediateMode : Option String) :
    Directive.readPairs { d with skeleton := none, intermediateMode := Mode.intermediate.toInt }
        ((pair "skel" skeleton ++ pair "dirmode" intermediateMode).map .ofText) =
      modeOr .intermediate intermediateMode >>= fun n =>
        pure { d with skeleton, intermediateMode := n } := by
  obtain ⟨skel, dirmode⟩ := Directive.ofWord?_keywords
  cases intermediateMode with
  | none =>
    cases skeleton <;>
      simp [pair, Directive.readPairs, skel, Directive.Keyword.apply, modeOr] <;> rfl
  | some word =>
    cases read : Directive.readOctal (.ofText word) <;> cases skeleton <;>
      simp [pair, Directive.readPairs, skel, dirmode, Directive.Keyword.apply, modeOr, read,
        Except.map] <;> rfl

/-- What follows the switch is read as pairs where the mode is missing. -/
theorem readParameters_pairs (d : Draft) (skeleton intermediateMode : Option String) :
    Directive.readParameters d
        ((pair "skel" skeleton ++ pair "dirmode" intermediateMode).map .ofText) =
      Directive.readPairs d
        ((pair "skel" skeleton ++ pair "dirmode" intermediateMode).map .ofText) := by
  obtain ⟨skel, dirmode⟩ := Directive.ofWord?_keywords
  cases skeleton <;> cases intermediateMode <;>
    simp [pair, Directive.readParameters, Directive.readPairs, skel, dirmode]

/-- A directive is read as what the choice means, unless its mode is taken for a keyword. -/
theorem readWords_words (c : Choice)
    (plain : ∀ mode, c.mode = some mode → Directive.Keyword.ofWord? (.ofText mode) = none) :
    Directive.readWords (c.words.map .ofText) = c.draft := by
  obtain ⟨switch, mode, skeleton, intermediateMode⟩ := c
  unfold words draft
  rw [List.map_cons, Directive.readWords]
  refine bind_congr fun enabled => ?_
  cases mode with
  | none =>
    rw [Option.toList_none, List.nil_append, readParameters_pairs]
    exact readPairs_pairs { enabled } skeleton intermediateMode
  | some mode =>
    rw [Option.toList_some, List.singleton_append, List.map_cons, Directive.readParameters,
      plain mode rfl]
    exact bind_congr fun n => readPairs_pairs { enabled, finalMode := n } skeleton intermediateMode

/-- A mode that is taken for a keyword spoils a directive. -/
theorem readWords_keyword (c : Choice) {mode : String} (given : c.mode = some mode)
    {k : Directive.Keyword} (keyword : Directive.Keyword.ofWord? (.ofText mode) = some k) :
    ∃ e, Directive.readWords (c.words.map .ofText) = .error e ∧ e.isBadInput = true := by
  obtain ⟨switch, _, skeleton, intermediateMode⟩ := c
  cases given
  unfold words
  rw [List.map_cons, Directive.readWords, Option.toList_some, List.singleton_append, List.map_cons]
  cases switched : Directive.readSwitch (.ofText switch) with
  | error e => exact ⟨e, rfl, Directive.readSwitch_failsOnInput _ e switched⟩
  | ok enabled =>
    -- the keyword takes the next word for its value, and one word is left over in the end
    have odd : (Directive.Word.ofText mode ::
        (pair "skel" skeleton ++ pair "dirmode" intermediateMode).map .ofText).length % 2 = 1 := by
      cases skeleton <;> cases intermediateMode <;> simp [pair]
    obtain ⟨e, failed, bad⟩ := Directive.readPairs_odd { enabled } _ odd
    refine ⟨e, Eq.trans ?_ failed, bad⟩
    simp only [bind, Except.bind, Directive.readParameters, keyword]

/-- A choice with a mode that is taken for a keyword means nothing. -/
theorem meaning_keyword (c : Choice) {mode : String} (given : c.mode = some mode)
    {k : Directive.Keyword} (keyword : Directive.Keyword.ofWord? (.ofText mode) = some k) :
    ∃ e, c.meaning = .error e ∧ e.isBadInput = true := by
  have failed : ∃ e, c.meaning = .error e := by
    unfold meaning draft
    rw [given]
    simp only [modeOr, Directive.readOctal_keyword keyword]
    cases Directive.readSwitch (.ofText c.switch) <;> exact ⟨_, rfl⟩
  obtain ⟨e, failed⟩ := failed
  exact ⟨e, failed, c.meaning_failsOnInput e failed⟩

/-! ## Options -/

theorem enable_options {c : Choice} {o o' : Options} (given : c.options o = .ok o') :
    o'.enable = true := by
  unfold options at given
  cases mode : givenMode c.mode with
  | error e => rw [mode] at given; cases given
  | ok g =>
    cases above : givenMode c.intermediateMode with
    | error e => rw [mode, above] at given; cases given
    | ok g' => rw [mode, above] at given; cases given; rfl

/-- A skeleton that is given is asked for unless it is empty. -/
theorem skeleton?_given {o : Options} {skeleton : Option String}
    (given : o.skeleton = givenText skeleton) (full : skeleton ≠ some "") :
    o.skeleton? = skeleton := by
  unfold Options.skeleton?
  rw [given]
  cases skeleton with
  | none => rfl
  | some path =>
    have : path ≠ "" := fun empty => full (congrArg some empty)
    simp [givenText, Given.value?, this]

/-- The options of a choice that is switched on, over the defaults, give what the choice means. -/
theorem meaning_eq_override (c : Choice) (o : Options) (full : c.skeleton ≠ some "")
    (on : lowerCase c.switch ∈ Directive.onWords) :
    c.meaning = c.options o >>= fun o => (o.override {}).mapError .invalid := by
  obtain ⟨switch, mode, skeleton, intermediateMode⟩ := c
  have switched : Directive.readSwitch (.ofText switch) = pure true :=
    if_pos (List.contains_iff_mem.mpr on)
  have filled : ∀ o : Options, o.skeleton = givenText skeleton → o.skeleton? = skeleton :=
    fun o same => skeleton?_given same full
  unfold meaning draft options
  simp only [switched, bind_assoc, pure_bind]
  cases mode <;> cases intermediateMode <;>
    simp [givenMode, modeOr, Options.override, filled, Given.overMode, Draft.settings, Draft.check,
      checkMode_toInt]

end Choice

/-! ## Agreement -/

/-- Whether two readings give the same, or are both refused as bad input. -/
inductive Agrees {α : Type} : (first second : Except Fault α) → Prop
  | same (a : α) : Agrees (.ok a) (.ok a)
  | refused {f f' : Fault} (bad : f.isBadInput = true) (bad' : f'.isBadInput = true) :
      Agrees (.error f) (.error f')

namespace Agrees

variable {α : Type} {x y z : Except Fault α}

theorem symm (h : Agrees x y) : Agrees y x := by
  cases h with
  | same a => exact .same a
  | refused bad bad' => exact .refused bad' bad

theorem trans (h : Agrees x y) (h' : Agrees y z) : Agrees x z := by
  cases h with
  | same a => exact h'
  | refused bad bad' =>
    cases h' with
    | refused _ bad'' => exact .refused bad bad''

theorem map {β : Type} (g : α → β) (h : Agrees x y) : Agrees (x.map g) (y.map g) := by
  cases h with
  | same a => exact .same (g a)
  | refused bad bad' => exact .refused bad bad'

theorem of_failsOnInput {x : Except SettingsError α} (bad : FailsOnInput x) :
    Agrees (x.mapError .settings) (x.mapError .settings) := by
  cases x with
  | ok a => exact .same a
  | error e => exact .refused (bad e rfl) (bad e rfl)

end Agrees

/-! ## Results -/

/-- Without a configuration file there are no settings in it. -/
theorem Program.run_loadSettings {σ : Type} {world : Layer σ} {s : σ} {path : String} {f : Fault}
    (looked : (world.reply (.stat (Path.plain path)) s).1 = .error f)
    (absent : f.meansAbsent = true) :
    ∃ s', (loadSettings path).run world s = (.ok none, s') := by
  have missing : ∃ s', (fileExists (Path.plain path)).run world s = (.ok false, s') := by
    refine ⟨(world.reply (.stat (Path.plain path)) s).2, ?_⟩
    unfold fileExists Program.stat
    rw [bind_eq, run_bind, run_outcome]
    simp only [run, looked, run_ofExcept, absent, if_true]
    rfl
  obtain ⟨s', missing⟩ := missing
  unfold loadSettings
  dsimp only
  rw [bind_eq, run_bind, missing]
  exact ⟨_, rfl⟩

namespace Choice

variable (c : Choice)

/-- The directive gives what the choice means. -/
theorem ofDirective_agrees {line : String} (spelled : SpellsLine line c.words) :
    Agrees ((Settings.ofDirective line).mapError .settings) (c.meaning.mapError .settings) := by
  have split : Settings.ofDirective line =
      Directive.readWords (c.words.map .ofText) >>= Draft.settings := by
    unfold Settings.ofDirective
    rw [splitWords_spelled spelled]
    rfl
  rw [split]
  by_cases plain : ∀ mode, c.mode = some mode → Directive.Keyword.ofWord? (.ofText mode) = none
  · rw [readWords_words c plain]
    exact .of_failsOnInput c.meaning_failsOnInput
  · push Not at plain
    obtain ⟨mode, given, taken⟩ := plain
    obtain ⟨k, keyword⟩ := Option.ne_none_iff_exists'.mp taken
    obtain ⟨e, failed, bad⟩ := c.readWords_keyword given keyword
    obtain ⟨e', failed', bad'⟩ := c.meaning_keyword given keyword
    rw [failed, failed']
    exact .refused bad bad'

/-- Without a configuration file the options of a choice that is switched on give what the choice
means. -/
theorem resolve_agrees (full : c.skeleton ≠ some "") (on : lowerCase c.switch ∈ Directive.onWords)
    {σ : Type} {world : Layer σ} {s : σ} {configuration : String} {f : Fault}
    (looked : (world.reply (.stat (Path.plain configuration)) s).1 = .error f)
    (absent : f.meansAbsent = true) (o : Options) :
    Agrees ((c.resolve o configuration).run world s).1
      ((c.meaning.map some).mapError .settings) := by
  obtain ⟨s', loaded⟩ := Program.run_loadSettings looked absent
  rw [c.meaning_eq_override o full on]
  unfold resolve resolveSettings
  cases given : c.options o with
  | error e =>
    have bad : e.isBadInput = true := by
      refine c.meaning_failsOnInput e ?_
      rw [c.meaning_eq_override o full on, given]
      rfl
    exact .refused bad bad
  | ok o' =>
    have overrides : o'.overrides = true := by simp [Options.overrides, enable_options given]
    have resolved : o'.resolve none = (o'.override {}).map some := if_pos overrides
    have run : ((resolveSettings o' configuration).run world s).1 =
        ((o'.override {}).map some).mapError .invalid := by
      unfold resolveSettings
      rw [Program.bind_eq, Program.run_bind, loaded, ← resolved]
      exact congrArg Prod.fst (Program.run_ofExcept world _ s')
    change Agrees ((resolveSettings o' configuration).run world s).1
      ((((o'.override {}).mapError SettingsError.invalid).map some).mapError .settings)
    rw [run]
    cases o'.override {} with
    | ok settings => exact .same _
    | error problems => exact .refused rfl rfl

/-- Three ways to write settings agree. A directive whose words are spelled in any way and a mapping
give the same settings or are both refused as bad input. So do options, where there is no
configuration file and the choice is switched on. -/
theorem readings_agree (full : c.skeleton ≠ some "") {line : String}
    (spelled : SpellsLine line c.words) :
    Agrees ((Settings.ofDirective line).mapError .settings)
        ((Settings.ofMapping c.entries).mapError .settings) ∧
      (lowerCase c.switch ∈ Directive.onWords →
        ∀ {σ : Type} (world : Layer σ) (s : σ) (configuration : String) (f : Fault) (o : Options),
          (world.reply (.stat (Path.plain configuration)) s).1 = .error f → f.meansAbsent = true →
          Agrees (((Settings.ofDirective line).map some).mapError .settings)
            ((c.resolve o configuration).run world s).1) := by
  have directive := c.ofDirective_agrees spelled
  refine ⟨?_, fun on {σ} world s configuration f o looked absent => ?_⟩
  · rw [c.ofMapping_entries full]
    exact directive
  · have some_ : ∀ x : Except SettingsError Settings,
        (x.map some).mapError Fault.settings = (x.mapError Fault.settings).map some := by
      intro x
      cases x <;> rfl
    have options := c.resolve_agrees full on looked absent o
    rw [some_] at options ⊢
    exact (directive.map some).trans options.symm

/-- A skeleton with a quote in its path, given to a machine without a configuration file. -/
theorem readings_agree_quoted :
    let c : Choice :=
      { switch := "On", mode := some "0750", skeleton := some "it's", intermediateMode := some "711" }
    let line := "On '0750' skel 'it'\"'\"'s' dirmode 711"
    let absent : Fault := Machine.refused "/etc/mkhome.yaml" .noEntry
    c.skeleton ≠ some "" ∧ SpellsLine line c.words ∧ lowerCase c.switch ∈ Directive.onWords ∧
      (Machine.layer.reply (.stat (Path.plain "/etc/mkhome.yaml")) {}).1 = .error absent ∧
      absent.meansAbsent = true ∧
      Agrees ((Settings.ofDirective line).mapError .settings)
        ((Settings.ofMapping c.entries).mapError .settings) ∧
      Agrees (((Settings.ofDirective line).map some).mapError .settings)
        ((c.resolve {} "/etc/mkhome.yaml").run Machine.layer {}).1 := by
  intro c line absent
  have bare : ∀ w ∈ ["On", "skel", "dirmode", "711"],
      w.toList ≠ [] ∧ w.toList.all isBare = true := by decide
  have plain : ∀ w ∈ ["On", "skel", "dirmode", "711"], SpellsWord w.toList w.toList :=
    fun w mem => spells_bare (bare w mem).1 (bare w mem).2
  have full : c.skeleton ≠ some "" := by decide
  have words : List.Forall₂ SpellsWord
      ["On".toList, singleQuoted "0750".toList, "skel".toList, singleQuoted "it's".toList,
        "dirmode".toList, "711".toList]
      ["On".toList, "0750".toList, "skel".toList, "it's".toList, "dirmode".toList, "711".toList] :=
    .cons (plain "On" (by decide)) (.cons (spells_singleQuoted _) (.cons (plain "skel" (by decide))
      (.cons (spells_singleQuoted _) (.cons (plain "dirmode" (by decide))
        (.cons (plain "711" (by decide)) .nil)))))
  have spelled : SpellsLine line c.words := by
    have written : line.toList = spaced (fun _ => ⟨[' '], by decide, by decide⟩)
        ["On".toList, singleQuoted "0750".toList, "skel".toList, singleQuoted "it's".toList,
          "dirmode".toList, "711".toList] := by decide
    unfold SpellsLine
    rw [written]
    exact spellsAll_spaced words _
  have on : lowerCase c.switch ∈ Directive.onWords := by decide
  have looked : (Machine.layer.reply (.stat (Path.plain "/etc/mkhome.yaml")) {}).1 =
      .error absent := by decide
  have means : absent.meansAbsent = true := by decide
  obtain ⟨texts, options⟩ := c.readings_agree full spelled
  exact ⟨full, spelled, on, looked, means, texts,
    options on Machine.layer {} "/etc/mkhome.yaml" absent {} looked means⟩

end Choice

/-! ## Settings written down -/

/-- The word for a switch. -/
def switchWord (enabled : Bool) : String :=
  if enabled then "on" else "off"

/-- The word for a mode. -/
def Mode.word (m : Mode) : String :=
  String.ofList (Number.octalDigits m.bits)

theorem readSwitch_switchWord :
    ∀ enabled, Directive.readSwitch (.ofText (switchWord enabled)) = .ok enabled := by
  decide

theorem readOctal_word (m : Mode) : Directive.readOctal (.ofText m.word) = .ok m.toInt := by
  have read : Number.octal? m.word = some m.toInt := Number.octal?_octalDigits m.bits
  unfold Directive.readOctal Directive.Word.ofText
  simp only [read]

theorem isBare_octalDigits (n : Nat) : (Number.octalDigits n).all isBare = true := by
  obtain ⟨ds, -, digits, small, -⟩ := Number.octalDigits_eq n
  have bare : ∀ d < 8, isBare (hexDigit d) = true := by decide
  rw [digits, List.all_map, List.all_eq_true]
  exact fun d mem => bare d (small d mem)

namespace Settings

variable (s : Settings)

/-- Settings as a choice that means them. -/
def choice : Choice where
  switch := switchWord s.enabled
  mode := some s.finalMode.word
  skeleton := s.skeleton
  intermediateMode := some s.intermediateMode.word

/-- The words of the directive for settings as they are written: a switch and the mode, the path of
the skeleton in single quotes if there is one, and the mode of directories above. -/
def writtenWords : List (List Char) :=
  [(switchWord s.enabled).toList, s.finalMode.word.toList] ++
    (match s.skeleton with
      | some path => ["skel".toList, singleQuoted path.toList]
      | none => []) ++
    ["dirmode".toList, s.intermediateMode.word.toList]

/-- The directive for settings, with any gaps between the words. -/
def written (gap : Nat → Gap) : String :=
  String.ofList (spaced gap s.writtenWords)

theorem draft_choice : s.choice.draft = .ok s.draft := by
  unfold Choice.draft choice Choice.modeOr
  dsimp only
  rw [readSwitch_switchWord, readOctal_word, readOctal_word]
  rfl

/-- What is written for settings spells the words of their choice. -/
theorem spells_written (gap : Nat → Gap) : SpellsLine (s.written gap) s.choice.words := by
  have digits (m : Mode) : SpellsWord m.word.toList m.word.toList := by
    unfold Mode.word
    rw [String.toList_ofList]
    exact spells_bare (Number.octalDigits_ne_nil _) (isBare_octalDigits _)
  have bare : ∀ w ∈ ["on", "off", "skel", "dirmode"],
      w.toList ≠ [] ∧ w.toList.all isBare = true := by decide
  have plain : ∀ w ∈ ["on", "off", "skel", "dirmode"], SpellsWord w.toList w.toList :=
    fun w mem => spells_bare (bare w mem).1 (bare w mem).2
  have switch : switchWord s.enabled ∈ ["on", "off", "skel", "dirmode"] := by
    cases s.enabled <;> decide
  have last : List.Forall₂ SpellsWord ["dirmode".toList, s.intermediateMode.word.toList]
      ["dirmode".toList, s.intermediateMode.word.toList] :=
    .cons (plain _ (by decide)) (.cons (digits _) .nil)
  unfold SpellsLine written writtenWords choice Choice.words
  rw [String.toList_ofList]
  refine spellsAll_spaced (.cons (plain _ switch) (.cons (digits _) ?_)) gap
  cases s.skeleton with
  | none => exact last
  | some path => exact .cons (plain _ (by decide)) (.cons (spells_singleQuoted _) last)

/-- Settings that are written down as a directive are read back, whatever the path of the skeleton
holds, and whatever the gaps between the words are. -/
theorem ofDirective_written (gap : Nat → Gap) : ofDirective (s.written gap) = .ok s := by
  have plain : ∀ mode, s.choice.mode = some mode →
      Directive.Keyword.ofWord? (.ofText mode) = none := by
    intro mode given
    cases given
    cases keyword : Directive.Keyword.ofWord? (.ofText s.finalMode.word) with
    | none => rfl
    | some k =>
      have failed := Directive.readOctal_keyword keyword
      rw [readOctal_word] at failed
      cases failed
  unfold ofDirective
  rw [splitWords_spelled (s.spells_written gap)]
  change Directive.readWords (s.choice.words.map .ofText) >>= Draft.settings = .ok s
  rw [s.choice.readWords_words plain, draft_choice]
  exact Draft.settings_draft s

end Settings

end HomeProvision
