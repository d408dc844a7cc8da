import HomeProvision.Machine.Seed
import HomeProvision.Proofs.Grammar
import HomeProvision.Proofs.Reached
import HomeProvision.Proofs.Untyped

/-!
# Modes in a mapping

A mode under a key of the settings mapping is read in base eight, whatever the notation makes of the
scalar that stands there (`loadSettings_modes`). Without quotes, `0755` would be an integer in base
eight and `755` one in base ten; `1:30` has base sixty, and other spellings have marks, signs or
underscores. All of them reach the reader of modes as they are spelled, like a scalar in quotes.

The node may stand anywhere that a document can name it from: in a mapping that is merged, behind an
alias, or as the last one of several under one key.
-/

namespace HomeProvision

open HomeProvision.Data HomeProvision.Text HomeProvision.Yaml

/-! ## Digits -/

/-- Whether a character is a digit of base eight. -/
def IsOctalDigit (c : Char) : Prop :=
  '0' ≤ c ∧ c ≤ '7'

instance : DecidablePred IsOctalDigit :=
  fun _ => inferInstanceAs (Decidable (_ ∧ _))

/-- The number that digits of base eight denote. -/
def octalValue (t : List Char) : Nat :=
  Number.ofDigits 8 (t.map fun c => c.toNat - '0'.toNat)

section

variable {t : List Char}

/-- The digits of base eight. -/
def eightDigits : List Char :=
  ['0', '1', '2', '3', '4', '5', '6', '7']

theorem IsOctalDigit.mem {c : Char} (octal : IsOctalDigit c) : c ∈ eightDigits := by
  obtain ⟨low, high⟩ := octal
  have coded : ∀ n < 56, 48 ≤ n → Char.ofNat n ∈ eightDigits := by decide
  rw [← Char.ofNat_toNat c]
  exact coded c.toNat (Nat.lt_succ_of_le high) low

theorem IsOctalDigit.eq {c : Char} (octal : IsOctalDigit c) :
    c = '0' ∨ c = '1' ∨ c = '2' ∨ c = '3' ∨ c = '4' ∨ c = '5' ∨ c = '6' ∨ c = '7' := by
  simpa [eightDigits] using octal.mem

/-- What can be tested on all eight digits holds of each of them. -/
theorem IsOctalDigit.test {c : Char} {p : Char → Bool} (octal : IsOctalDigit c)
    (each : eightDigits.all p = true) : p c = true :=
  List.all_eq_true.mp each c octal.mem

theorem all_digits {p : Char → Bool} (octal : ∀ c ∈ t, IsOctalDigit c)
    (each : eightDigits.all p = true) : t.all p = true :=
  List.all_eq_true.mpr fun c mem => (octal c mem).test each

/-- Digits of base eight are read as the number that they denote. -/
theorem readOctal_digits (full : t ≠ []) (octal : ∀ c ∈ t, IsOctalDigit c) :
    Directive.readOctal (.ofText (String.ofList t)) = .ok (octalValue t) := by
  have digit : ∀ c ∈ t, hexDigit (c.toNat - '0'.toNat) = c ∧ c.toNat - '0'.toNat < 8 := by
    intro c mem
    simpa using (octal c mem).test
      (p := fun c => hexDigit (c.toNat - '0'.toNat) = c ∧ c.toNat - '0'.toNat < 8) (by decide)
  have spelled : (t.map fun c => c.toNat - '0'.toNat).map hexDigit = t := by
    rw [List.map_map]
    exact (List.map_congr_left fun c mem => (digit c mem).1).trans (List.map_id t)
  have small : ∀ d ∈ t.map fun c => c.toNat - '0'.toNat, d < 8 := by
    intro d mem
    obtain ⟨c, here, rfl⟩ := List.mem_map.mp mem
    exact (digit c here).2
  have read := Number.octal?_map_hexDigit (mt List.map_eq_nil_iff.mp full) small
  rw [spelled] at read
  unfold Directive.readOctal Directive.Word.ofText
  rw [read]
  rfl

variable {c : Char} (first : IsOctalDigit c) (octal : ∀ d ∈ t, IsOctalDigit d)

include first octal

theorem isFloat_digits : Tag.isFloat (c :: t) = false := by
  have dropped : Tag.dropDigits t = [] :=
    List.dropWhile_eq_nil_iff.mpr (List.all_eq_true.mp (all_digits octal (by decide)))
  rcases first.eq with rfl | rfl | rfl | rfl | rfl | rfl | rfl | rfl <;>
    simp [Tag.isFloat, Tag.dropSign, dropped, Tag.sixties?]

/-- Digits of base eight spell an integer, in base eight after a zero and else in base ten. -/
theorem isInt_digits : Tag.isInt (c :: t) = true := by
  have run : t.all Tag.isDigitOrUnderscore = true := all_digits octal (by decide)
  rcases first.eq with rfl | rfl | rfl | rfl | rfl | rfl | rfl | rfl
  · cases t with
    | nil => rfl
    | cons d t =>
      have run : (d :: t).all (Tag.isDigitUpTo '7') = true := all_digits octal (by decide)
      obtain ⟨second, -⟩ := List.forall_mem_cons.mp octal
      rcases second.eq with rfl | rfl | rfl | rfl | rfl | rfl | rfl | rfl <;> exact run
  all_goals simp [Tag.isInt, Tag.dropSign, run]

omit octal in
theorem boolWords_digits (t : List Char) :
    Tag.boolWords.contains (String.ofList (c :: t)) = false := by
  have heads : ∀ word ∈ Tag.boolWords, word.toList.head?.all (fun c => !c.isDigit) = true := by
    decide
  rw [← Bool.not_eq_true, List.contains_iff_mem]
  intro mem
  have letter : c.isDigit = false := by simpa using heads _ mem
  rw [first.test (p := Char.isDigit) (by decide)] at letter
  cases letter

omit first octal

/-- Digits of base eight without quotes are an integer. -/
theorem ofPlain_digits (full : t ≠ []) (octal : ∀ c ∈ t, IsOctalDigit c) :
    Tag.ofPlain (String.ofList t) = .int := by
  have unbroken : Tag.dropFinalBreak t = t := by
    unfold Tag.dropFinalBreak
    refine if_neg fun broken => ?_
    simp only [Bool.and_eq_true, decide_eq_true_eq] at broken
    exact absurd (octal '\n' (List.mem_of_getLast? broken.2)).1 (by decide)
  unfold Tag.ofPlain
  rw [String.toList_ofList, unbroken]
  cases t with
  | nil => exact absurd rfl full
  | cons c rest =>
    obtain ⟨first, digits⟩ := List.forall_mem_cons.mp octal
    dsimp only
    rw [boolWords_digits first, isFloat_digits first digits, isInt_digits first digits]
    rfl

end

/-! ## The entries for modes -/

/-- The modes that a mapping can give. -/
inductive ModeKey where
  | finalMode
  | intermediateMode
  deriving DecidableEq

/-- The key of a mode. -/
def ModeKey.name : ModeKey → String
  | .finalMode => "mode"
  | .intermediateMode => "dirmode"

/-- Settings with another mode. -/
def ModeKey.set (k : ModeKey) (m : Mode) (s : Settings) : Settings :=
  match k with
  | .finalMode => { s with finalMode := m }
  | .intermediateMode => { s with intermediateMode := m }

/-- A draft with another mode. -/
def ModeKey.draft (k : ModeKey) (n : Int) (d : Draft) : Draft :=
  match k with
  | .finalMode => { d with finalMode := n }
  | .intermediateMode => { d with intermediateMode := n }

theorem Data.Value.lookup?_map {α β : Type} {key : Value} {f : α → β} {es : List (Value × α)} :
    lookup? key (es.map fun e => (e.1, f e.2)) = (lookup? key es).map f := by
  induction es with
  | nil => rfl
  | cons e es ih =>
    unfold lookup?
    rw [List.map_cons]
    dsimp only
    split
    · rfl
    · exact ih

theorem sameKey_text {a : String} {v : Value} : Value.sameKey (.text a) v = true ↔ v = .text a := by
  cases v <;> simp [Value.sameKey, Value.asFloat?, eq_comm]

namespace Settings

variable {k : ModeKey} {entries : List (Value × Value)} {s : Settings}

/-- A mapping without the entry for a mode. -/
def without (k : ModeKey) (entries : List (Value × Value)) : List (Value × Value) :=
  entries.filter fun entry => !Value.sameKey (.text k.name) entry.1

theorem unknownKeys_without : unknownKeys (without k entries) = unknownKeys entries := by
  unfold unknownKeys without
  rw [List.filter_filter]
  refine congrArg (List.map Prod.fst) (List.filter_congr fun entry _ => ?_)
  cases same : Value.sameKey (.text k.name) entry.1 with
  | false => rw [Bool.not_false, Bool.and_true]
  | true =>
    rw [sameKey_text.mp same, Bool.not_true, Bool.and_false]
    cases k <;> decide

theorem lookup?_without {key : String} (other : key ≠ k.name) :
    Value.lookup? (.text key) (without k entries) = Value.lookup? (.text key) entries := by
  induction entries with
  | nil => rfl
  | cons entry entries ih =>
    obtain ⟨key', value⟩ := entry
    unfold without at ih ⊢
    rw [List.filter_cons]
    cases same : Value.sameKey (.text k.name) key' with
    | false =>
      simp only [Value.lookup?, ih, Bool.not_false, if_true]
    | true =>
      have apart : Value.sameKey (.text key) key' = false := by
        rw [sameKey_text.mp same, ← Bool.not_eq_true, sameKey_text]
        exact fun same => other (Value.text.inj same).symm
      simp only [Value.lookup?, ih, apart, Bool.not_true, Bool.false_eq_true, if_false]

/-- A mapping whose other entries are understood is read with the mode in its place. -/
theorem ofMapping_mode {word : String} {n : Int} (rest : ofMapping (without k entries) = .ok s)
    (under : Value.lookup? (.text k.name) entries = some (.text word))
    (read : Directive.readOctal (.ofText word) = .ok n) :
    ofMapping entries = (k.draft n s.draft).settings := by
  have known : unknownKeys entries = [] := by
    by_contra unknown
    rw [← unknownKeys_without (k := k)] at unknown
    rw [ofMapping_unknown unknown] at rest
    obtain ⟨_, -, bad⟩ := Machine.bind_eq_ok.mp rest
    cases bad
  have elsewhere : ∀ key, key ≠ k.name → entry (without k entries) key = entry entries key :=
    fun key other => by unfold entry; rw [lookup?_without other]
  have here : ∀ default, readModeEntry default (entry entries k.name) = .ok n := by
    intro default
    unfold entry
    rw [under]
    exact read
  rw [ofMapping_known (unknownKeys_without.trans known)] at rest
  obtain ⟨enabled, switch, rest⟩ := Machine.bind_eq_ok.mp rest
  obtain ⟨finalMode, first, rest⟩ := Machine.bind_eq_ok.mp rest
  obtain ⟨intermediateMode, second, rest⟩ := Machine.bind_eq_ok.mp rest
  rw [Draft.settings_eq_ok_iff.mp rest, ofMapping_known known,
    ← elsewhere "enabled" (by cases k <;> decide), switch,
    ← elsewhere "skel" (by cases k <;> decide)]
  cases k with
  | finalMode =>
    rw [← elsewhere "dirmode" (by decide), second]
    unfold ModeKey.name at here
    rw [here]
    rfl
  | intermediateMode =>
    rw [← elsewhere "mode" (by decide), first]
    unfold ModeKey.name at here
    rw [here]
    rfl

/-- The mode that digits denote takes its place if it is a permission mode, and else the mapping is
refused. -/
theorem ofMapping_digits {t : List Char} (rest : ofMapping (without k entries) = .ok s)
    (under : Value.lookup? (.text k.name) entries = some (.text (String.ofList t)))
    (full : t ≠ []) (octal : ∀ c ∈ t, IsOctalDigit c) :
    (∀ h : octalValue t ≤ modeLimit, ofMapping entries = .ok (k.set ⟨octalValue t, h⟩ s)) ∧
    (modeLimit < octalValue t → ∃ e, ofMapping entries = .error e ∧ e.isBadInput = true) := by
  rw [ofMapping_mode rest under (readOctal_digits full octal)]
  constructor
  · intro h
    rw [Draft.settings_eq_ok_iff]
    cases k <;> rfl
  · intro beyond
    cases made : (k.draft (octalValue t) s.draft).settings with
    | error e => exact ⟨e, rfl, Draft.settings_failsOnInput _ e made⟩
    | ok s' =>
      have mode : ∃ m : Mode, m.toInt = octalValue t := by
        have same := Draft.settings_eq_ok_iff.mp made
        cases k with
        | finalMode => exact ⟨s'.finalMode, congrArg Draft.finalMode same⟩
        | intermediateMode => exact ⟨s'.intermediateMode, congrArg Draft.intermediateMode same⟩
      have := (exists_mode.mp mode).2
      unfold modeLimit at beyond
      omega

end Settings

/-! ## Scalars in a document -/

namespace Yaml

/-- The node of a scalar without a tag of its own, plain or in quotes of either kind. -/
def Node.untagged (t : List Char) (plain : Bool) : Node where
  tag := Read.scalarTag none (CodePoint.ofChars t) plain
  content := .scalar (CodePoint.ofChars t)

/-- The place of the node under the key of a mode in the settings of a document, and the entries of
these settings, if they are a mapping. -/
def Document.modeEntry? (d : Document) (k : ModeKey) : Option (Nat × List (Value × Value)) :=
  match d.view d.root with
  | .mapping top => do
      match d.view (← Value.lookup? (.text settingsKey) top) with
      | .mapping places =>
          let place ← Value.lookup? (.text k.name) places
          return (place, places.map fun entry => (entry.1, d.value entry.2))
      | _ => none
  | _ => none

/-- Whether a graph can be built, its settings are a mapping with the given entries, and the scalar
`t` stands there under the key of a mode. -/
def Graph.Writes (g : Graph) (k : ModeKey) (t : List Char) (plain : Bool)
    (entries : List (Value × Value)) : Prop :=
  ∃ d place, Document.ofGraph g = .ok d ∧ d.modeEntry? k = some (place, entries) ∧
    g.nodes[place]? = some (.untagged t plain)

/-- A graph in which a scalar stands in quotes. -/
def Graph.quote (g : Graph) (place : Nat) (t : List Char) : Graph :=
  { g with nodes := g.nodes.set! place (.untagged t false) }

variable {t : List Char} {plain : Bool}

theorem seenText_ofChars (t : List Char) :
    CodePoint.seenText (CodePoint.ofChars t) = String.ofList t := by
  unfold CodePoint.seenText CodePoint.ofChars
  rw [List.map_map]
  exact congrArg String.ofList (List.map_id t)

theorem ofPoints_ofChars (t : List Char) :
    Value.ofPoints (CodePoint.ofChars t) = .text (String.ofList t) := by
  have chars : (CodePoint.ofChars t).mapM CodePoint.char? = some t := by
    unfold CodePoint.ofChars
    induction t with
    | nil => rfl
    | cons c t ih => rw [List.map_cons, List.mapM_cons, ih]; rfl
  unfold Value.ofPoints CodePoint.text?
  rw [chars]
  rfl

/-- A scalar in quotes is a text, and the kind of one without comes from its spelling. -/
theorem tag_untagged (t : List Char) (plain : Bool) :
    (Node.untagged t plain).tag = if plain then Tag.ofPlain (String.ofList t) else .text := by
  unfold Node.untagged Read.scalarTag
  rw [seenText_ofChars]

theorem untagged_textual (int : plain = true → Tag.ofPlain (String.ofList t) = .int) :
    (Node.untagged t plain).tag = .int ∨ (Node.untagged t plain).tag = .text := by
  rw [tag_untagged]
  cases plain with
  | true => exact .inl ((if_pos rfl).trans (int rfl))
  | false => exact .inr (if_neg Bool.false_ne_true)

variable {d : Document} {g : Graph} {k : ModeKey} {place : Nat} {entries : List (Value × Value)}

theorem modeEntry?_eq_some (under : d.modeEntry? k = some (place, entries)) :
    ∃ top m places, d.view d.root = .mapping top ∧
      Value.lookup? (.text settingsKey) top = some m ∧ d.view m = .mapping places ∧
      Value.lookup? (.text k.name) places = some place ∧
      entries = places.map fun entry => (entry.1, d.value entry.2) := by
  unfold Document.modeEntry? at under
  split at under
  · next top view =>
    obtain ⟨m, first, under⟩ := Option.bind_eq_some_iff.mp under
    split at under
    · next places view' =>
      obtain ⟨place', second, same⟩ := Option.bind_eq_some_iff.mp under
      cases same
      exact ⟨top, m, places, view, first, view', second, rfl⟩
    · cases under
  · cases under

/-- The value under the key of a mode is the text of the scalar that stands there. -/
theorem Graph.Writes.lookup? (h : g.Writes k t plain entries)
    (int : plain = true → Tag.ofPlain (String.ofList t) = .int) :
    Value.lookup? (.text k.name) entries = some (.text (String.ofList t)) := by
  obtain ⟨d, place, built, under, node⟩ := h
  obtain ⟨top, m, places, view, first, view', second, rfl⟩ := modeEntry?_eq_some under
  have found : d.Finds place := (Document.Finds.root.lookup view first).lookup view' second
  rw [Value.lookup?_map, second, ← ofPoints_ofChars]
  exact congrArg some (Document.value_of_textual built found node (untagged_textual int))

/-- The settings of such a graph are read from that mapping. -/
theorem Graph.Writes.settings (h : g.Writes k t plain entries) (path : String) :
    ∃ d, Document.ofGraph g = .ok d ∧
      Settings.ofDocument path d = (Settings.ofMapping entries).map some := by
  obtain ⟨d, place, built, under, node⟩ := h
  obtain ⟨top, m, places, view, first, view', second, rfl⟩ := modeEntry?_eq_some under
  refine ⟨d, built, ?_⟩
  rw [Settings.ofDocument_eq, view]
  dsimp only
  rw [first]
  dsimp only
  unfold Settings.ofPlace
  rw [view']

/-- Quotes around an integer make no difference but its type. -/
theorem Graph.quote_untyped (node : g.nodes[place]? = some (.untagged t true))
    (int : Tag.ofPlain (String.ofList t) = .int) : (g.quote place t).untyped = g.untyped := by
  have same : (Node.untagged t false).untyped = (Node.untagged t true).untyped := by
    unfold Node.untyped
    rw [tag_untagged, tag_untagged, if_pos rfl, if_neg Bool.false_ne_true, int]
    rfl
  refine congrArg (fun nodes => Graph.mk nodes g.root) (Array.ext_getElem? fun i => ?_)
  unfold Graph.quote
  rw [Array.getElem?_map, Array.getElem?_map, Array.set!_eq_setIfInBounds,
    Array.getElem?_setIfInBounds]
  split
  · next here =>
    subst here
    obtain ⟨inside, -⟩ := Array.getElem?_eq_some_iff.mp node
    rw [if_pos inside, node, Option.map_some, same]
    rfl
  · rfl

end Yaml

/-! ## Files -/

/-- Whether a world shows a text with a graph at the path of a configuration file. -/
def Layer.ShowsGraph {σ : Type} (world : Layer σ) (path : String) (s : σ) (g : Graph) : Prop :=
  ∃ bytes text, world.found (Path.plain path) s = .content bytes ∧ readText bytes = .ok text ∧
    Graph.ofText text = .ok (some g)

namespace Settings

/-- The settings in a graph. -/
def ofGraph (path : String) (g : Graph) : Except SettingsError (Option Settings) :=
  match Document.ofGraph g with
  | .ok d => ofDocument path d
  | .error .malformed => .error (.malformed path)
  | .error e => .error (.document e)

theorem ofGraph_untyped (path : String) (g : Graph) : ofGraph path g.untyped = ofGraph path g := by
  unfold ofGraph
  rw [Yaml.ofGraph_untyped]
  cases Document.ofGraph g with
  | ok d => exact ofDocument_untyped path d
  | error e => rfl

end Settings

open Program

variable {σ : Type} {world : Layer σ} {s : σ} {path : String} {g : Graph}

/-- Loading a file comes to what is in the graph of its text. -/
theorem loadSettings_graph (shown : world.ShowsGraph path s g) :
    ((loadSettings path).run world s).1 =
      (Settings.ofGraph (Path.plain path) g).mapError .settings := by
  obtain ⟨bytes, text, found, read, parsed⟩ := shown
  have documented : documentOf bytes = ((Document.ofGraph g).map some).mapError .document := by
    unfold documentOf Document.ofText
    rw [read]
    dsimp only [Except.mapError, Bind.bind, Except.bind]
    rw [parsed]
    dsimp only
    rw [Option.mapM_some]
    cases Document.ofGraph g <;> rfl
  rw [loadSettings_run, found]
  dsimp only
  rw [Settings.ofContent_eq, documented]
  unfold Settings.ofGraph
  cases Document.ofGraph g with
  | ok d => rfl
  | error e => cases e <;> rfl

/-- How the modes in the settings mapping of a file are read, for a scalar without a tag of its own
that stands under the key of a mode. If it is in quotes, or spelled as an integer of any base, it is
read by its text. If it consists of digits of base eight, the mode is the number that they denote,
or else the file is refused if that is no permission mode, and this with and without quotes. And any
file loads in the same way once an integer in it is put in quotes, also one that is refused. -/
theorem loadSettings_modes {world : Layer σ} {s : σ} {path : String} {g : Graph}
    (shown : world.ShowsGraph path s g) (k : ModeKey) (t : List Char) :
    (∀ plain entries, g.Writes k t plain entries →
      (plain = true → Tag.ofPlain (String.ofList t) = .int) →
      Settings.entry entries k.name = .text (String.ofList t) ∧
        ((loadSettings path).run world s).1 =
          ((Settings.ofMapping entries).map some).mapError .settings) ∧
    (t ≠ [] → (∀ c ∈ t, IsOctalDigit c) →
      Tag.ofPlain (String.ofList t) = .int ∧
      ∀ plain entries st, g.Writes k t plain entries →
        Settings.ofMapping (Settings.without k entries) = .ok st →
        (∀ h : octalValue t ≤ modeLimit,
          ((loadSettings path).run world s).1 = .ok (some (k.set ⟨octalValue t, h⟩ st))) ∧
        (modeLimit < octalValue t →
          ∃ f, ((loadSettings path).run world s).1 = .error f ∧ f.isBadInput = true)) ∧
    ∀ place, g.nodes[place]? = some (.untagged t true) → Tag.ofPlain (String.ofList t) = .int →
      ∀ {σ' : Type} (world' : Layer σ') (s' : σ'), world'.ShowsGraph path s' (g.quote place t) →
        ((loadSettings path).run world' s').1 = ((loadSettings path).run world s).1 := by
  have graph := loadSettings_graph shown
  have read : ∀ {plain entries}, g.Writes k t plain entries →
      ((loadSettings path).run world s).1 =
        ((Settings.ofMapping entries).map some).mapError .settings := by
    intro plain entries writes
    obtain ⟨d, built, settings⟩ := writes.settings (Path.plain path)
    rw [graph, Settings.ofGraph, built, ← settings]
  refine ⟨fun plain entries writes int => ⟨?_, read writes⟩, fun full octal => ?_, ?_⟩
  · unfold Settings.entry
    rw [writes.lookup? int]
    rfl
  · have int := ofPlain_digits full octal
    refine ⟨int, fun plain entries st writes rest => ?_⟩
    obtain ⟨within, beyond⟩ :=
      Settings.ofMapping_digits rest (writes.lookup? fun _ => int) full octal
    refine ⟨fun h => ?_, fun above => ?_⟩
    · rw [read writes, within h]
      rfl
    · obtain ⟨e, refused, bad⟩ := beyond above
      exact ⟨.settings e, by rw [read writes, refused]; rfl, bad⟩
  · intro place node int σ' world' s' shown'
    rw [graph, loadSettings_graph shown', ← Settings.ofGraph_untyped, Graph.quote_untyped node int,
      Settings.ofGraph_untyped]

/-! ### A file -/

deriving instance DecidableEq for Found, Yaml.Graph

/-- A machine with a configuration file. -/
def Machine.configured (content : String) : Machine :=
  let file : Seed := {
    path := "/etc/mkhome.yaml"
    body := .node (.file content.toUTF8.toList)
    mode := 0o644 }
  ({} : Machine).withTree (({} : Machine).tree.plant file)

/-- The graph of a file with a single mode in the settings mapping. -/
def singleMode (mode : Yaml.Node) : Graph where
  nodes := #[
    ⟨.mapping, .mapping [(1, 2)]⟩, .untagged "CreateHome".toList true,
    ⟨.mapping, .mapping [(3, 4)]⟩, .untagged "mode".toList true, mode]
  root := 0

/-- Digits that denote another number in base ten, without quotes and with them. -/
theorem loadSettings_modes_single :
    ((loadSettings "/etc/mkhome.yaml").run Machine.layer
        (.configured "CreateHome:\n  mode: 755\n")).1 =
      .ok (some { finalMode := { bits := 0o755 } }) ∧
    ((loadSettings "/etc/mkhome.yaml").run Machine.layer
        (.configured "CreateHome:\n  mode: '755'\n")).1 =
      .ok (some { finalMode := { bits := 0o755 } }) := by
  have shown : Machine.layer.ShowsGraph "/etc/mkhome.yaml"
      (.configured "CreateHome:\n  mode: 755\n") (singleMode (.untagged "755".toList true)) :=
    ⟨"CreateHome:\n  mode: 755\n".toUTF8.toList, "CreateHome:\n  mode: 755\n".toList,
      by decide +kernel, by decide +kernel, by decide +kernel⟩
  have shown' : Machine.layer.ShowsGraph "/etc/mkhome.yaml"
      (.configured "CreateHome:\n  mode: '755'\n")
      ((singleMode (.untagged "755".toList true)).quote 4 "755".toList) :=
    ⟨"CreateHome:\n  mode: '755'\n".toUTF8.toList, "CreateHome:\n  mode: '755'\n".toList,
      by decide +kernel, by decide +kernel, by decide +kernel⟩
  have writes : ∃ entries, (singleMode (.untagged "755".toList true)).Writes .finalMode
      "755".toList true entries ∧
      Settings.ofMapping (Settings.without .finalMode entries) = .ok {} := by
    have under : (match Document.ofGraph (singleMode (.untagged "755".toList true)) with
        | .ok d => (d.modeEntry? .finalMode).map fun under =>
            (under.1, Settings.ofMapping (Settings.without .finalMode under.2))
        | .error _ => none) = some (4, .ok {}) := by decide +kernel
    cases built : Document.ofGraph (singleMode (.untagged "755".toList true)) with
    | error e => rw [built] at under; cases under
    | ok d =>
      rw [built] at under
      obtain ⟨⟨place, entries⟩, under, same⟩ := Option.map_eq_some_iff.mp under
      obtain ⟨rfl, rest⟩ := Prod.mk.inj same
      exact ⟨entries, ⟨d, 4, built, under, rfl⟩, rest⟩
  obtain ⟨entries, writes, rest⟩ := writes
  obtain ⟨-, octal, quoted⟩ := loadSettings_modes shown .finalMode "755".toList
  have digits : "755".toList.all (fun c => IsOctalDigit c) = true := by decide
  obtain ⟨int, read⟩ := octal (by decide) fun c mem =>
    of_decide_eq_true (List.all_eq_true.mp digits c mem)
  have plain := (read true entries {} writes rest).1 (by decide)
  exact ⟨plain, (quoted 4 rfl int Machine.layer _ shown').trans plain⟩

end HomeProvision
