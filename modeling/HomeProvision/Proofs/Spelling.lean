import HomeProvision.Text.Words
import Mathlib.Data.List.Forall2

/-!
# How words are written

A word may be written in many ways: its characters may stand bare, behind backslashes or in quotes,
piece by piece (`Spells`). A line of words has gaps between them and perhaps around them
(`SpellsLine`). Whichever way is taken, splitting the line gives the words back, and a line that can be
split is one of these ways (`splitWords_eq_ok_iff`).

One way is always open: any text at all can stand in single quotes, where each single quote of its
own is written as the end of the quotation, a single quote in double quotes, and a new beginning
(`spells_singleQuoted`).
-/

namespace HomeProvision.Text

/-- Whether a character stands for itself in a word outside quotes. -/
def isBare (c : Char) : Bool :=
  !isWordGap c && c ≠ '\\' && c ≠ '\'' && c ≠ '"'

/-! ## Spellings -/

/-- What stands between double quotes, and the characters that it gives. A backslash is taken away
only where it escapes a double quote or another backslash. -/
inductive SpellsInside : (written text : List Char) → Prop
  | done : SpellsInside [] []
  | plain {c : Char} {w t : List Char} (mark : c ≠ '"' ∧ c ≠ '\\') (rest : SpellsInside w t) :
      SpellsInside (c :: w) (c :: t)
  | escaped {c : Char} {w t : List Char} (mark : c = '"' ∨ c = '\\') (rest : SpellsInside w t) :
      SpellsInside ('\\' :: c :: w) (c :: t)
  | kept {c : Char} {w t : List Char} (mark : c ≠ '"' ∧ c ≠ '\\') (rest : SpellsInside w t) :
      SpellsInside ('\\' :: c :: w) ('\\' :: c :: t)

/-- What is written piece by piece, and the characters that it gives. -/
inductive Spells : (written text : List Char) → Prop
  | done : Spells [] []
  | bare {c : Char} {w t : List Char} (plain : isBare c = true) (rest : Spells w t) :
      Spells (c :: w) (c :: t)
  | escaped {c : Char} {w t : List Char} (rest : Spells w t) : Spells ('\\' :: c :: w) (c :: t)
  | single {cs w t : List Char} (free : '\'' ∉ cs) (rest : Spells w t) :
      Spells ('\'' :: cs ++ '\'' :: w) (cs ++ t)
  | double {cs u w t : List Char} (inside : SpellsInside cs u) (rest : Spells w t) :
      Spells ('"' :: cs ++ '"' :: w) (u ++ t)

/-- What is written for a word, and the word. Something has to be written: the empty word takes a
pair of quotes. -/
def SpellsWord (written text : List Char) : Prop :=
  written ≠ [] ∧ Spells written text

/-- What is written for words, with gaps between them. -/
inductive SpellsAll : (written : List Char) → (texts : List (List Char)) → Prop
  | done : SpellsAll [] []
  | gap {c : Char} {w : List Char} {ts : List (List Char)} (blank : isWordGap c = true)
      (rest : SpellsAll w ts) : SpellsAll (c :: w) ts
  | last {w t : List Char} (word : SpellsWord w t) : SpellsAll w [t]
  | word {c : Char} {v t w : List Char} {ts : List (List Char)} (word : SpellsWord v t)
      (blank : isWordGap c = true) (rest : SpellsAll w ts) : SpellsAll (v ++ c :: w) (t :: ts)

/-- Whether a line is a way to write some words. -/
def SpellsLine (line : String) (words : List String) : Prop :=
  SpellsAll line.toList (words.map String.toList)

/-! ## Reading -/

variable {w t word rest : List Char}

theorem splitWordsFrom_single {cs : List Char} (free : '\'' ∉ cs) :
    splitWordsFrom id .single word (cs ++ '\'' :: rest) =
      splitWordsFrom id .bare (cs.reverse ++ word) rest := by
  induction cs generalizing word with
  | nil => simp [splitWordsFrom]
  | cons c cs ih =>
    have first : c ≠ '\'' := fun same => free (same ▸ List.mem_cons_self)
    simp [splitWordsFrom, first, ih fun mem => free (List.mem_cons_of_mem _ mem)]

theorem splitWordsFrom_double {cs u : List Char} (inside : SpellsInside cs u) :
    splitWordsFrom id .double word (cs ++ '"' :: rest) =
      splitWordsFrom id .bare (u.reverse ++ word) rest := by
  induction inside generalizing word with
  | done => simp [splitWordsFrom]
  | plain mark _ ih => simp [splitWordsFrom, mark, ih]
  | escaped mark _ ih => simp [splitWordsFrom, mark, ih]
  | kept mark _ ih => simp [splitWordsFrom, mark, ih]

/-- Inside a word, what is written is read as the characters that it spells. -/
theorem Spells.read (spells : Spells w t) :
    splitWordsFrom id .bare word (w ++ rest) =
      splitWordsFrom id .bare (t.reverse ++ word) rest := by
  induction spells generalizing word with
  | done => rfl
  | bare plain _ ih =>
    simp only [isBare, Bool.and_eq_true, Bool.not_eq_true', decide_eq_true_eq] at plain
    simp [splitWordsFrom, plain, ih]
  | escaped _ ih => simp [splitWordsFrom, isWordGap, ih]
  | single free _ ih => simp [splitWordsFrom, isWordGap, splitWordsFrom_single free, ih]
  | double inside _ ih => simp [splitWordsFrom, isWordGap, splitWordsFrom_double inside, ih]

/-- Between words, whatever is written for one begins it. -/
theorem SpellsWord.start (spells : SpellsWord w t) :
    splitWordsFrom id .gap word (w ++ rest) = splitWordsFrom id .bare t.reverse rest := by
  obtain ⟨full, spells⟩ := spells
  have same : splitWordsFrom id .gap word (w ++ rest) = splitWordsFrom id .bare [] (w ++ rest) := by
    cases spells with
    | done => exact absurd rfl full
    | bare plain _ =>
      simp only [isBare, Bool.and_eq_true, Bool.not_eq_true', decide_eq_true_eq] at plain
      simp [splitWordsFrom, plain]
    | _ => simp [splitWordsFrom, isWordGap]
  rw [same, spells.read, List.append_nil]

theorem SpellsAll.split {ts : List (List Char)} (spells : SpellsAll w ts) :
    splitWordsFrom id .gap word w = .ok ts := by
  induction spells generalizing word with
  | done => rfl
  | gap blank _ ih => simp [splitWordsFrom, blank, ih]
  | @last w t spells =>
    have read : splitWordsFrom id .gap word (w ++ []) = splitWordsFrom id .bare t.reverse [] :=
      spells.start
    rw [List.append_nil] at read
    simp [read, splitWordsFrom]
  | word spells blank _ ih =>
    rw [spells.start]
    simp [splitWordsFrom, blank, ih, Except.map]

/-- A line of words is split into these words. -/
theorem splitWords_spelled {line : String} {words : List String} (spells : SpellsLine line words) :
    splitWords line = .ok words := by
  unfold splitWords
  rw [spells.split]
  simp [Except.map]

/-! ## What is read is spelled -/

/-- How a line goes on inside a word: the rest of the word is spelled, and then come the end of the
line, or a gap and the other words. `word` holds the characters so far, the last one first. -/
inductive Continues (word : List Char) : (written : List Char) → (texts : List (List Char)) → Prop
  | last {w t : List Char} (rest : Spells w t) : Continues word w [word.reverse ++ t]
  | gap {v t w : List Char} {c : Char} {ts : List (List Char)} (rest : Spells v t)
      (blank : isWordGap c = true) (others : SpellsAll w ts) :
      Continues word (v ++ c :: w) ((word.reverse ++ t) :: ts)

/-- How a line goes on inside double quotes. -/
def ContinuesInside (word written : List Char) (texts : List (List Char)) : Prop :=
  ∃ cs u w, SpellsInside cs u ∧ written = cs ++ '"' :: w ∧ Continues (u.reverse ++ word) w texts

/-- How a line goes on from a state. -/
def WordState.Continues (word written : List Char) (texts : List (List Char)) :
    WordState Char → Prop
  | gap => SpellsAll written texts
  | bare => Text.Continues word written texts
  | bareEscape => Text.Continues word ('\\' :: written) texts
  | single =>
      ∃ cs w, '\'' ∉ cs ∧ written = cs ++ '\'' :: w ∧ Text.Continues (cs.reverse ++ word) w texts
  | double => ContinuesInside word written texts
  | doubleEscape c => c = '\\' → ContinuesInside word ('\\' :: written) texts

section

variable {v : List Char} {c : Char} {ts : List (List Char)}

/-- One more piece of a word. -/
theorem Continues.piece (spells : ∀ {w u}, Spells w u → Spells (v ++ w) (t ++ u))
    (h : Continues (t.reverse ++ word) w ts) : Continues word (v ++ w) ts := by
  have joined : ∀ u : List Char, (t.reverse ++ word).reverse ++ u = word.reverse ++ (t ++ u) := by
    simp
  cases h with
  | last rest =>
    rw [joined]
    exact .last (spells rest)
  | gap rest blank others =>
    rw [joined, ← List.append_assoc]
    exact .gap (spells rest) blank others

theorem Continues.single {cs : List Char} (free : '\'' ∉ cs)
    (h : Continues (cs.reverse ++ word) w ts) : Continues word ('\'' :: (cs ++ '\'' :: w)) ts := by
  have spells : ∀ {w u}, Spells w u → Spells ('\'' :: cs ++ ['\''] ++ w) (cs ++ u) :=
    fun rest => by simpa using Spells.single free rest
  simpa using h.piece spells

theorem ContinuesInside.close (h : ContinuesInside word w ts) : Continues word ('"' :: w) ts := by
  obtain ⟨cs, u, w, inside, rfl, h⟩ := h
  have spells : ∀ {w t}, Spells w t → Spells ('"' :: cs ++ ['"'] ++ w) (u ++ t) :=
    fun rest => by simpa using Spells.double inside rest
  simpa using h.piece spells

theorem ContinuesInside.piece
    (spells : ∀ {w u}, SpellsInside w u → SpellsInside (v ++ w) (t ++ u))
    (h : ContinuesInside (t.reverse ++ word) w ts) : ContinuesInside word (v ++ w) ts := by
  obtain ⟨cs, u, w, inside, rfl, h⟩ := h
  refine ⟨v ++ cs, t ++ u, w, spells inside, by simp, ?_⟩
  rwa [List.reverse_append, List.append_assoc]

/-- A word that goes on where no gap is begins the others. -/
theorem Continues.spellsAll (h : Continues [] w ts) (first : w = c :: rest)
    (solid : ¬ isWordGap c = true) : SpellsAll w ts := by
  cases h with
  | last spells => exact .last ⟨by rw [first]; exact List.cons_ne_nil _ _, spells⟩
  | gap spells blank others =>
    refine .word ⟨fun none => ?_, spells⟩ blank others
    subst none
    obtain ⟨rfl, -⟩ := List.cons.inj first
    exact solid blank

theorem isBare_of_not {c : Char} (solid : ¬ isWordGap c = true) (escape : ¬ c = '\\')
    (single : ¬ c = '\'') (double : ¬ c = '"') : isBare c = true := by
  simp [isBare, solid, escape, single, double]

end

/-- Wherever a line is split from, it goes on as it is split. -/
theorem continues_of_split {state : WordState Char} {cs : List Char} {ts : List (List Char)}
    (split : splitWordsFrom id state word cs = .ok ts) : state.Continues word cs ts := by
  fun_induction splitWordsFrom id state word cs generalizing ts with
  -- at the end of the line
  | case1 =>
    cases split
    exact .done
  | case2 word =>
    cases split
    have whole : Continues word [] [word.reverse ++ []] := .last .done
    simpa [WordState.Continues] using whole
  | case3 | case4 | case5 | case6 => cases split
  -- between words
  | case7 word c rest blank ih => exact .gap blank (ih split)
  | case8 word c rest solid escape ih =>
    obtain rfl : c = '\\' := escape
    exact Continues.spellsAll (ih split) rfl solid
  | case9 word c rest solid _ quote ih =>
    obtain rfl : c = '\'' := quote
    obtain ⟨cs, w, free, rfl, h⟩ := ih split
    exact (Continues.single free h).spellsAll rfl solid
  | case10 word c rest solid _ _ quote ih =>
    obtain rfl : c = '"' := quote
    exact (ContinuesInside.close (ih split)).spellsAll rfl solid
  | case11 word c rest solid escape single double ih =>
    exact ((ih split).piece (v := [c]) (t := [c])
      (.bare (isBare_of_not solid escape single double))).spellsAll rfl solid
  -- inside a word
  | case12 word c rest blank ih =>
    cases read : splitWordsFrom id .gap [] rest <;> rw [read] at split <;> cases split
    have whole : Continues word ([] ++ c :: rest) ((word.reverse ++ []) :: _) :=
      .gap .done blank (ih read)
    simpa [WordState.Continues] using whole
  | case13 word c rest _ escape ih =>
    obtain rfl : c = '\\' := escape
    exact ih split
  | case14 word c rest _ _ quote ih =>
    obtain rfl : c = '\'' := quote
    obtain ⟨cs, w, free, rfl, h⟩ := ih split
    exact Continues.single free h
  | case15 word c rest _ _ _ quote ih =>
    obtain rfl : c = '"' := quote
    exact ContinuesInside.close (ih split)
  | case16 word c rest solid escape single double ih =>
    exact (ih split).piece (v := [c]) (t := [c]) (.bare (isBare_of_not solid escape single double))
  | case17 word c rest ih => exact (ih split).piece (v := ['\\', c]) (t := [c]) .escaped
  -- inside quotes
  | case18 word c rest quote ih =>
    obtain rfl : c = '\'' := quote
    exact ⟨[], rest, List.not_mem_nil, rfl, ih split⟩
  | case19 word c rest other ih =>
    obtain ⟨cs, w, free, rfl, h⟩ := ih split
    refine ⟨c :: cs, w, ?_, rfl, by simpa using h⟩
    exact List.not_mem_cons_of_ne_of_not_mem (Ne.symm other) free
  | case20 word c rest quote ih =>
    obtain rfl : c = '"' := quote
    exact ⟨[], [], rest, .done, rfl, ih split⟩
  | case21 word c rest _ escape ih =>
    obtain rfl : c = '\\' := escape
    exact ih split rfl
  | case22 word c rest quote escape ih =>
    exact (ih split).piece (v := [c]) (t := [c]) (.plain ⟨quote, escape⟩)
  | case23 backslash word c rest marked ih =>
    have mark : c = '"' ∨ c = '\\' := by simpa using marked
    exact fun _ => (ih split).piece (v := ['\\', c]) (t := [c]) (.escaped mark)
  | case24 backslash word c rest marked ih =>
    have mark : c ≠ '"' ∧ c ≠ '\\' := by simpa using marked
    rintro rfl
    exact (ih split).piece (v := ['\\', c]) (t := ['\\', c]) (.kept mark)

/-- Splitting gives some words exactly where the line is a way to write them. -/
theorem splitWords_eq_ok_iff {line : String} {words : List String} :
    splitWords line = .ok words ↔ SpellsLine line words := by
  refine ⟨fun split => ?_, splitWords_spelled⟩
  unfold splitWords at split
  cases read : splitWordsFrom id .gap [] line.toList <;> rw [read] at split <;> cases split
  have spells : SpellsAll line.toList _ := continues_of_split read
  have same : String.toList ∘ String.ofList = id := funext fun _ => String.toList_ofList
  unfold SpellsLine
  rwa [List.map_map, same, List.map_id]

/-! ## Ill-formed lines -/

section

variable {α : Type}

/-- A state with what shows of its character. -/
def WordState.map (view : α → Char) : WordState α → WordState Char
  | gap => gap
  | bare => bare
  | bareEscape => bareEscape
  | single => single
  | double => double
  | doubleEscape backslash => doubleEscape (view backslash)

/-- A line is split as what shows of it. -/
theorem splitWordsFrom_map (view : α → Char) (state : WordState α) (word cs : List α) :
    splitWordsFrom id (state.map view) (word.map view) (cs.map view) =
      (splitWordsFrom view state word cs).map fun words => words.map (List.map view) := by
  fun_induction splitWordsFrom view state word cs
  case case12 word c rest blank ih =>
    rw [WordState.map] at ih
    simp only [WordState.map, List.map_cons, splitWordsFrom, id, blank, if_true]
    rw [List.map_nil] at ih
    rw [ih]
    cases splitWordsFrom view .gap [] rest <;> simp [Except.map]
  all_goals simp_all [splitWordsFrom, WordState.map, Except.map]

theorem splitWords_seenText (ps : List CodePoint) :
    splitWords (CodePoint.seenText ps) =
      (splitPoints ps).map fun words => words.map CodePoint.seenText := by
  unfold splitWords CodePoint.seenText splitPoints
  rw [String.toList_ofList]
  have same := splitWordsFrom_map CodePoint.seen .gap [] ps
  rw [WordState.map, List.map_nil] at same
  rw [same]
  cases splitWordsFrom CodePoint.seen .gap [] ps <;> simp [Except.map]

end

/-! ## Quoting -/

/-- What is written for a character in single quotes. -/
def singleQuotedChar (c : Char) : List Char :=
  if c = '\'' then ['\'', '"', '\'', '"', '\''] else [c]

/-- A text in single quotes. -/
def singleQuoted (cs : List Char) : List Char :=
  '\'' :: cs.flatMap singleQuotedChar ++ ['\'']

/-- Any text can stand in single quotes. -/
theorem spells_singleQuoted (cs : List Char) : SpellsWord (singleQuoted cs) cs := by
  refine ⟨List.cons_ne_nil _ _, ?_⟩
  -- `opened` is what stands in the present pair of quotes so far
  suffices ∀ opened : List Char, '\'' ∉ opened →
      Spells ('\'' :: opened ++ (cs.flatMap singleQuotedChar ++ ['\''])) (opened ++ cs) by
    simpa [singleQuoted] using this [] (by simp)
  induction cs with
  | nil => exact fun opened free => .single free .done
  | cons c cs ih =>
    intro opened free
    by_cases quote : c = '\''
    · subst quote
      have inside : SpellsInside ['\''] ['\''] := .plain (by decide) .done
      simpa [singleQuotedChar] using Spells.single free (.double inside (ih [] (by simp)))
    · have longer := ih (opened ++ [c]) (by simp [free, Ne.symm quote])
      simpa [singleQuotedChar, quote] using longer

/-- A text of bare characters stands for itself. -/
theorem spells_bare (full : t ≠ []) (plain : t.all isBare = true) : SpellsWord t t := by
  refine ⟨full, ?_⟩
  clear full
  induction t with
  | nil => exact .done
  | cons c cs ih =>
    rw [List.all_cons, Bool.and_eq_true] at plain
    exact .bare plain.1 (ih plain.2)

/-! ## Gaps -/

/-- What stands between two words. -/
structure Gap where
  chars : List Char
  nonempty : chars ≠ []
  blank : chars.all isWordGap = true

/-- Written words one after the other, with any gaps between them. -/
def spaced (gap : Nat → Gap) : List (List Char) → List Char
  | [] => []
  | [w] => w
  | w :: rest => w ++ (gap 0).chars ++ spaced (fun i => gap (i + 1)) rest

theorem SpellsAll.gaps {cs : List Char} {ts : List (List Char)}
    (blank : cs.all isWordGap = true) (rest : SpellsAll w ts) : SpellsAll (cs ++ w) ts := by
  induction cs with
  | nil => exact rest
  | cons c cs ih =>
    rw [List.all_cons, Bool.and_eq_true] at blank
    exact .gap blank.1 (ih blank.2)

theorem spellsAll_spaced {ws ts : List (List Char)}
    (spell : List.Forall₂ SpellsWord ws ts) (gap : Nat → Gap) :
    SpellsAll (spaced gap ws) ts := by
  induction spell generalizing gap with
  | nil => exact .done
  | @cons w t ws ts first rest ih =>
    cases rest with
    | nil => exact .last first
    | cons next more =>
      have onward := ih fun i => gap (i + 1)
      change SpellsAll (w ++ (gap 0).chars ++ spaced _ _) _
      obtain ⟨chars, nonempty, blank⟩ := gap 0
      cases chars with
      | nil => exact absurd rfl nonempty
      | cons c cs =>
        rw [List.all_cons, Bool.and_eq_true] at blank
        simpa using SpellsAll.word first blank.1 (onward.gaps blank.2)

end HomeProvision.Text
