import HomeProvision.Proofs.Change
import HomeProvision.Yaml.Document

/-!
# The progress of the builder

The builder of a document works on the nodes of a graph in place. What a step of it may do is said
once (`Builder.Evolves`, `Builder.Advances`), and each step is shown to do no more than that: value
marks among keys become texts and no other kind changes, and a scalar that is an integer or a text
keeps its spelling and has it as its value once it has been reached.

Entries of a mapping change only where it takes over those of others. While this goes on, mappings
that are merged are looked into themselves, and may lead back to it, so that its entries may be
taken out twice under way. In the end it has no marks of merging left (`flattenFrom_flattens`), and
a mapping without marks is never changed again.
-/

namespace HomeProvision.Yaml

open HomeProvision HomeProvision.Data HomeProvision.Text

/-! ## States of the builder -/

namespace Builder

variable (b : Builder)

/-- The kind of a node. -/
def tag? (place : Nat) : Option Tag :=
  b.nodes[place]?.map (·.tag)

/-- Whether a node is a scalar that stands for its own text. -/
def Textual (place : Nat) (text : List CodePoint) : Prop :=
  ∃ tag, b.nodes[place]? = some ⟨tag, .scalar text⟩ ∧ (tag = .int ∨ tag = .text)

/-- The entries of a mapping, none of any other node. -/
def entries (place : Nat) : List (Nat × Nat) :=
  (b.nodes[place]?.map (·.content.entries)).getD []

/-- Whether a node is a mapping. -/
def IsMapping (place : Nat) : Prop :=
  ∃ tag entries, b.nodes[place]? = some ⟨tag, .mapping entries⟩

/-- Whether an entry is a mark of merging. -/
def IsMark (entry : Nat × Nat) : Prop :=
  b.tag? entry.1 = some .merge

/-- The first mark of merging among the entries `rest`, the first of which has the given index. -/
inductive FirstMark : (index : Nat) → (rest : List (Nat × Nat)) → Option (Nat × Nat) → Prop
  | none {index : Nat} : FirstMark index [] none
  | here {index key target : Nat} {rest : List (Nat × Nat)} (mark : b.IsMark (key, target)) :
      FirstMark index ((key, target) :: rest) (some (index, target))
  | later {index : Nat} {entry : Nat × Nat} {rest : List (Nat × Nat)} {next : Option (Nat × Nat)}
      (unmarked : ¬ b.IsMark entry) (h : FirstMark (index + 1) rest next) :
      FirstMark index (entry :: rest) next

/-- Whether none of some entries is a mark of merging. -/
def Unmarked (entries : List (Nat × Nat)) : Prop :=
  ∀ entry ∈ entries, ¬ b.IsMark entry

/-- Whether a mapping has no marks of merging. -/
def Flat (place : Nat) : Prop :=
  b.Unmarked (b.entries place)

/-- Whether a node counts as reached. -/
def Seen (place : Nat) : Prop :=
  b.seen[place]? ≠ some false

/-- Whether the value of a node is a text. -/
def HasText (place : Nat) (text : List CodePoint) : Prop :=
  b.values[place]? = some (some (.ofPoints text))

/-- Whether a mapping has no marks of merging and all its values have been reached. -/
def Done (place : Nat) : Prop :=
  b.Flat place ∧ ∀ entry ∈ b.entries place, b.Seen entry.2

/-- Whether a mapping, if the node is one, is done. -/
def DoneIfMapping (place : Nat) : Prop :=
  b.tag? place = some .mapping → b.Done place

/-- Whether every mapping that has been reached is put off or done. -/
def Settled : Prop :=
  ∀ place, b.Seen place → place ∈ b.pending ∨ b.DoneIfMapping place

end Builder

/-- No mapping. -/
def Builder.nowhere (_ : Nat) : Prop :=
  False

/-- How a builder gets on. Value marks become texts and no other kind changes, and texts stay. The
mappings that may be touched aside, entries change only where marks of merging are taken out. What
has been reached stays so, and a text that has been reached has its value. -/
structure Builder.Evolves (touched : Nat → Prop) (b b' : Builder) : Prop where
  nodes_size : b'.nodes.size = b.nodes.size
  values_size : b'.values.size = b.values.size
  tag : ∀ place, b'.tag? place = b.tag? place ∨
    (b.tag? place = some .default ∧ b'.tag? place = some .text)
  textual : ∀ {place text}, b.Textual place text → b'.Textual place text
  entries : ∀ place, ¬ touched place →
    b'.entries place = b.entries place ∨ (¬ b.Flat place ∧ b'.Flat place)
  seen : ∀ {place}, b.Seen place → b'.Seen place
  value : b.values.size = b.nodes.size → ∀ {place text}, b.Textual place text →
    (b.Seen place → b.HasText place text) → b'.Seen place → b'.HasText place text

/-- How a builder advances at one distance from the root: mappings that it reaches are put off. -/
structure Builder.Advances (touched : Nat → Prop) (b b' : Builder) : Prop
    extends Builder.Evolves touched b b' where
  pending : ∀ {place}, place ∈ b.pending → place ∈ b'.pending
  queued : ∀ {place}, b'.Seen place → ¬ b.Seen place → b.tag? place = some .mapping →
    place ∈ b'.pending

namespace Builder

variable {touched : Nat → Prop} {b b' b'' : Builder}

theorem FirstMark.unmarked {index : Nat} {rest : List (Nat × Nat)} {next : Option (Nat × Nat)}
    (h : b.FirstMark index rest next) (without : next = Option.none) : b.Unmarked rest := by
  induction h with
  | none => exact fun _ mem => absurd mem List.not_mem_nil
  | here => cases without
  | later unmarked _ ih => exact List.forall_mem_cons.mpr ⟨unmarked, ih without⟩

/-- What comes before the first mark is unmarked. -/
theorem FirstMark.split {index index' target : Nat} {rest : List (Nat × Nat)}
    {next : Option (Nat × Nat)} (h : b.FirstMark index rest next)
    (found : next = some (index', target)) :
    ∃ before entry after, rest = before ++ entry :: after ∧ index' = index + before.length ∧
      b.IsMark entry ∧ b.Unmarked before := by
  induction h with
  | none => cases found
  | here mark =>
    cases found
    exact ⟨[], _, _, rfl, rfl, mark, nofun⟩
  | @later _ entry _ _ unmarked _ ih =>
    obtain ⟨before, entry', after, rfl, rfl, mark, unmarked'⟩ := ih found
    refine ⟨entry :: before, entry', after, rfl, ?_, mark,
      List.forall_mem_cons.mpr ⟨unmarked, unmarked'⟩⟩
    rw [List.length_cons]
    omega

namespace Evolves

theorem tag_iff (h : Evolves touched b b') {place : Nat} {t : Tag} (other : t ≠ .default)
    (other' : t ≠ .text) : b'.tag? place = some t ↔ b.tag? place = some t := by
  rcases h.tag place with same | ⟨was, is⟩
  · rw [same]
  · rw [was, is]
    simp [other.symm, other'.symm]

theorem mapping_iff (h : Evolves touched b b') {place : Nat} :
    b'.tag? place = some .mapping ↔ b.tag? place = some .mapping :=
  h.tag_iff nofun nofun

theorem isMark_iff (h : Evolves touched b b') {entry : Nat × Nat} :
    b'.IsMark entry ↔ b.IsMark entry :=
  h.tag_iff nofun nofun

theorem unmarked_iff (h : Evolves touched b b') {entries : List (Nat × Nat)} :
    b'.Unmarked entries ↔ b.Unmarked entries := by
  unfold Unmarked
  simp only [h.isMark_iff]

/-- A mapping with the same entries is flat if it was. -/
theorem flat_iff (h : Evolves touched b b') {place : Nat}
    (same : b'.entries place = b.entries place) : b'.Flat place ↔ b.Flat place := by
  unfold Flat
  rw [same, h.unmarked_iff]

theorem refl (touched : Nat → Prop) (b : Builder) : Evolves touched b b :=
  ⟨rfl, rfl, fun _ => .inl rfl, id, fun _ _ => .inl rfl, id, fun _ _ _ _ had seen => had seen⟩

theorem trans (h : Evolves touched b b') (h' : Evolves touched b' b'') : Evolves touched b b'' where
  nodes_size := h'.nodes_size.trans h.nodes_size
  values_size := h'.values_size.trans h.values_size
  tag place := by
    rcases h.tag place with same | ⟨was, is⟩ <;> rcases h'.tag place with same' | ⟨was', is'⟩
    · exact .inl (same'.trans same)
    · exact .inr ⟨same ▸ was', is'⟩
    · exact .inr ⟨was, same'.trans is⟩
    · rw [is] at was'; cases was'
  textual text := h'.textual (h.textual text)
  entries place free := by
    rcases h.entries place free with same | ⟨marked, flat⟩ <;>
      rcases h'.entries place free with same' | ⟨marked', flat'⟩
    · exact .inl (same'.trans same)
    · exact .inr ⟨fun flat => marked' ((h.flat_iff same).mpr flat), flat'⟩
    · exact .inr ⟨marked, (h'.flat_iff same').mpr flat⟩
    · exact absurd flat marked'
  seen seen := h'.seen (h.seen seen)
  value sized _ _ text had :=
    h'.value (by rw [h.values_size, h.nodes_size, sized]) (h.textual text) (h.value sized text had)

theorem with_pending (b : Builder) (pending : List Nat) :
    Evolves nowhere b { b with pending } :=
  ⟨rfl, rfl, fun _ => .inl rfl, id, fun _ _ => .inl rfl, id, fun _ _ _ _ had seen => had seen⟩

/-- More mappings may be touched. -/
theorem anywhere (h : Evolves nowhere b b') (touched : Nat → Prop) : Evolves touched b b' :=
  { h with entries := fun place _ => h.entries place id }

/-- The entries of a flat mapping stay. -/
theorem entries_of_flat (h : Evolves nowhere b b') {place : Nat} (flat : b.Flat place) :
    b'.entries place = b.entries place :=
  (h.entries place id).resolve_right fun marked => marked.1 flat

/-- A mapping that is done stays so. -/
theorem done (h : Evolves nowhere b b') {place : Nat} (was : b.DoneIfMapping place) :
    b'.DoneIfMapping place := by
  intro mapping
  obtain ⟨flat, reached⟩ := was (h.mapping_iff.mp mapping)
  have same := h.entries_of_flat flat
  refine ⟨(h.flat_iff same).mpr flat, fun entry mem => h.seen (reached entry ?_)⟩
  rwa [same] at mem

end Evolves

namespace Advances

theorem refl (touched : Nat → Prop) (b : Builder) : Advances touched b b :=
  ⟨.refl touched b, id, fun seen unseen => absurd seen unseen⟩

theorem trans (h : Advances touched b b') (h' : Advances touched b' b'') :
    Advances touched b b'' where
  toEvolves := h.toEvolves.trans h'.toEvolves
  pending mem := h'.pending (h.pending mem)
  queued {place} seen unseen mapping := by
    by_cases between : b'.Seen place
    · exact h'.pending (h.queued between unseen mapping)
    · exact h'.queued seen between (h.mapping_iff.mpr mapping)

theorem anywhere (h : Advances nowhere b b') (touched : Nat → Prop) : Advances touched b b' :=
  { h with toEvolves := h.toEvolves.anywhere touched }

/-- If all that was reached before gets done, what is left has been put off. -/
theorem settles (h : Advances nowhere b b')
    (done : ∀ place, b.Seen place → b'.DoneIfMapping place) : b'.Settled := by
  intro place seen
  by_cases was : b.Seen place
  · exact .inr (done place was)
  · by_cases mapping : b'.tag? place = some .mapping
    · exact .inl (h.queued seen was (h.mapping_iff.mp mapping))
    · exact .inr fun mapping' => absurd mapping' mapping

/-- A mapping is not touched in effect if its entries stay where it was flat, and else it is flat
in the end. -/
theorem settled {place : Nat} (h : Advances (· = place) b b')
    (kept : b.Flat place → b'.entries place = b.entries place) (flat : b'.Flat place) :
    Advances nowhere b b' where
  toEvolves := { h.toEvolves with
    entries := fun place' _ => by
      by_cases here : place' = place
      · subst here
        by_cases was : b.Flat place'
        · exact .inl (kept was)
        · exact .inr ⟨was, flat⟩
      · exact h.entries place' here }
  pending := h.pending
  queued := h.queued

/-- A change of the nodes alone. -/
theorem of_nodes {nodes : Array Node} (size : nodes.size = b.nodes.size)
    (tag : ∀ place, ({ b with nodes } : Builder).tag? place = b.tag? place ∨
      (b.tag? place = some .default ∧ ({ b with nodes } : Builder).tag? place = some .text))
    (textual : ∀ {place text}, b.Textual place text →
      ({ b with nodes } : Builder).Textual place text)
    (entries : ∀ place, ¬ touched place →
      ({ b with nodes } : Builder).entries place = b.entries place) :
    Advances touched b { b with nodes } where
  nodes_size := size
  values_size := rfl
  tag := tag
  textual := textual
  entries place free := .inl (entries place free)
  seen := id
  value _ _ _ _ had seen := had seen
  pending := id
  queued seen unseen _ := absurd seen unseen

end Advances

end Builder

namespace Build

open Builder

/-! ## Steps -/

variable {α β : Type} {b b' b'' : Builder}

theorem bind_eq_ok {m : Build α} {k : α → Build β} {r : β × Builder} :
    (m >>= k).run b = .ok r ↔ ∃ a b', m.run b = .ok (a, b') ∧ (k a).run b' = .ok r := by
  rw [StateT.run_bind, Machine.bind_eq_ok, Prod.exists]

/-- A step that reads a node comes to that node, where there is one. -/
theorem nodeAt_run (b : Builder) (place : Nat) :
    (nodeAt place).run b = (b.nodes[place]?).elim (refuse.run b) fun n => .ok (n, b) := by
  unfold nodeAt
  rw [StateT.run_bind]
  change StateT.run (_ : Build Node) b = _
  dsimp only
  cases b.nodes[place]? <;> rfl

theorem nodeAt_eq_ok {place : Nat} {n : Node} :
    (nodeAt place).run b = .ok (n, b') ↔ b.nodes[place]? = some n ∧ b = b' := by
  have refused : refuse.run b ≠ .ok (n, b') := fun ok => by cases ok
  rw [nodeAt_run]
  cases b.nodes[place]? with
  | none => simpa using refused
  | some n' => simp

theorem entriesAt_eq_ok {place : Nat} {entries : List (Nat × Nat)}
    (run : (entriesAt place).run b = .ok (entries, b')) :
    (b.IsMapping place ∧ entries = b.entries place) ∧ b = b' := by
  obtain ⟨⟨tag, content⟩, _, read, body⟩ := bind_eq_ok.mp run
  obtain ⟨found, rfl⟩ := nodeAt_eq_ok.mp read
  unfold Builder.entries Builder.IsMapping
  cases content with
  | mapping entries' =>
    cases body
    exact ⟨⟨⟨tag, entries, found⟩, by rw [found]; rfl⟩, rfl⟩
  | _ => cases body

theorem itemsAt_eq_ok {place : Nat} {items : List Nat}
    (run : (itemsAt place).run b = .ok (items, b')) : b = b' := by
  obtain ⟨n, _, read, body⟩ := bind_eq_ok.mp run
  obtain ⟨-, rfl⟩ := nodeAt_eq_ok.mp read
  split at body <;> cases body
  rfl

theorem mergeMarks_eq_ok {marks : Nat} (run : mergeMarks.run b = .ok (marks, b')) : b = b' := by
  cases run
  rfl

/-- Reading the text of a scalar changes nothing. -/
theorem scalarText_eq_ok {fuel place : Nat} {text : List CodePoint}
    (run : (scalarText fuel place).run b = .ok (text, b')) : b = b' := by
  induction fuel generalizing place with
  | zero => cases run
  | succ fuel ih =>
    obtain ⟨n, _, read, body⟩ := bind_eq_ok.mp run
    obtain ⟨-, rfl⟩ := nodeAt_eq_ok.mp read
    split at body
    · cases body; rfl
    · cases body
    · obtain ⟨_, _, got, inner⟩ := bind_eq_ok.mp body
      cases got
      dsimp only at inner
      split at inner
      · exact ih inner
      · cases inner

theorem scalarText_textual {fuel place : Nat} {text : List CodePoint}
    (textual : b.Textual place text) : (scalarText (fuel + 1) place).run b = .ok (text, b) := by
  obtain ⟨tag, found, -⟩ := textual
  exact bind_eq_ok.mpr ⟨_, _, nodeAt_eq_ok.mpr ⟨found, rfl⟩, rfl⟩

theorem withSource_ofPoints (text : List CodePoint) (source : Nat) :
    (Value.ofPoints text).withSource source = .ofPoints text := by
  unfold Value.ofPoints
  cases CodePoint.text? text <;> rfl

/-- The value of a scalar that stands for its text is that text. -/
theorem scalarValue_eq_ok {place : Nat} {v : Value}
    (run : (scalarValue place).run b = .ok (v, b')) :
    b = b' ∧ ∀ text, b.Textual place text → v = .ofPoints text := by
  obtain ⟨n, _, read, body⟩ := bind_eq_ok.mp run
  obtain ⟨found, rfl⟩ := nodeAt_eq_ok.mp read
  obtain ⟨_, _, got, body'⟩ := bind_eq_ok.mp body
  cases got
  obtain ⟨text', _, spelled, body''⟩ := bind_eq_ok.mp body'
  obtain rfl := scalarText_eq_ok spelled
  dsimp only at body''
  split at body''
  · cases body''
  · obtain ⟨v', _, made, last⟩ := bind_eq_ok.mp body''
    cases valued : ScalarValue.ofText n.tag text' with
    | error e => rw [valued] at made; cases made
    | ok v'' =>
      rw [valued] at made
      cases made
      cases last
      refine ⟨rfl, fun text textual => ?_⟩
      cases (scalarText_textual textual).symm.trans spelled
      obtain ⟨tag, found', int | text⟩ := textual <;> cases found.symm.trans found' <;>
        subst_vars <;> cases valued <;> exact withSource_ofPoints _ _

/-- What reaching a node does. -/
theorem reach_cases {place : Nat} (run : (reach place).run b = .ok ((), b')) :
    (b.Seen place ∧ b' = b) ∨
    ∃ n, ¬ b.Seen place ∧ b.nodes[place]? = some n ∧
      ((n.tag.isCollection = true ∧
        b' = { b with seen := b.seen.set! place true, pending := place :: b.pending }) ∨
      (n.tag.isCollection = false ∧ ∃ v, (∀ text, b.Textual place text → v = .ofPoints text) ∧
        b' = { b with
          seen := b.seen.set! place true
          values := b.values.set! place (some v) })) := by
  obtain ⟨_, _, got, body⟩ := bind_eq_ok.mp run
  cases got
  have counted : b.seen.getD place true = true ↔ b.Seen place := by
    unfold Builder.Seen
    rw [Array.getD_eq_getD_getElem?]
    cases b.seen[place]? with
    | none => simp
    | some seen => cases seen <;> simp
  split at body
  · next seen =>
    cases body
    exact .inl ⟨counted.mp seen, rfl⟩
  · next unseen =>
    obtain ⟨_, _, set, body⟩ := bind_eq_ok.mp body
    cases set
    obtain ⟨n, _, read, body⟩ := bind_eq_ok.mp body
    obtain ⟨found, rfl⟩ := nodeAt_eq_ok.mp read
    refine .inr ⟨n, fun seen => unseen (counted.mpr seen), found, ?_⟩
    split at body
    · next collected =>
      cases body
      exact .inl ⟨collected, rfl⟩
    · next single =>
      obtain ⟨v, _, valued, body⟩ := bind_eq_ok.mp body
      obtain ⟨same, spelled⟩ := scalarValue_eq_ok valued
      subst same
      cases body
      exact .inr ⟨by simpa using single, v, spelled, rfl⟩

theorem tag?_modify {f : Node → Node} {place place' : Nat} (keeps : ∀ n, (f n).tag = n.tag) :
    ({ b with nodes := b.nodes.modify place f } : Builder).tag? place' = b.tag? place' := by
  unfold Builder.tag?
  rw [Array.getElem?_modify]
  split
  · cases b.nodes[place']? <;> simp [keeps]
  · rfl

theorem kind {n : Node} {place : Nat} (found : b.nodes[place]? = some n) :
    b.tag? place = some n.tag := by
  unfold Builder.tag?
  rw [found]
  rfl

theorem unmarked {n : Node} {entry : Nat × Nat} (found : b.nodes[entry.1]? = some n)
    (other : n.tag ≠ .merge) : ¬ b.IsMark entry := by
  unfold Builder.IsMark
  rw [kind found]
  exact fun same => other (Option.some.inj same)

theorem setTag_advances {place : Nat} (value : b.tag? place = some .default)
    (run : (setTag place .text).run b = .ok ((), b')) :
    Advances nowhere b b' ∧ ∀ place, b'.entries place = b.entries place := by
  cases run
  have same : ∀ place', ({ b with nodes := b.nodes.modify place fun n => { n with tag := .text } } :
      Builder).entries place' = b.entries place' := by
    intro place'
    unfold Builder.entries
    rw [Array.getElem?_modify]
    split
    · cases b.nodes[place']? <;> rfl
    · rfl
  refine ⟨.of_nodes Array.size_modify (fun place' => ?_) ?_ fun place' _ => same place', same⟩
  · unfold Builder.tag? at value ⊢
    rw [Array.getElem?_modify]
    split
    · next here =>
      subst here
      obtain ⟨n, found, -⟩ := Option.map_eq_some_iff.mp value
      exact .inr ⟨value, by rw [found]; rfl⟩
    · exact .inl rfl
  · rintro place' text ⟨tag, found, textual⟩
    refine ⟨tag, ?_, textual⟩
    dsimp only
    rw [Array.getElem?_modify, if_neg, found]
    rintro rfl
    unfold Builder.tag? at value
    rw [found] at value
    cases value
    exact textual.elim nofun nofun

theorem setEntries_advances {place : Nat} {entries : List (Nat × Nat)} (mapping : b.IsMapping place)
    (run : (setEntries place entries).run b = .ok ((), b')) :
    Advances (· = place) b b' ∧ b'.entries place = entries := by
  cases run
  obtain ⟨tag, entries', found⟩ := mapping
  refine ⟨.of_nodes Array.size_modify (fun place' => .inl (tag?_modify fun _ => rfl)) ?_ ?_, ?_⟩
  · rintro place' text ⟨tag', found', textual⟩
    refine ⟨tag', ?_, textual⟩
    dsimp only
    rw [Array.getElem?_modify, if_neg, found']
    rintro rfl
    cases found.symm.trans found'
  · intro place' other
    unfold Builder.entries
    dsimp only
    rw [Array.getElem?_modify, if_neg fun same => other same.symm]
  · unfold Builder.entries
    dsimp only
    rw [Array.getElem?_modify, if_pos rfl, found]
    rfl

/-- Looking for a mark of merging finds the first one. -/
theorem nextMerge_advances {index : Nat} {rest : List (Nat × Nat)} {next : Option (Nat × Nat)}
    (run : (nextMerge index rest).run b = .ok (next, b')) :
    Advances nowhere b b' ∧ (∀ place, b'.entries place = b.entries place) ∧
      b'.FirstMark index rest next := by
  induction rest generalizing index b with
  | nil =>
    cases run
    exact ⟨.refl _ _, fun _ => rfl, .none⟩
  | cons entry rest ih =>
    obtain ⟨key, value⟩ := entry
    obtain ⟨⟨tag, content⟩, _, read, body⟩ := bind_eq_ok.mp run
    obtain ⟨found, rfl⟩ := nodeAt_eq_ok.mp read
    cases tag with
    | merge =>
      cases body
      exact ⟨.refl _ _, fun _ => rfl, .here (kind found)⟩
    | default =>
      obtain ⟨_, b₁, set, body'⟩ := bind_eq_ok.mp body
      obtain ⟨first, same⟩ := setTag_advances (kind found) set
      obtain ⟨onward, same', next⟩ := ih body'
      refine ⟨first.trans onward, fun place => (same' place).trans (same place), .later ?_ next⟩
      rw [(first.trans onward).isMark_iff]
      exact unmarked found nofun
    | _ =>
      obtain ⟨onward, same, next⟩ := ih body
      exact ⟨onward, same, .later (by rw [onward.isMark_iff]; exact unmarked found nofun) next⟩

/-- What flattening a mapping from an index on does, with `merged` taken over so far. -/
structure Flattens (place index : Nat) (merged : List (Nat × Nat)) (b b' : Builder) : Prop where
  advances : Advances (· = place) b b'
  kept : b.Flat place → merged = [] → b'.entries place = b.entries place
  flat : b.Unmarked ((b.entries place).take index) → b.Unmarked merged → b'.Flat place

/-- Taking over all entries of a mapping leaves it flat. -/
theorem Flattens.whole {place : Nat} (h : Flattens place 0 [] b b') :
    Advances nowhere b b' ∧ b'.Flat place := by
  have flat := h.flat (fun _ mem => absurd mem List.not_mem_nil) nofun
  exact ⟨h.advances.settled (fun was => h.kept was rfl) flat, flat⟩

theorem mapM_advances {f : Nat → Build (List (Nat × Nat))}
    (each : ∀ {place b b' es}, (f place).run b = .ok (es, b') →
      Advances nowhere b b' ∧ b'.Unmarked es) {items : List Nat} {ess : List (List (Nat × Nat))}
    (run : (items.mapM f).run b = .ok (ess, b')) :
    Advances nowhere b b' ∧ ∀ es ∈ ess, b'.Unmarked es := by
  induction items generalizing b ess with
  | nil =>
    cases run
    exact ⟨.refl _ _, nofun⟩
  | cons item items ih =>
    rw [List.mapM_cons] at run
    obtain ⟨es, b₁, first, body⟩ := bind_eq_ok.mp run
    obtain ⟨ess', b₂, more, last⟩ := bind_eq_ok.mp body
    cases last
    obtain ⟨adv, unmarked⟩ := each first
    obtain ⟨adv', unmarked'⟩ := ih more
    exact ⟨adv.trans adv', List.forall_mem_cons.mpr ⟨adv'.unmarked_iff.mpr unmarked, unmarked'⟩⟩

theorem flattenFrom_flattens {fuel place index : Nat} {merged : List (Nat × Nat)}
    (run : (flattenFrom fuel place index merged).run b = .ok ((), b')) :
    Flattens place index merged b b' := by
  induction fuel generalizing place index merged b b' with
  | zero => cases run
  | succ fuel ih =>
    have flat : ∀ {place b b' es},
        (do flattenFrom fuel place 0 []; entriesAt place : Build _).run b = .ok (es, b') →
        Advances nowhere b b' ∧ b'.Unmarked es := by
      intro place b b' es run
      obtain ⟨_, b₁, flattened, body⟩ := bind_eq_ok.mp run
      obtain ⟨⟨-, rfl⟩, rfl⟩ := entriesAt_eq_ok body
      exact (ih flattened).whole
    unfold flattenFrom at run
    obtain ⟨_, _, read, body⟩ := bind_eq_ok.mp run
    obtain ⟨⟨mapping, rfl⟩, rfl⟩ := entriesAt_eq_ok read
    obtain ⟨next, b₁, looked, body'⟩ := bind_eq_ok.mp body
    obtain ⟨adv, same, first⟩ := nextMerge_advances looked
    have adv := adv.anywhere (· = place)
    cases next with
    | none =>
      have flat : b.Unmarked ((b.entries place).take index) → b₁.Unmarked (b₁.entries place) := by
        intro start
        rw [same, ← List.take_append_drop index (b.entries place)]
        exact List.forall_mem_append.mpr ⟨adv.unmarked_iff.mpr start, first.unmarked rfl⟩
      dsimp only at body'
      split at body'
      · next some =>
        obtain ⟨_, _, read', set⟩ := bind_eq_ok.mp body'
        obtain ⟨⟨mapping', rfl⟩, rfl⟩ := entriesAt_eq_ok read'
        obtain ⟨adv', now⟩ := setEntries_advances mapping' set
        refine ⟨adv.trans adv', fun _ empty => ?_, fun start taken => ?_⟩
        · rw [empty] at some
          cases some
        · rw [Flat, now, adv'.unmarked_iff]
          exact List.forall_mem_append.mpr ⟨adv.unmarked_iff.mpr taken, flat start⟩
      · cases body'
        exact ⟨adv, fun _ _ => same place, fun start _ => flat start⟩
    | some next =>
      obtain ⟨index', target⟩ := next
      obtain ⟨before, entry, after, split, rfl, mark, unmarked⟩ := first.split rfl
      obtain ⟨_, _, read', body₂⟩ := bind_eq_ok.mp body'
      obtain ⟨⟨mapping', rfl⟩, rfl⟩ := entriesAt_eq_ok read'
      obtain ⟨_, b₂, set, body₃⟩ := bind_eq_ok.mp body₂
      obtain ⟨adv₂, now⟩ := setEntries_advances mapping' set
      obtain ⟨n, _, read'', body₄⟩ := bind_eq_ok.mp body₃
      obtain ⟨-, rfl⟩ := nodeAt_eq_ok.mp read''
      have taken : ∃ more b₃, Advances nowhere b₂ b₃ ∧ b₃.Unmarked more ∧
          (flattenFrom fuel place (index + before.length) (merged ++ more)).run b₃ =
            .ok ((), b') := by
        split at body₄
        · obtain ⟨more, b₃, taken, onward⟩ := bind_eq_ok.mp body₄
          obtain ⟨adv₃, unmarked'⟩ := flat taken
          exact ⟨more, b₃, adv₃, unmarked', onward⟩
        · obtain ⟨ess, b₃, taken, onward⟩ := bind_eq_ok.mp body₄
          obtain ⟨adv₃, unmarked'⟩ := mapM_advances flat taken
          refine ⟨ess.reverse.flatten, b₃, adv₃, fun entry mem => ?_, onward⟩
          obtain ⟨es, mem, inside⟩ := List.mem_flatten.mp mem
          exact unmarked' es (List.mem_reverse.mp mem) entry inside
        · cases body₄
      obtain ⟨more, b₃, adv₃, unmarked', onward⟩ := taken
      have through : Advances (· = place) b b₃ := (adv.trans adv₂).trans (adv₃.anywhere _)
      obtain ⟨adv₄, -, flat'⟩ := ih onward
      have split' : (b.entries place).take (index + before.length) =
          (b.entries place).take index ++ before := by
        rw [List.take_add, split, List.take_left]
      refine ⟨through.trans adv₄, fun was => absurd (adv.isMark_iff.mp mark) (was entry ?_),
        fun start taken => flat' ?_ ?_⟩
      · refine List.mem_of_mem_drop (i := index) ?_
        rw [split]
        simp
      · -- before the mark nothing has changed, unless the mapping has come out flat already
        rcases adv₃.entries place id with same' | ⟨-, done⟩
        · rw [same', now, same, List.take_eraseIdx_eq_take_of_le _ _ _ (Nat.le_refl _), split',
            through.unmarked_iff]
          exact List.forall_mem_append.mpr ⟨start, adv.unmarked_iff.mp unmarked⟩
        · exact fun entry mem => done entry (List.mem_of_mem_take mem)
      · exact List.forall_mem_append.mpr ⟨through.unmarked_iff.mpr taken, unmarked'⟩

/-! ## Reaching -/

theorem seen_set {place place' : Nat} {seen : Array Bool} :
    (seen.set! place true)[place']? ≠ some false ↔ place' = place ∨ seen[place']? ≠ some false := by
  rw [Array.set!_eq_setIfInBounds, Array.getElem?_setIfInBounds]
  split
  · next same =>
    subst same
    split <;> simp
  · next other => simp [Ne.symm other]

theorem reach_advances {place : Nat} (run : (reach place).run b = .ok ((), b')) :
    Advances nowhere b b' ∧ b'.Seen place := by
  rcases reach_cases run with
    ⟨seen, rfl⟩ | ⟨n, unseen, found, ⟨collected, rfl⟩ | ⟨single, v, spelled, rfl⟩⟩
  · exact ⟨.refl _ _, seen⟩
  · refine ⟨?_, seen_set.mpr (.inl rfl)⟩
    exact {
      nodes_size := rfl
      values_size := rfl
      tag := fun _ => .inl rfl
      textual := id
      entries := fun _ _ => .inl rfl
      seen := fun seen => seen_set.mpr (.inr seen)
      value := fun _ place' text textual had seen => by
        rcases seen_set.mp seen with rfl | seen
        · obtain ⟨tag, found', int | text⟩ := textual <;> cases found.symm.trans found' <;>
            subst_vars <;> cases collected
        · exact had seen
      pending := List.mem_cons_of_mem _
      queued := fun seen unseen' _ => by
        rcases seen_set.mp seen with rfl | seen
        · exact List.mem_cons_self
        · exact absurd seen unseen' }
  · refine ⟨?_, seen_set.mpr (.inl rfl)⟩
    exact {
      nodes_size := rfl
      values_size := by simp
      tag := fun _ => .inl rfl
      textual := id
      entries := fun _ _ => .inl rfl
      seen := fun seen => seen_set.mpr (.inr seen)
      value := fun sized place' text textual had seen => by
        unfold Builder.HasText
        dsimp only
        rw [Array.set!_eq_setIfInBounds, Array.getElem?_setIfInBounds]
        split
        · next same =>
          subst same
          obtain ⟨inside, -⟩ := Array.getElem?_eq_some_iff.mp found
          rw [if_pos (sized ▸ inside), spelled text textual]
        · next other => exact had ((seen_set.mp seen).resolve_left (Ne.symm other))
      pending := id
      queued := fun seen unseen' mapping => by
        rcases seen_set.mp seen with rfl | seen
        · rw [kind found] at mapping
          cases (Option.some.inj mapping) ▸ single
        · exact absurd seen unseen' }

end Build

end HomeProvision.Yaml
