import HomeProvision.Proofs.Building

/-!
# What the builder reaches

Everything that can be found in a document from the root, through the entries of mappings, has been
reached when the builder is done (`Document.ofGraph_eq_ok`). A mapping that has been reached is put
off, and done as soon as its turn has come; what it holds has been reached then, and stays in it.

So a scalar that is found, and is an integer or a text, has its own spelling as its value, whatever
the document merges, repeats or holds besides (`Document.value_of_textual`).
-/

namespace HomeProvision.Data.Value

variable {α : Type} {key k : Value} {value v : α} {es : List (Value × α)}

theorem mem_of_lookup? (found : lookup? key es = some v) : ∃ k, (k, v) ∈ es := by
  induction es with
  | nil => cases found
  | cons e es ih =>
    obtain ⟨k, v'⟩ := e
    unfold lookup? at found
    split at found
    · cases found
      exact ⟨k, List.mem_cons_self⟩
    · obtain ⟨k', mem⟩ := ih found
      exact ⟨k', List.mem_cons_of_mem _ mem⟩

theorem mem_assign (mem : (k, v) ∈ assign key value es) : v = value ∨ (k, v) ∈ es := by
  induction es with
  | nil => exact .inl (Prod.mk.inj (List.mem_singleton.mp mem)).2
  | cons e es ih =>
    obtain ⟨k', v'⟩ := e
    unfold assign at mem
    split at mem <;> rcases List.mem_cons.mp mem with same | mem
    · exact .inl (Prod.mk.inj same).2
    · exact .inr (List.mem_cons_of_mem _ mem)
    · exact .inr (same ▸ List.mem_cons_self)
    · exact (ih mem).imp_right (List.mem_cons_of_mem _)

end HomeProvision.Data.Value

namespace HomeProvision.Yaml

open HomeProvision HomeProvision.Data HomeProvision.Text

namespace Build

open Builder

variable {α : Type} {b b' : Builder}

/-! ## Loops -/

/-- A loop over a list gets done what each of its steps gets done. -/
theorem forIn_advances {f : α → PUnit → Build (ForInStep PUnit)} (good : Builder → α → Prop)
    (stays : ∀ {a b b'}, Advances nowhere b b' → good b a → good b' a)
    (each : ∀ {a b b' r}, (f a ⟨⟩).run b = .ok (r, b') →
      r = .yield ⟨⟩ ∧ Advances nowhere b b' ∧ good b' a) {as : List α}
    (run : (forIn as ⟨⟩ f).run b = .ok (⟨⟩, b')) : Advances nowhere b b' ∧ ∀ a ∈ as, good b' a := by
  induction as generalizing b with
  | nil =>
    cases run
    exact ⟨.refl _ _, nofun⟩
  | cons a as ih =>
    rw [List.forIn_cons] at run
    obtain ⟨r, b₁, first, more⟩ := bind_eq_ok.mp run
    obtain ⟨rfl, adv, got⟩ := each first
    obtain ⟨adv', all⟩ := ih more
    exact ⟨adv.trans adv', List.forall_mem_cons.mpr ⟨stays adv' got, all⟩⟩

/-- A mapping whose entries have been reached is done. -/
theorem reachEntries_advances {place : Nat} (run : (reachEntries place).run b = .ok ((), b')) :
    Advances nowhere b b' ∧ b'.Done place := by
  obtain ⟨marks, _, counted, body⟩ := bind_eq_ok.mp run
  obtain rfl := mergeMarks_eq_ok counted
  obtain ⟨_, b₁, flattened, body'⟩ := bind_eq_ok.mp body
  obtain ⟨adv, flat⟩ := (flattenFrom_flattens flattened).whole
  obtain ⟨_, _, read, body''⟩ := bind_eq_ok.mp body'
  obtain ⟨⟨-, rfl⟩, rfl⟩ := entriesAt_eq_ok read
  obtain ⟨_, b₂, looped, last⟩ := bind_eq_ok.mp body''
  cases last
  have loop := forIn_advances (fun (b : Builder) (entry : Nat × Nat) => b.Seen entry.2)
    (fun adv => adv.seen) ?_ looped
  · obtain ⟨adv', seen⟩ := loop
    refine ⟨adv.trans adv', ?_⟩
    have same := adv'.entries_of_flat flat
    exact ⟨(adv'.flat_iff same).mpr flat, fun entry mem => seen entry (same ▸ mem)⟩
  · intro entry b b' r run
    obtain ⟨_, b₁, key, body⟩ := bind_eq_ok.mp run
    obtain ⟨n, _, read, body'⟩ := bind_eq_ok.mp body
    obtain ⟨-, rfl⟩ := nodeAt_eq_ok.mp read
    split at body'
    · cases body'
    · obtain ⟨_, b₂, value, last⟩ := bind_eq_ok.mp body'
      cases last
      obtain ⟨adv', seen⟩ := reach_advances value
      exact ⟨rfl, (reach_advances key).1.trans adv', seen⟩

theorem reachPairs_advances {place : Nat} (run : (reachPairs place).run b = .ok ((), b')) :
    Advances nowhere b b' := by
  obtain ⟨_, _, read, body⟩ := bind_eq_ok.mp run
  obtain rfl := itemsAt_eq_ok read
  obtain ⟨_, b₂, looped, last⟩ := bind_eq_ok.mp body
  cases last
  refine (forIn_advances (fun _ _ => True) (fun _ => id) ?_ looped).1
  intro item b b' r run
  obtain ⟨entries, _, read, body⟩ := bind_eq_ok.mp run
  obtain ⟨-, rfl⟩ := entriesAt_eq_ok read
  split at body
  · obtain ⟨_, b₁, key, body'⟩ := bind_eq_ok.mp body
    obtain ⟨_, b₂, value, last⟩ := bind_eq_ok.mp body'
    cases last
    exact ⟨rfl, (reach_advances key).1.trans (reach_advances value).1, trivial⟩
  · cases body

/-- Expanding a collection gets a mapping done. -/
theorem expand_advances {place : Nat} (run : (expand place).run b = .ok ((), b')) :
    Advances nowhere b b' ∧ b'.DoneIfMapping place := by
  obtain ⟨⟨tag, content⟩, _, read, body⟩ := bind_eq_ok.mp run
  obtain ⟨found, rfl⟩ := nodeAt_eq_ok.mp read
  have other : ∀ {b'}, Advances nowhere b b' → tag ≠ .mapping → b'.DoneIfMapping place :=
    fun adv other mapping => by
      have was := adv.mapping_iff.mp mapping
      rw [kind found] at was
      exact absurd (Option.some.inj was) other
  cases tag with
  | mapping | set =>
    obtain ⟨adv, done⟩ := reachEntries_advances body
    exact ⟨adv, fun _ => done⟩
  | sequence =>
    obtain ⟨items, _, read', body'⟩ := bind_eq_ok.mp body
    obtain rfl := itemsAt_eq_ok read'
    obtain ⟨_, b₂, looped, last⟩ := bind_eq_ok.mp body'
    cases last
    have adv := (forIn_advances (fun _ _ => True) (fun _ => id) ?_ looped).1
    · exact ⟨adv, other adv nofun⟩
    · intro item b b' r run
      obtain ⟨_, b₁, reached, last⟩ := bind_eq_ok.mp run
      cases last
      exact ⟨rfl, (reach_advances reached).1, trivial⟩
  | orderedMapping | pairs =>
    have adv := reachPairs_advances body
    exact ⟨adv, other adv nofun⟩
  | _ => cases body

/-- In the end every mapping that has been reached is done. -/
theorem reachAll_evolves {fuel : Nat} (settled : b.Settled)
    (run : (reachAll fuel).run b = .ok ((), b')) :
    Evolves nowhere b b' ∧ ∀ place, b'.Seen place → b'.DoneIfMapping place := by
  induction fuel generalizing b with
  | zero => cases run
  | succ fuel ih =>
    obtain ⟨_, _, got, body⟩ := bind_eq_ok.mp run
    cases got
    dsimp only at body
    split at body
    · next empty =>
      cases body
      refine ⟨.refl _ _, fun place seen => (settled place seen).resolve_left ?_⟩
      rw [List.isEmpty_iff.mp empty]
      exact List.not_mem_nil
    · obtain ⟨_, _, set, body'⟩ := bind_eq_ok.mp body
      cases set
      obtain ⟨_, b₁, looped, more⟩ := bind_eq_ok.mp body'
      obtain ⟨adv, done⟩ := forIn_advances Builder.DoneIfMapping (fun adv => adv.done)
        (fun run => by
          obtain ⟨_, _, expanded, last⟩ := bind_eq_ok.mp run
          cases last
          exact ⟨rfl, expand_advances expanded⟩) looped
      have settled' : b₁.Settled := adv.settles fun place seen =>
        (settled place seen).elim (fun waiting => done place (List.mem_reverse.mpr waiting))
          adv.done
      obtain ⟨evolves, all⟩ := ih settled' more
      exact ⟨((Evolves.with_pending b []).trans adv.toEvolves).trans evolves, all⟩

end Build

/-! ## Documents -/

/-- The builder before it reaches anything. -/
def Builder.start (g : Graph) : Builder where
  nodes := g.nodes
  values := Array.replicate g.nodes.size none
  seen := Array.replicate g.nodes.size false

/-- Nothing but what is no node has been reached at the start. -/
theorem Builder.start_seen {g : Graph} {place : Nat} (seen : (start g).Seen place) :
    g.nodes[place]? = none := by
  unfold Builder.Seen start at seen
  rw [Array.getElem?_replicate] at seen
  split at seen
  · exact absurd rfl seen
  · next outside => exact Array.getElem?_eq_none (Nat.le_of_not_lt outside)

namespace Document

/-- The nodes that are found from the root through the entries of mappings. -/
inductive Finds (d : Document) : Nat → Prop
  | root : Finds d d.root
  | entry {place key value : Nat} (found : Finds d place) (mapping : d.tag place = .mapping)
      (mem : (key, value) ∈ (d.content place).entries) : Finds d value

variable {d : Document} {g : Graph}

/-- A document is what the builder has come to once all that can be found has been reached. -/
theorem ofGraph_eq_ok (built : ofGraph g = .ok d) : ∃ b,
    Builder.Evolves Builder.nowhere (.start g) b ∧
      (∀ {place}, d.Finds place → b.Seen place) ∧ d.nodes = b.nodes ∧ d.values = b.values := by
  obtain ⟨⟨_, b'⟩, run, last⟩ := Machine.bind_eq_ok.mp built
  cases last
  obtain ⟨_, b, first, more⟩ := Build.bind_eq_ok.mp run
  obtain ⟨adv, seen⟩ := Build.reach_advances (b := .start g) first
  have settled : b.Settled := adv.settles fun place none mapping => by
    have nowhere : (Builder.start g).tag? place = .none := by
      unfold Builder.tag?
      exact congrArg _ (Builder.start_seen none)
    rw [adv.mapping_iff, nowhere] at mapping
    cases mapping
  obtain ⟨evolves, done⟩ := Build.reachAll_evolves settled more
  refine ⟨b', adv.toEvolves.trans evolves, fun found => ?_, rfl, rfl⟩
  induction found with
  | root => exact evolves.seen seen
  | @entry place key value _ mapping mem ih =>
    unfold tag at mapping
    unfold content at mem
    dsimp only at mapping mem
    cases node : b'.nodes[place]? with
    | none => rw [node] at mapping; cases mapping
    | some n =>
      rw [node] at mapping mem
      obtain ⟨-, reached⟩ := done place ih ((Build.kind node).trans (congrArg some mapping))
      refine reached (key, value) ?_
      unfold Builder.entries
      rw [node]
      exact mem

/-- In the document of a graph, a text that is found has its own text as its value. -/
theorem value_of_textual (built : ofGraph g = .ok d) {place : Nat} (found : d.Finds place)
    {tag : Tag} {text : List CodePoint} (node : g.nodes[place]? = some ⟨tag, .scalar text⟩)
    (textual : tag = .int ∨ tag = .text) : d.value place = .ofPoints text := by
  obtain ⟨b, evolves, seen, nodes, values⟩ := ofGraph_eq_ok built
  have start : (Builder.start g).Textual place text := ⟨tag, node, textual⟩
  obtain ⟨tag', node', textual'⟩ := evolves.textual start
  have value : b.HasText place text := by
    refine evolves.value (by simp [Builder.start]) start (fun early => ?_) (seen found)
    cases node.symm.trans (Builder.start_seen early)
  have scalar : d.scalar place = .ofPoints text := by
    unfold Document.scalar
    rw [values, Array.getD_eq_getD_getElem?, value]
    rfl
  have kind : d.tag place = tag' := by
    unfold Document.tag
    rw [nodes, node']
    rfl
  unfold Document.value valueWithin
  rw [kind]
  rcases textual' with rfl | rfl <;> exact scalar

/-- The values under the keys of a mapping are those of the entries of its node. -/
theorem exists_entry {place value : Nat} {key : Value} (mem : (key, value) ∈ d.entries place) :
    ∃ k, (k, value) ∈ (d.content place).entries := by
  have given : ∀ (es : List (Nat × Nat)) (before : List (Value × Nat)),
      (key, value) ∈ es.foldl (fun es entry => Value.assign (d.scalar entry.1) entry.2 es) before →
      (key, value) ∈ before ∨ ∃ k, (k, value) ∈ es := by
    intro es
    induction es with
    | nil => exact fun before mem => .inl mem
    | cons e es ih =>
      intro before mem
      rcases ih _ mem with early | ⟨k, late⟩
      · rcases Value.mem_assign early with rfl | before
        · exact .inr ⟨e.1, List.mem_cons_self⟩
        · exact .inl before
      · exact .inr ⟨k, List.mem_cons_of_mem _ late⟩
  exact (given _ [] mem).resolve_left List.not_mem_nil

theorem view_eq_mapping {place : Nat} {entries : List (Value × Nat)}
    (view : d.view place = .mapping entries) :
    d.tag place = .mapping ∧ entries = d.entries place := by
  unfold Document.view at view
  split at view
  · next kind => exact ⟨kind, (View.mapping.inj view).symm⟩
  all_goals cases view

/-- What stands under a key of a mapping that is found is found. -/
theorem Finds.lookup {place value : Nat} {key : Value} {entries : List (Value × Nat)}
    (found : d.Finds place) (view : d.view place = .mapping entries)
    (under : Value.lookup? key entries = some value) : d.Finds value := by
  obtain ⟨mapping, rfl⟩ := view_eq_mapping view
  obtain ⟨key', mem⟩ := Value.mem_of_lookup? under
  obtain ⟨k, mem⟩ := exists_entry mem
  exact found.entry mapping mem

end Document

end HomeProvision.Yaml
