import HomeProvision.Proofs.PathText
import Mathlib.Data.List.TakeWhile

/-!
# Targets that move along

The target of a link moves along with a directory if it is the directory or lies below it. This is
decided on the texts, by whole components: how many slashes end the path of the directory, or come
after it in the target, makes no difference, and a name that only starts alike is another name
(`remap_moves`). A target that was moved is moved back by changing the two directories for each
other.

The root has no component. Without its slashes nothing is left of its path, so that the slash after
it must be there in the target.
-/

namespace HomeProvision.Path

/-! ## Slashes -/

section

variable {cs : List Char}

/-- A text as its first slashes and what comes after them. -/
theorem exists_slashes (cs : List Char) :
    ∃ n rest, cs = List.replicate n '/' ++ rest ∧ rest.head? ≠ some '/' := by
  refine ⟨(cs.takeWhile (· = '/')).length, cs.dropWhile (· = '/'), ?_, fun first => ?_⟩
  · have slashes : cs.takeWhile (· = '/') = List.replicate (cs.takeWhile (· = '/')).length '/' :=
      List.eq_replicate_iff.mpr ⟨rfl, fun c mem => by simpa using List.mem_takeWhile_imp mem⟩
    rw [← slashes, List.takeWhile_append_dropWhile]
  · have other := List.head?_dropWhile_not (fun c : Char => decide (c = '/')) cs
    rw [first] at other
    exact absurd other (by decide)

theorem dropWhile_slashes (n : Nat) (bare : cs.head? ≠ some '/') :
    (List.replicate n '/' ++ cs).dropWhile (· = '/') = cs := by
  rw [List.dropWhile_append_of_pos fun c mem => by simp [List.eq_of_mem_replicate mem]]
  cases cs with
  | nil => rfl
  | cons c rest => exact List.dropWhile_cons_of_neg (by simpa using bare)

/-- Slashes at the end of a text are dropped, and no others are. -/
theorem dropFinalSlashes_append (n : Nat) (bare : cs.getLast? ≠ some '/') :
    dropFinalSlashes (cs ++ List.replicate n '/') = cs := by
  unfold dropFinalSlashes
  rw [List.reverse_append, List.reverse_replicate,
    dropWhile_slashes n (by rwa [List.head?_reverse]), List.reverse_reverse]

theorem dropFinalSlashes_eq_self (bare : cs.getLast? ≠ some '/') : dropFinalSlashes cs = cs := by
  simpa using dropFinalSlashes_append 0 bare

/-- A text as what is left of it without the slashes at its end, and these. -/
theorem exists_finalSlashes (cs : List Char) :
    ∃ n, cs = dropFinalSlashes cs ++ List.replicate n '/' ∧
      (dropFinalSlashes cs).getLast? ≠ some '/' := by
  obtain ⟨n, rest, split, bare⟩ := exists_slashes cs.reverse
  have whole : cs = rest.reverse ++ List.replicate n '/' := by
    rw [← List.reverse_reverse cs, split, List.reverse_append, List.reverse_replicate]
  have last : rest.reverse.getLast? ≠ some '/' := by rwa [List.getLast?_reverse]
  have stem : dropFinalSlashes cs = rest.reverse := by
    rw [whole, dropFinalSlashes_append n last]
  exact ⟨n, by rw [stem, ← whole], stem ▸ last⟩

end

/-! ## Places of targets -/

/-- Whether a text is the path of a directory, with any slashes at its end. `stem` is that path
without them. -/
def IsTop (stem cs : List Char) : Prop :=
  ∃ n, cs = stem ++ List.replicate n '/' ∧ (stem = [] → 0 < n)

/-- Whether a text leads from a directory down by `rest`, with any slashes between the two. -/
def IsBelow (stem rest cs : List Char) : Prop :=
  ∃ n, 0 < n ∧ cs = stem ++ (List.replicate n '/' ++ rest) ∧ rest ≠ [] ∧ rest.head? ≠ some '/'

section

variable {stem rest : List Char} {c : Char} {target source dest : String} {n : Nat}

/-- What comes after the path of the directory is all that counts. -/
theorem remap_slashes (split : target.toList =
      dropFinalSlashes source.toList ++ (List.replicate n '/' ++ rest))
    (bare : rest.head? ≠ some '/')
    (apart : n = 0 → rest = [] ∧ dropFinalSlashes source.toList ≠ []) :
    remap target source dest = if rest = [] then dest else join dest (String.ofList rest) := by
  unfold remap
  generalize dropFinalSlashes source.toList = stem at split apart ⊢
  have moves : target.toList = (if stem.isEmpty then ['/'] else stem) ∨
      (stem ++ ['/']).isPrefixOf target.toList = true := by
    rw [split]
    cases n with
    | zero =>
      obtain ⟨rfl, full⟩ := apart rfl
      simp [full]
    | succ n =>
      refine .inr (List.isPrefixOf_iff_prefix.mpr ⟨List.replicate n '/' ++ rest, ?_⟩)
      simp [List.replicate_succ]
  have remainder :
      (target.toList.drop (if stem.isEmpty then ['/'] else stem).length).dropWhile (· = '/') =
        rest := by
    rw [split]
    cases stem with
    | cons c stem =>
      rw [List.isEmpty_cons, if_neg (by simp), List.drop_left]
      exact dropWhile_slashes n bare
    | nil =>
      cases n with
      | zero => exact absurd rfl (apart rfl).2
      | succ n => exact dropWhile_slashes n bare
  dsimp only
  rw [if_neg, remainder]
  · simp
  · rcases moves with same | starts
    · simp [same]
    · simp [starts]

/-- A target that moves is the directory or lies below it. -/
theorem isTop_or_isBelow (moves : target.toList = (if stem.isEmpty then ['/'] else stem) ∨
      (stem ++ ['/']).isPrefixOf target.toList = true) :
    IsTop stem target.toList ∨ ∃ rest, IsBelow stem rest target.toList := by
  rcases moves with same | starts
  · rw [same]
    cases stem with
    | nil => exact .inl ⟨1, rfl, fun _ => Nat.one_pos⟩
    | cons c stem => exact .inl ⟨0, by simp, fun empty => by cases empty⟩
  · obtain ⟨tail, split⟩ := List.isPrefixOf_iff_prefix.mp starts
    obtain ⟨n, rest, rfl, bare⟩ := exists_slashes tail
    have whole : target.toList = stem ++ (List.replicate (n + 1) '/' ++ rest) := by
      rw [← split]
      simp [List.replicate_succ]
    by_cases empty : rest = []
    · exact .inl ⟨n + 1, by rw [whole, empty, List.append_nil], fun _ => Nat.succ_pos n⟩
    · exact .inr ⟨rest, n + 1, Nat.succ_pos n, whole, empty, bare⟩

theorem remap_top (top : IsTop (dropFinalSlashes source.toList) target.toList) :
    remap target source dest = dest := by
  obtain ⟨n, split, root⟩ := top
  have whole : target.toList = dropFinalSlashes source.toList ++ (List.replicate n '/' ++ []) := by
    rw [List.append_nil, ← split]
  refine (remap_slashes whole (by simp) fun none => ⟨rfl, fun empty => ?_⟩).trans (if_pos rfl)
  exact absurd (root empty) (by omega)

theorem remap_below (below : IsBelow (dropFinalSlashes source.toList) rest target.toList) :
    remap target source dest = join dest (String.ofList rest) := by
  obtain ⟨n, some, split, full, bare⟩ := below
  exact (remap_slashes split bare fun none => absurd some (by omega)).trans (if_neg full)

theorem remap_apart (other : ¬ IsTop (dropFinalSlashes source.toList) target.toList)
    (other' : ∀ rest, ¬ IsBelow (dropFinalSlashes source.toList) rest target.toList) :
    remap target source dest = target := by
  have stays : ¬ (target.toList = (if (dropFinalSlashes source.toList).isEmpty then ['/'] else
      dropFinalSlashes source.toList) ∨
      (dropFinalSlashes source.toList ++ ['/']).isPrefixOf target.toList = true) :=
    fun moves => (isTop_or_isBelow moves).elim other fun ⟨rest, below⟩ => other' rest below
  unfold remap
  refine if_pos ?_
  rw [Bool.and_eq_true, decide_eq_true_eq, Bool.not_eq_true', ← Bool.not_eq_true]
  exact ⟨fun same => stays (.inl same), fun starts => stays (.inr starts)⟩

/-- A name that only starts like the last one of the directory is another name. -/
theorem remap_sibling (other : c ≠ '/')
    (split : target.toList = dropFinalSlashes source.toList ++ c :: rest) :
    remap target source dest = target := by
  have next : ∀ n cs, dropFinalSlashes source.toList ++ (List.replicate n '/' ++ cs) =
      dropFinalSlashes source.toList ++ c :: rest → n = 0 ∧ cs = c :: rest := by
    intro n cs same
    cases n with
    | zero => exact ⟨rfl, List.append_cancel_left same⟩
    | succ n => exact absurd (List.cons.inj (List.append_cancel_left same)).1 (Ne.symm other)
  refine remap_apart ?_ ?_
  · rintro ⟨n, whole, -⟩
    cases (next n [] (by rw [List.append_nil, ← whole, split])).2
  · rintro rest' ⟨n, some, whole, -⟩
    have none := (next n rest' (by rw [← whole, split])).1
    omega

/-- Slashes at the end of the directory's path make no difference. -/
theorem remap_finalSlashes (target source dest : String) (k : Nat) :
    remap target (source ++ String.ofList (List.replicate k '/')) dest =
      remap target source dest := by
  obtain ⟨n, split, bare⟩ := exists_finalSlashes source.toList
  have same : dropFinalSlashes (source ++ String.ofList (List.replicate k '/')).toList =
      dropFinalSlashes source.toList := by
    rw [String.toList_append, String.toList_ofList]
    calc dropFinalSlashes (source.toList ++ List.replicate k '/')
        = dropFinalSlashes (dropFinalSlashes source.toList ++ List.replicate (n + k) '/') := by
          rw [← List.replicate_append_replicate, ← List.append_assoc, ← split]
      _ = dropFinalSlashes source.toList := dropFinalSlashes_append (n + k) bare
  unfold remap
  rw [same]

/-- A path from one directory is moved to the same path from another one. -/
theorem remap_from {s d r : String} (bare : endsInSlash s = false) (full : d ≠ "")
    (bare' : endsInSlash d = false) (down : r ≠ "") (relative : isAbsolute r = false) :
    remap (s ++ "/" ++ r) s d = d ++ "/" ++ r := by
  have last : s.toList.getLast? ≠ some '/' := by simpa [endsInSlash] using bare
  have below : IsBelow (dropFinalSlashes s.toList) r.toList (s ++ "/" ++ r).toList := by
    rw [dropFinalSlashes_eq_self last]
    refine ⟨1, Nat.one_pos, ?_, by simpa using down, by simpa [isAbsolute] using relative⟩
    simp [String.toList_append]
  rw [remap_below below, String.ofList_toList, join, if_neg (by simp [relative]),
    if_neg (by simp [full, bare'])]

end

/-- Where the target of a link is moved. A target that is the source, but for slashes at the end of
either, becomes the destination. One that leads down from the source leads down from the destination
in the same way, and any other one stays, also one with a name that only starts alike. Slashes at
the end of the source's path make no difference. And a path from one directory is moved to the same
path from the other, and back. -/
theorem remap_moves (target source dest : String) :
    ((∃ n, source.toList = dropFinalSlashes source.toList ++ List.replicate n '/') ∧
      (dropFinalSlashes source.toList).getLast? ≠ some '/') ∧
    (IsTop (dropFinalSlashes source.toList) target.toList → remap target source dest = dest) ∧
    (∀ rest, IsBelow (dropFinalSlashes source.toList) rest target.toList →
      remap target source dest = join dest (String.ofList rest)) ∧
    (¬ IsTop (dropFinalSlashes source.toList) target.toList →
      (∀ rest, ¬ IsBelow (dropFinalSlashes source.toList) rest target.toList) →
      remap target source dest = target) ∧
    (∀ c rest, c ≠ '/' → target.toList = dropFinalSlashes source.toList ++ c :: rest →
      remap target source dest = target) ∧
    (∀ k, remap target (source ++ String.ofList (List.replicate k '/')) dest =
      remap target source dest) ∧
    (source ≠ "" → dest ≠ "" → endsInSlash source = false → endsInSlash dest = false →
      ∀ r, r ≠ "" → isAbsolute r = false →
        remap (source ++ "/" ++ r) source dest = dest ++ "/" ++ r ∧
        remap (dest ++ "/" ++ r) dest source = source ++ "/" ++ r) := by
  obtain ⟨n, split, bare⟩ := exists_finalSlashes source.toList
  refine ⟨⟨⟨n, split⟩, bare⟩, remap_top, fun _ => remap_below, remap_apart,
    fun _ _ => remap_sibling, remap_finalSlashes target source dest, ?_⟩
  exact fun full full' bare bare' r down relative =>
    ⟨remap_from bare full' bare' down relative, remap_from bare' full bare down relative⟩

/-- The directory itself is moved although its path ends in a slash here and not there, and its
sibling stays. -/
example : remap "/etc/skel" "/etc/skel/" "/home/a" = "/home/a" ∧
    remap "/etc/skeleton/x" "/etc/skel" "/home/a" = "/etc/skeleton/x" := by
  decide

end HomeProvision.Path
