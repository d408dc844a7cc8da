import HomeProvision.Provision.Path

/-!
# Paths as texts

What the functions on paths do to components. The main statement is `components_join`: a path below
a directory has the components of the directory and then the name. It fails for the empty path,
since a name joined to it is a path from the current directory.
-/

namespace HomeProvision.Path

/-- A text that can stand between two slashes. -/
structure IsComponent (s : String) : Prop where
  nonempty : s ≠ ""
  noSlash : '/' ∉ s.toList

/-- A name that a directory can give to a node. -/
structure IsName (s : String) : Prop extends IsComponent s where
  ne_dot : s ≠ "."
  ne_dots : s ≠ ".."
  noNul : '\x00' ∉ s.toList

theorem isName_iff {s : String} :
    IsName s ↔ s ≠ "" ∧ '/' ∉ s.toList ∧ s ≠ "." ∧ s ≠ ".." ∧ '\x00' ∉ s.toList :=
  ⟨fun h => ⟨h.nonempty, h.noSlash, h.ne_dot, h.ne_dots, h.noNul⟩,
    fun h => ⟨⟨h.1, h.2.1⟩, h.2.2.1, h.2.2.2.1, h.2.2.2.2⟩⟩

instance : DecidablePred IsName :=
  fun _ => decidable_of_iff _ isName_iff.symm

theorem pieces_ne_nil (cs : List Char) : pieces cs ≠ [] := by
  cases cs with
  | nil => simp [pieces]
  | cons c rest =>
    unfold pieces
    split
    · simp
    · split <;> simp

theorem pieces_append_slash (a b : List Char) :
    pieces (a ++ '/' :: b) = pieces a ++ pieces b := by
  induction a with
  | nil => simp [pieces]
  | cons c rest ih =>
    by_cases slash : c = '/'
    · simp [pieces, slash, ih]
    · simp only [List.cons_append, pieces, slash, if_false, ih]
      cases split : pieces rest with
      | nil => exact absurd split (pieces_ne_nil rest)
      | cons piece more => rfl

theorem pieces_noSlash {cs : List Char} (h : '/' ∉ cs) : pieces cs = [cs] := by
  induction cs with
  | nil => rfl
  | cons c rest ih =>
    have ne : c ≠ '/' := fun e => h (e ▸ List.mem_cons_self)
    have tail : '/' ∉ rest := fun m => h (List.mem_cons_of_mem c m)
    simp only [pieces, ne, if_false, ih tail]

theorem slash_not_mem_pieces {cs piece : List Char} (h : piece ∈ pieces cs) : '/' ∉ piece := by
  induction cs generalizing piece with
  | nil =>
    simp only [pieces, List.mem_singleton] at h
    simp [h]
  | cons c rest ih =>
    by_cases slash : c = '/'
    · simp only [pieces, slash, if_true, List.mem_cons] at h
      rcases h with rfl | h
      · exact List.not_mem_nil
      · exact ih h
    · simp only [pieces, slash, if_false] at h
      cases split : pieces rest with
      | nil => exact absurd split (pieces_ne_nil rest)
      | cons first more =>
        rw [split] at h ih
        rcases List.mem_cons.mp h with rfl | h
        · intro inside
          rcases List.mem_cons.mp inside with e | inside
          · exact slash e.symm
          · exact ih List.mem_cons_self inside
        · exact ih (List.mem_cons_of_mem _ h)

theorem isComponent_of_mem {path s : String} (h : s ∈ components path) : IsComponent s := by
  unfold components at h
  obtain ⟨piece, mem, rfl⟩ := List.mem_map.mp h
  obtain ⟨mem, full⟩ := List.mem_filter.mp mem
  constructor
  · intro empty
    have : piece = [] := by simpa using empty
    simp [this] at full
  · rw [String.toList_ofList]
    exact slash_not_mem_pieces mem

theorem mem_of_mem_pieces {cs piece : List Char} {c : Char} (h : piece ∈ pieces cs)
    (inside : c ∈ piece) : c ∈ cs := by
  induction cs generalizing piece with
  | nil =>
    simp only [pieces, List.mem_singleton] at h
    exact h ▸ inside
  | cons d rest ih =>
    by_cases slash : d = '/'
    · simp only [pieces, slash, if_true, List.mem_cons] at h
      rcases h with rfl | h
      · exact absurd inside List.not_mem_nil
      · exact List.mem_cons_of_mem _ (ih h inside)
    · simp only [pieces, slash, if_false] at h
      cases split : pieces rest with
      | nil => exact absurd split (pieces_ne_nil rest)
      | cons first more =>
        rw [split] at h ih
        rcases List.mem_cons.mp h with rfl | h
        · rcases List.mem_cons.mp inside with rfl | inside
          · exact List.mem_cons_self
          · exact List.mem_cons_of_mem _ (ih List.mem_cons_self inside)
        · exact List.mem_cons_of_mem _ (ih (List.mem_cons_of_mem _ h) inside)

/-- A component has no characters of its own. -/
theorem mem_of_mem_components {path s : String} {c : Char} (h : s ∈ components path)
    (inside : c ∈ s.toList) : c ∈ path.toList := by
  unfold components at h
  obtain ⟨piece, mem, rfl⟩ := List.mem_map.mp h
  rw [String.toList_ofList] at inside
  exact mem_of_mem_pieces (List.mem_filter.mp mem).1 inside

theorem components_append_slash (a b : String) :
    components (a ++ "/" ++ b) = components a ++ components b := by
  have slash : ("/" : String).toList = ['/'] := rfl
  unfold components
  rw [String.toList_append, String.toList_append, slash, List.append_assoc, List.singleton_append,
    pieces_append_slash, List.filter_append, List.map_append]

theorem components_component {s : String} (h : IsComponent s) : components s = [s] := by
  have full : s.toList ≠ [] := fun e => h.nonempty (by simpa using e)
  unfold components
  rw [pieces_noSlash h.noSlash]
  simp [full]

theorem getLast?_eq_slash {path : String} (h : endsInSlash path = true) :
    ∃ start, path = start ++ "/" := by
  unfold endsInSlash at h
  have last : path.toList.getLast? = some '/' := by simpa using h
  obtain ⟨cs, split⟩ := List.getLast?_eq_some_iff.mp last
  refine ⟨String.ofList cs, ?_⟩
  have slash : ("/" : String).toList = ['/'] := rfl
  rw [← String.toList_inj, String.toList_append, String.toList_ofList, slash, split]

theorem isAbsolute_component {s : String} (h : IsComponent s) : isAbsolute s = false := by
  unfold isAbsolute
  cases chars : s.toList with
  | nil => rfl
  | cons c rest =>
    have ne : c ≠ '/' := fun e => h.noSlash (by rw [chars, e]; exact List.mem_cons_self)
    simp [ne]

/-- What a path below a directory is, apart from the question which slash divides them. -/
theorem join_component {directory s : String} (h : IsComponent s) :
    join directory s =
      if directory = "" || endsInSlash directory then directory ++ s
      else directory ++ "/" ++ s := by
  unfold join
  rw [isAbsolute_component h]
  rfl

theorem components_join {directory s : String} (full : directory ≠ "") (h : IsComponent s) :
    components (join directory s) = components directory ++ [s] := by
  rw [join_component h]
  by_cases slash : endsInSlash directory = true
  · obtain ⟨start, rfl⟩ := getLast?_eq_slash slash
    have bare : components (start ++ "/") = components start := by
      have := components_append_slash start ""
      simpa [components, pieces] using this
    simp only [slash, Bool.or_true, if_true]
    rw [components_append_slash, components_component h, bare]
  · simp only [full, slash, decide_false, Bool.or_self, Bool.false_eq_true, if_false]
    rw [components_append_slash, components_component h]

theorem toList_join (directory : String) {s : String} (h : IsComponent s) :
    ∃ start, (join directory s).toList = start ++ s.toList := by
  rw [join_component h]
  split
  · exact ⟨directory.toList, String.toList_append⟩
  · exact ⟨(directory ++ "/").toList, String.toList_append⟩

theorem endsInSlash_join {directory s : String} (h : IsComponent s) :
    endsInSlash (join directory s) = false := by
  obtain ⟨start, chars⟩ := toList_join directory h
  have full : s.toList ≠ [] := fun e => h.nonempty (by simpa using e)
  have mem : s.toList.getLast full ∈ s.toList := List.getLast_mem full
  unfold endsInSlash
  rw [chars, List.getLast?_append, List.getLast?_eq_some_getLast full, Option.some_or]
  simp only [Option.some.injEq, decide_eq_false_iff_not]
  exact fun e => h.noSlash (e ▸ mem)

theorem join_ne_empty {directory s : String} (h : IsComponent s) : join directory s ≠ "" := by
  obtain ⟨start, chars⟩ := toList_join directory h
  intro empty
  rw [empty] at chars
  have : s.toList = [] := (List.append_eq_nil_iff.mp chars.symm).2
  exact h.nonempty (by simpa using this)

theorem isAbsolute_join {directory s : String} (full : directory ≠ "") (h : IsComponent s) :
    isAbsolute (join directory s) = isAbsolute directory := by
  rw [join_component h]
  unfold isAbsolute
  cases chars : directory.toList with
  | nil => exact absurd (by simpa using chars) full
  | cons c rest => split <;> simp [String.toList_append, chars]

/-- A path from the current directory has a component. -/
theorem components_ne_nil {path : String} (relative : ¬ isAbsolute path = true)
    (full : path ≠ "") : components path ≠ [] := by
  unfold isAbsolute at relative
  unfold components
  cases chars : path.toList with
  | nil => exact absurd (by simpa using chars) full
  | cons c rest =>
    have ne : c ≠ '/' := by simpa [chars] using relative
    cases split : pieces rest with
    | nil => exact absurd split (pieces_ne_nil rest)
    | cons piece more => simp [pieces, ne, split]

/-- A path below a directory is longer than the path of the directory. -/
theorem utf8ByteSize_lt_join (directory : String) {s : String} (h : IsComponent s) :
    directory.utf8ByteSize < (join directory s).utf8ByteSize := by
  have size : 0 < s.utf8ByteSize := by
    have := h.nonempty
    rcases Nat.eq_zero_or_pos s.utf8ByteSize with zero | pos
    · exact absurd (String.utf8ByteSize_eq_zero_iff.mp zero) this
    · exact pos
  rw [join_component h]
  split <;> simp only [String.utf8ByteSize_append] <;> omega

end HomeProvision.Path
