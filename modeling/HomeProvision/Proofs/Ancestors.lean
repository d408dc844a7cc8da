import HomeProvision.Proofs.Below

/-!
# The directories on the way

The walk to a home makes one directory after the other. Which ones these are is decided on the text of
the path alone: they are the paths from the root through the first components, one more each time
(`LeadsDown`). `ancestors_leadsDown` says so, and that nothing but the components of a path counts:
not where slashes stand, nor how many. So the walk to a directory on the way is the first part of the
walk.
-/

namespace HomeProvision.Path

/-- Whether steps lead down from the root through components: the first step is below the root, each
other one below the step before it, and there is one for each component. -/
structure LeadsDown (parts steps : List String) : Prop where
  length : steps.length = parts.length
  first : ∀ part, parts[0]? = some part → steps[0]? = some ("/" ++ part)
  next : ∀ i step part, steps[i]? = some step → parts[i + 1]? = some part →
    steps[i + 1]? = some (step ++ "/" ++ part)

section

variable {directory part path step : String} {parts : List String} {i : Nat}

/-! ## Pieces -/

/-- The pieces of a text are what is between its slashes. -/
theorem pieces_eq_splitOn (cs : List Char) : pieces cs = cs.splitOn '/' := by
  induction cs with
  | nil => rfl
  | cons c cs ih =>
    rw [List.splitOn_cons_eq_if_modifyHead, ← ih, pieces]
    by_cases slash : c = '/'
    · rw [if_pos slash, if_pos (by simpa using slash)]
    · rw [if_neg slash, if_neg (by simpa using slash)]
      cases split : pieces cs with
      | nil => exact absurd split (pieces_ne_nil cs)
      | cons piece more => rfl

theorem components_eq_splitOn (path : String) :
    components path = ((path.toList.splitOn '/').filter (!·.isEmpty)).map String.ofList := by
  rw [components, pieces_eq_splitOn]

/-! ## Steps -/

theorem join_root (own : IsComponent part) : join "/" part = "/" ++ part := by
  rw [join_component own, if_pos (by decide)]

/-- Below a path that does not end in a slash, a slash divides. -/
theorem join_bare (full : directory ≠ "") (bare : endsInSlash directory = false)
    (own : IsComponent part) : join directory part = directory ++ "/" ++ part := by
  rw [join_component own, if_neg (by simp [full, bare])]

theorem getElem?_descend (current : String) (parts : List String) (i : Nat) :
    (descend current parts)[i]? =
      if i < parts.length then some (below current (parts.take (i + 1))) else none := by
  induction parts generalizing current i with
  | nil => rfl
  | cons part rest ih =>
    cases i with
    | zero => rfl
    | succ i =>
      rw [descend, List.getElem?_cons_succ, ih]
      simp [below]

theorem length_descend (current : String) (parts : List String) :
    (descend current parts).length = parts.length := by
  induction parts generalizing current with
  | nil => rfl
  | cons part rest ih => exact congrArg Nat.succ (ih (join current part))

theorem take_descend (current : String) (parts : List String) (n : Nat) :
    (descend current parts).take n = descend current (parts.take n) := by
  induction parts generalizing current n with
  | nil => simp [descend]
  | cons part rest ih =>
    cases n with
    | zero => rfl
    | succ n => exact congrArg (List.cons _) (ih (join current part) n)

/-- A path below a directory is the names with slashes between them. -/
theorem below_bare (full : directory ≠ "") (bare : endsInSlash directory = false)
    (fit : AreComponents parts) :
    below directory parts = "/".intercalate (directory :: parts) := by
  induction parts generalizing directory with
  | nil => exact String.intercalate_singleton.symm
  | cons part rest ih =>
    obtain ⟨own, others⟩ := List.forall_mem_cons.mp fit
    change below (join directory part) rest = _
    rw [ih (join_ne_empty own) (endsInSlash_join own) others, join_bare full bare own,
      String.intercalate_cons_cons]
    cases rest with
    | nil => simp
    | cons next more => simp [String.append_assoc]

/-- A path below the root is a slash and the names with slashes between them. -/
theorem toList_below_root (some : parts ≠ []) (fit : AreComponents parts) :
    (below "/" parts).toList = '/' :: ['/'].intercalate (parts.map String.toList) := by
  cases parts with
  | nil => exact absurd rfl some
  | cons part rest =>
    obtain ⟨own, others⟩ := List.forall_mem_cons.mp fit
    change (below (join "/" part) rest).toList = _
    rw [below_bare (join_ne_empty own) (endsInSlash_join own) others, join_root own,
      String.toList_intercalate]
    cases rest with
    | nil => simp
    | cons next more => simp

/-- The steps through components lead down from the root. -/
theorem leadsDown_descend (fit : AreComponents parts) :
    LeadsDown parts (descend "/" parts) where
  length := length_descend "/" parts
  first part here := by
    obtain ⟨some, rfl⟩ := List.getElem?_eq_some_iff.mp here
    rw [getElem?_descend, if_pos some, List.take_add_one, here]
    exact congrArg Option.some (join_root (fit _ (List.getElem_mem some)))
  next i step part made here := by
    obtain ⟨more, rfl⟩ := List.getElem?_eq_some_iff.mp here
    rw [getElem?_descend, if_pos (Nat.lt_of_succ_lt more)] at made
    obtain rfl := Option.some.inj made
    rw [getElem?_descend, if_pos more, List.take_add_one, here, Option.toList_some, below_snoc]
    -- the step before was itself made by adding a component
    obtain ⟨last, split⟩ : ∃ last, parts.take (i + 1) = parts.take i ++ [last] :=
      ⟨_, List.take_succ_eq_append_getElem (Nat.lt_of_succ_lt more)⟩
    have own : IsComponent last := fit last (List.mem_of_mem_take (i := i + 1) (by simp [split]))
    rw [split, below_snoc, join_bare (join_ne_empty own) (endsInSlash_join own)
      (fit _ (List.getElem_mem more))]

theorem areComponents_components (path : String) : AreComponents (components path) :=
  fun _ mem => isComponent_of_mem mem

theorem AreComponents.take (fit : AreComponents parts) (n : Nat) : AreComponents (parts.take n) :=
  fun part mem => fit part (List.mem_of_mem_take mem)

/-- A step is written with the components up to it, a slash before each of them. -/
theorem step_eq (here : (ancestors path)[i]? = some step) :
    i < (components path).length ∧ step = below "/" ((components path).take (i + 1)) := by
  unfold ancestors at here
  rw [getElem?_descend] at here
  split at here
  · next more => exact ⟨more, (Option.some.inj here).symm⟩
  · cases here

theorem components_step (here : (ancestors path)[i]? = some step) :
    components step = (components path).take (i + 1) := by
  obtain ⟨-, rfl⟩ := step_eq here
  exact components_below ((areComponents_components path).take (i + 1))

/-- After its first slash, a step has no empty piece. -/
theorem splitOn_step (here : (ancestors path)[i]? = some step) :
    ∃ names, step.toList = '/' :: names ∧
      names.splitOn '/' = ((components path).take (i + 1)).map String.toList := by
  obtain ⟨more, rfl⟩ := step_eq here
  have fit := (areComponents_components path).take (i + 1)
  have some : (components path).take (i + 1) ≠ [] :=
    List.ne_nil_of_length_pos (by rw [List.length_take]; omega)
  refine ⟨_, toList_below_root some fit, List.splitOn_intercalate '/' ?_ (by simpa using some)⟩
  intro name named
  obtain ⟨part, mem, rfl⟩ := List.mem_map.mp named
  exact (fit part mem).noSlash

end

/-- The directories on the way to a path. They lead down from the root through what stands between
the slashes of the path, empty pieces left out. Each of them starts with a slash and has no empty
piece after that, its components are the first ones of the path, all of them for the last one, and
the directories on the way to it are the first ones on the way to the path. And two paths have the
same directories on the way exactly if they have the same components. -/
theorem ancestors_leadsDown (path : String) :
    components path = ((path.toList.splitOn '/').filter (!·.isEmpty)).map String.ofList ∧
    LeadsDown (components path) (ancestors path) ∧
    (∀ i step, (ancestors path)[i]? = some step →
      (∃ names, step.toList = '/' :: names ∧ [] ∉ names.splitOn '/' ∧
        names.splitOn '/' = ((components path).take (i + 1)).map String.toList) ∧
      components step = (components path).take (i + 1) ∧
      ancestors step = (ancestors path).take (i + 1)) ∧
    (∀ last, (ancestors path).getLast? = some last → components last = components path) ∧
    ∀ other, ancestors other = ancestors path ↔ components other = components path := by
  have last : ∀ path last, (ancestors path).getLast? = some last →
      components last = components path := by
    intro path last here
    rw [List.getLast?_eq_getElem?] at here
    have length := (leadsDown_descend (areComponents_components path)).length
    rw [components_step here, List.take_of_length_le]
    unfold ancestors
    omega
  refine ⟨components_eq_splitOn path, leadsDown_descend (areComponents_components path), ?_,
    last path, fun other => ⟨fun same => ?_, fun same => congrArg (descend "/") same⟩⟩
  · intro i step here
    obtain ⟨names, starts, split⟩ := splitOn_step here
    refine ⟨⟨names, starts, fun empty => ?_, split⟩, components_step here, ?_⟩
    · rw [split] at empty
      obtain ⟨part, mem, none⟩ := List.mem_map.mp empty
      exact ((areComponents_components path).take (i + 1) part mem).nonempty (by simpa using none)
    · unfold ancestors
      rw [components_step here, take_descend]
  · cases final : (ancestors path).getLast? with
    | some goal =>
      rw [← last path goal final]
      exact (last other goal (same ▸ final)).symm
    | none =>
      -- without a directory on the way there is no component
      have none : ∀ p, ancestors p = [] → components p = [] := fun p empty =>
        List.eq_nil_of_length_eq_zero (by rw [← length_descend "/"]; exact congrArg _ empty)
      have empty := List.getLast?_eq_none_iff.mp final
      rw [none path empty, none other (same.trans empty)]

/-- Slashes in front, between and behind make no difference. -/
example : ancestors "home//alice/" = ["/home", "/home/alice"] := by
  decide

end HomeProvision.Path
