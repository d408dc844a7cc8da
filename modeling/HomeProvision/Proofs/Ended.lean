import HomeProvision.Proofs.Descent
import HomeProvision.Proofs.EnteredOnce
import HomeProvision.Proofs.Finite
import HomeProvision.Proofs.Height

/-!
# A clone ends

Two things bound a walk. Every name makes the path of a directory longer, and a path has to be
shorter than `pathLimit` (`descent_of_paths`). And a walk is on a way from the source that avoids
the destination; what it makes does not make such ways longer than there were nodes at first, so in
a plain tree there are fewer names than that (`descent_of_ways`). The empty destination is none of a
directory, so it is left to the first bound.

So a walk with enough levels is never given up, and it does what every walk with more levels does
(`clone_ends`).
-/

namespace HomeProvision

open Machine

/-- Limits that a clone does not reach: it may read more pieces than a file has bytes, and go down
as many levels as a path can have names or, unless the path of the destination is empty, more than
there are nodes. -/
structure Limits.Ample (limits : Limits) (most : Nat) (dest : String) (m : Machine) : Prop where
  pieces : most < limits.pieces
  depth : pathLimit ≤ limits.depth ∨ dest ≠ "" ∧ m.tree.nodes.length < limits.depth

/-- The limits of a walk are ample unless they are chosen smaller. -/
theorem Limits.ample_default {most : Nat} {dest : String} {m : Machine}
    (small : most < 0x8000000000000000) : ({} : Limits).Ample most dest m :=
  ⟨small, .inl (Nat.le_refl _)⟩

namespace Program

variable {w : Walk} {home : Option Nat} {origin bound most : Nat} {names : List String}
  {name source dest : String} {m m' : Machine}

/-! ## By the length of paths -/

theorem length_le_below (own : AreNames names) :
    names.length ≤ (Path.below source names).utf8ByteSize := by
  induction names using List.reverseRecOn with
  | nil => exact Nat.zero_le _
  | append_singleton names name ih =>
    have longer :=
      Path.utf8ByteSize_lt_join (Path.below source names) own.last.toIsComponent
    have shorter := ih own.init
    rw [Path.below_snoc, List.length_append, List.length_singleton]
    omega

theorem short_of_statusOf {path : String} {follow : Bool} {status : Status}
    (looked : m.statusOf follow path = .ok status) : path.utf8ByteSize < pathLimit := by
  obtain ⟨found, there, _⟩ := bind_eq_ok.mp looked
  obtain ⟨⟨_, leads⟩, _⟩ := find_ok there
  obtain ⟨_, valid, _⟩ := bind_eq_ok.mp leads
  unfold Tree.checkPath at valid
  split at valid
  · cases valid
  split at valid
  · cases valid
  · next short => exact Nat.lt_of_not_le short

/-- A directory that is entered has a path, and there are no more names than bytes in it. -/
theorem descent_of_paths (w : Walk) :
    Descent w (pathLimit - 1) fun names _ => names.length < pathLimit where
  onNames := fun _ => ⟨fun _ _ _ _ short => short, fun _ _ _ _ _ short => short⟩
  leaf := fun _ _ _ _ _ _ _ _ _ _ short => short
  directory := fun _ _ _ _ _ _ _ _ short => short
  enter := fun names name proper _ _ _ _ looked _ _ _ _ _ =>
    Nat.lt_of_le_of_lt (length_le_below proper) (short_of_statusOf looked)
  leave := fun names name _ short => by
    rw [List.length_append] at short
    omega
  bounded := fun names _ short => Nat.le_sub_one_of_lt short

/-! ## By the length of ways -/

/-- What is true of a plain tree while the directory is filled that names lead to: it is one on a
way from the source that avoids the destination, and there are no longer ways than `bound`. -/
structure Avoiding (w : Walk) (home : Option Nat) (origin bound : Nat) (names : List String)
    (m : Machine) : Prop where
  plain : m.tree.Plain
  known : ∀ i, home = some i →
    ∃ n, m.tree.node? i = some n ∧ w.destRoot = some n.status.identity
  reaches : ∀ above, above <+: names → m.tree.Reaches m.current home w.destTop above
  sees : ∀ above, above <+: names → ∃ q,
    m.tree.directoryAt m.current (Path.below w.sourceTop above) = .ok q ∧
      m.tree.Way home origin above.length q.node
  low : ∀ n k, m.tree.Way home origin n k → n ≤ bound

namespace Avoiding

theorem of_isPrefix {above : List String} (h : Avoiding w home origin bound names m)
    (shorter : above <+: names) : Avoiding w home origin bound above m :=
  ⟨h.plain, h.known, fun upper less => h.reaches upper (less.trans shorter),
    fun upper less => h.sees upper (less.trans shorter), h.low⟩

theorem onNames (w : Walk) (home : Option Nat) (origin bound : Nat) (names : List String) :
    OnNames (Avoiding w home origin bound names) where
  same := by
    intro m m' tree current h
    obtain ⟨plain, known, reaches, sees, low⟩ := h
    rw [← tree] at plain known reaches sees low
    rw [← current] at reaches sees
    exact ⟨plain, known, reaches, sees, low⟩
  changed := by
    intro m m' i f changed h
    refine ⟨h.plain.changed changed, fun k own => ?_, fun above shorter => ?_,
      fun above shorter => ?_,
      fun n k way => h.low n k ((Tree.Way.sameShape changed.sameShape).mp way)⟩
    · obtain ⟨n, here, root⟩ := h.known k own
      refine ⟨if i = k then f n else n, ?_, ?_⟩
      · rw [changed.tree, Tree.node?_modify, here, Option.map_some]
      · split
        · rw [changed.identity]
          exact root
        · exact root
    · rw [changed.current]
      exact changed.sameShape.reaches (h.reaches above shorter)
    · obtain ⟨q, leads, way⟩ := h.sees above shorter
      refine ⟨q, ?_, (Tree.Way.sameShape changed.sameShape).mpr way⟩
      rw [changed.sameShape.directoryAt, changed.current]
      exact leads

/-- A new node on the way changes nothing above it, as long as no way gets too long. -/
theorem created {bits : Nat} {body : Body} {s : Tree.Spot} (full : w.destTop ≠ "")
    (proper : AreNames (names ++ [name])) (h : Avoiding w home origin bound names m)
    (made : Created m (Path.below w.destTop (names ++ [name])) bits body s m')
    (bare : (m.newNode s.directory bits body).entries?.getD [] = [])
    (low : ∀ n k, m'.tree.Way home origin n k → n ≤ bound) :
    Avoiding w home origin bound names m' := by
  obtain ⟨q, leads, rfl⟩ := made.directoryAt full proper
  refine ⟨?_, fun i own => ?_, fun above shorter => ?_, fun above shorter => ?_, low⟩
  · rw [made.tree]
    exact h.plain.create (Tree.lt_of_isDirectory made.isDirectory) bare
  · obtain ⟨n, here, root⟩ := h.known i own
    obtain ⟨more, here', _⟩ := made.grows i n here
    exact ⟨_, here', root.trans (congrArg some (n.mapEntries_identity _).symm)⟩
  · rw [made.current]
    obtain ⟨r, there⟩ := Tree.directoryAt_of_isPrefix full proper.init shorter leads
    exact made.grows.reaches there (h.reaches above shorter)
  · rw [made.current]
    obtain ⟨r, there, way⟩ := h.sees above shorter
    exact ⟨r, made.grows.directoryAt there, way.grows made.grows⟩

theorem bounded (h : Avoiding w home origin bound names m) : names.length ≤ bound := by
  obtain ⟨q, _, way⟩ := h.sees names (List.prefix_refl _)
  exact h.low _ _ way

/-- What is true above a directory is true of it, if its path names no link and the directory that
it is copied from is on a way. -/
theorem snoc {q : Place} (full : w.destTop ≠ "") (proper : AreNames (names ++ [name]))
    (h : Avoiding w home origin bound names m)
    (noLink : m.tree.NamesNoLink m.current (Path.below w.destTop (names ++ [name])))
    (leads : m.tree.directoryAt m.current (Path.below w.sourceTop (names ++ [name])) = .ok q)
    (way : m.tree.Way home origin (names ++ [name]).length q.node) :
    Avoiding w home origin bound (names ++ [name]) m := by
  refine ⟨h.plain, h.known, fun above shorter => ?_, fun above shorter => ?_, h.low⟩
  · rcases List.prefix_concat_iff.mp shorter with rfl | shorter
    · exact (h.reaches names (List.prefix_refl _)).snoc full proper.init proper.last noLink
    · exact h.reaches above shorter
  · rcases List.prefix_concat_iff.mp shorter with rfl | shorter
    · exact ⟨q, leads, way⟩
    · exact h.sees above shorter

/-- A directory of the source that is not the destination is on such a way. -/
theorem enter {status : Status} {bits : Nat} (full : w.destTop ≠ "")
    (proper : AreNames (names ++ [name])) (regular : m.tree.Regular)
    (looked : m.statusOf false (Path.below w.sourceTop (names ++ [name])) = .ok status)
    (valid : machineMode status.mode = .ok bits) (directory : EntryType.ofBits bits = .directory)
    (other : w.destRoot ≠ some status.identity)
    (noLink : m.tree.NamesNoLink m.current (Path.below w.destTop (names ++ [name])))
    (h : Avoiding w home origin bound names m) :
    Avoiding w home origin bound (names ++ [name]) m := by
  obtain ⟨q, there, way⟩ := h.sees names (List.prefix_refl _)
  rw [Path.below_snoc] at looked
  obtain ⟨i, n, named, here, rfl, leads⟩ :=
    directoryAt_of_status regular proper.last there looked valid directory
  rw [← Path.below_snoc] at leads
  refine h.snoc full proper noLink leads ?_
  rw [List.length_append]
  refine way.step ⟨⟨name, named⟩, Tree.isDirectory_of_directoryAt leads, fun bad => ?_⟩
  -- the destination has been told apart by its identity
  obtain ⟨n', here', root⟩ := h.known i bad
  rw [here] at here'
  cases here'
  exact other root

theorem leaf {bits : Nat} {body : Body} {s : Tree.Spot} (full : w.destTop ≠ "")
    (proper : AreNames (names ++ [name]))
    (plain : (m.newNode s.directory bits body).isDirectory = false)
    (made : Created m (Path.below w.destTop (names ++ [name])) bits body s m')
    (h : Avoiding w home origin bound names m) : Avoiding w home origin bound names m' := by
  have bare : (m.newNode s.directory bits body).entries?.getD [] = [] := by
    rw [Option.isNone_iff_eq_none.mp (Option.isSome_eq_false_iff.mp plain)]
    rfl
  refine h.created full proper made bare ?_
  rw [made.tree]
  exact h.plain.way_leaf (Tree.lt_of_isDirectory made.isDirectory) bare plain h.low

/-- A directory is made where the names lead to from the destination, and its original is on a way,
so that what is made is no deeper below the source. -/
theorem directory {bits : Nat} {s : Tree.Spot} (full : w.destTop ≠ "")
    (proper : AreNames (names ++ [name]))
    (made : Created m (Path.below w.destTop (names ++ [name])) bits (.directory [] false) s m')
    (h : Avoiding w home origin bound (names ++ [name]) m) :
    Avoiding w home origin bound (names ++ [name]) m' := by
  have shorter : names <+: names ++ [name] := List.prefix_append _ _
  have low : ∀ n k, m'.tree.Way home origin n k → n ≤ bound := by
    obtain ⟨q, leads, rfl⟩ := made.directoryAt full proper
    obtain ⟨d, rfl, located⟩ := h.reaches names shorter q leads
    have short := h.bounded
    rw [List.length_append] at short
    rw [made.tree]
    exact h.plain.way_create (Tree.lt_of_isDirectory made.isDirectory) rfl located
      made.isDirectory short h.low
  have kept := (h.of_isPrefix shorter).created full proper made rfl low
  obtain ⟨q, leads, way⟩ := h.sees _ (List.prefix_refl _)
  rw [← made.current] at leads
  exact kept.snoc full proper made.namesNoLink (made.grows.directoryAt leads)
    (way.grows made.grows)

end Avoiding

/-- Copies do not make the ways longer that avoid the destination. -/
theorem descent_of_ways (w : Walk) (home : Option Nat) (origin bound : Nat)
    (full : w.destTop ≠ "") : Descent w bound (Avoiding w home origin bound) where
  onNames := Avoiding.onNames w home origin bound
  leaf := fun _ _ proper _ _ _ _ _ plain made h => h.leaf full proper plain made
  directory := fun _ _ proper _ _ _ _ made h => h.directory full proper made
  enter := fun _ _ proper _ _ _ regular looked valid directory other noLink h =>
    h.enter full proper regular looked valid directory other noLink
  leave := fun _ _ _ h => h.of_isPrefix (List.prefix_append _ _)
  bounded := fun _ _ h => h.bounded

/-! ## The whole walk -/

/-- A walk that cannot list its source is over at once. -/
theorem cloneDirectory_unlisted {depth : Nat} {entered : List Identity} {e : Errno}
    (text : checkText source = .ok ()) (regular : m.tree.Regular)
    (nowhere : m.tree.directoryAt m.current source = .error e) :
    (cloneDirectory w (depth + 1) source dest entered).Meets Steady sound
      (fun r _ => ∃ a, r = .ok a) m := by
  refine Meets.tried (q := fun r m' => m'.tree.Regular ∧ ∀ opened, r ≠ .ok opened) ?_ ?_ ?_
  · refine Meets.bind (q := fun r m' => FailsOrderly r ∧ m' = m) ?_ ?_ ?_
    · exact steady_call rfl ⟨text, regular⟩ fun orderly => meets_ofExcept.mpr ⟨orderly.1, rfl⟩
    · rintro status m' ⟨_, rfl⟩
      refine steady_call rfl ⟨text, regular⟩ fun orderly => ?_
      have orderly : FailsOrderly (m'.namesOf source) := orderly
      change (ofExcept (m'.namesOf source) >>= _).Meets _ _ _ m'
      cases listing : m'.namesOf source with
      | ok listed =>
        obtain ⟨q, there⟩ := directoryAt_of_namesOf listing
        rw [nowhere] at there
        cases there
      | error f =>
        rw [listing] at orderly
        exact ⟨orderly.fault, regular, fun _ bad => by cases bad⟩
    · rintro f m' ⟨orderly, rfl⟩
      exact ⟨orderly.fault, regular, fun _ bad => by cases bad⟩
  · exact fun opened m' bad => absurd rfl (bad.2 opened)
  · exact fun e m' kept => steady_call (c := .log _) rfl ⟨trivial, kept.1⟩ fun _ => ⟨_, rfl⟩

/-- A walk that knows the directory that it fills comes to an end. -/
theorem cloneDirectory_ends (fit : Fit most w) (sane : Sane most m) (plain : m.tree.Plain)
    (ample : w.cloner.limits.Ample most w.destTop m)
    (known : ∀ i, homeAt m w.destTop = some i →
      ∃ n, m.tree.node? i = some n ∧ w.destRoot = some n.status.identity) :
    (cloneDirectory w w.cloner.limits.depth w.sourceTop w.destTop []).Meets Steady sound
      (fun r _ => ∃ a, r = .ok a) m := by
  have none : AreNames [] := fun _ mem => absurd mem List.not_mem_nil
  rcases ample.depth with deep | ⟨full, deep⟩
  · have short : 0 < pathLimit := by decide
    refine (cloneDirectory_settles (descent_of_paths w) fit none ?_ [] m ⟨sane, short⟩).mono
      fun _ _ ended => ended.1
    rw [List.length_nil]
    omega
  cases there : m.tree.directoryAt m.current w.sourceTop with
  | error e =>
    obtain ⟨depth, levels⟩ := Nat.exists_eq_add_of_lt (Nat.lt_of_le_of_lt (Nat.zero_le _) deep)
    rw [levels, Nat.zero_add]
    exact cloneDirectory_unlisted fit.source sane.regular there
  | ok q =>
    have start : Avoiding w (homeAt m w.destTop) q.node (m.tree.nodes.length - 1) [] m := by
      refine ⟨plain, known, fun above shorter => ?_, fun above shorter => ?_, fun n k way => ?_⟩
      · rw [List.prefix_nil.mp shorter]
        exact (Inside.start sane.regular).reaches [] (List.prefix_refl _)
      · rw [List.prefix_nil.mp shorter]
        exact ⟨q, there, .start⟩
      · exact Nat.le_sub_one_of_lt (plain.way_lt_of_directoryAt there way)
    refine (cloneDirectory_settles (descent_of_ways w _ _ _ full) fit none ?_ [] m
      ⟨sane, start⟩).mono fun _ _ ended => ended.1
    rw [List.length_nil]
    omega

theorem clone_settles {c : Cloner} (fit : ∀ root, Fit most ⟨c, source, dest, root⟩)
    (sane : Sane most m) (plain : m.tree.Plain) (ample : c.limits.Ample most dest m) :
    (clone c source dest).Meets Steady sound (fun r _ => ∃ report, r = .ok report) m := by
  rw [clone_begins]
  refine steady_call rfl ⟨(fit none).dest, sane.regular⟩ fun orderly => ?_
  have walk : ∀ root, (∀ i, homeAt m dest = some i →
      ∃ n, m.tree.node? i = some n ∧ root = some n.status.identity) →
      ((cloneDirectory ⟨c, source, dest, root⟩ c.limits.depth source dest []).bind fun state =>
        done state.1).Meets Steady sound (fun r _ => ∃ report, r = .ok report) m := by
    intro root known
    refine (cloneDirectory_ends (fit root) sane plain ample known).bind
      (fun state _ _ => ⟨state.1, rfl⟩) fun _ _ bad => ?_
    obtain ⟨_, bad⟩ := bad
    cases bad
  have known := fun i => statusOf_of_homeAt (m := m) (i := i) (fit none).dest
  have reply : m.reply (.stat dest) = (m.statusOf true dest, m) := rfl
  rw [reply] at orderly ⊢
  cases looked : m.statusOf true dest with
  | ok status =>
    refine walk (some status.identity) fun i here => ?_
    obtain ⟨n, node, same⟩ := known i here
    rw [looked] at same
    cases same
    exact ⟨n, node, rfl⟩
  | error f =>
    obtain ⟨e, rfl⟩ := orderly.1 f looked
    refine walk none fun i here => ?_
    obtain ⟨n, _, bad⟩ := known i here
    rw [looked] at bad
    cases bad

/-! ## Runs -/

section

variable {σ : Type} {world : Layer σ} {view : σ → Machine}
  (keeps : world.KeepsTo Undisturbed view)
include keeps

theorem closesOrderly_of_undisturbed : ClosesOrderly world := by
  intro number s
  have step := keeps (.close number) s
  generalize world.reply (.close number) s = result at step
  obtain ⟨r, s'⟩ := result
  generalize view s' = m' at step
  cases step
  exact changed_orderly (openFile_orderly.bind fun _ => .ok _)

variable {s : σ} (sane : (view s).Sane most) (plain : (view s).tree.Plain) (c : Cloner)
  (paths : checkText source = .ok () ∧ checkText dest = .ok ())
  (owner : checkId false c.uid = .ok () ∧ checkId true c.gid = .ok ())
include sane plain paths owner

theorem clone_returns {limits : Limits} (ample : limits.Ample most dest (view s)) :
    ∃ report, ((clone { c with limits } source dest).run world s).1 = .ok report :=
  Meets.run keeps (clone_settles (c := { c with limits })
    (fun _ => ⟨paths.1, paths.2, owner.1, owner.2, ample.pieces⟩) sane plain ample).undisturbed

theorem clone_same_of_within {limits larger : Limits} (ample : limits.Ample most dest (view s))
    (within : limits.Within larger) :
    (clone { c with limits := larger } source dest).run world s =
        (clone { c with limits } source dest).run world s ∧
      (clone { c with limits := larger } source dest).trace world s =
        (clone { c with limits } source dest).trace world s := by
  refine Extends.trace (clone_extends (c := { c with limits }) within
    (closesOrderly_of_undisturbed keeps).recording source dest) s ?_
  obtain ⟨report, returned⟩ := clone_returns keeps sane plain c paths owner ample
  rw [returned]
  exact fun bad => by cases bad

end

/-- A clone ends on every plain tree. On an undisturbed machine, whose hook changes no file, there
are a report and finitely many calls so that under all ample limits a clone makes these calls and
returns this report, wherever the source and the destination are. -/
theorem clone_ends {σ : Type} {world : Layer σ} {view : σ → Machine}
    (keeps : world.KeepsTo Undisturbed view) {s : σ} {most : Nat} (sane : (view s).Sane most)
    (plain : (view s).tree.Plain) (c : Cloner) {source dest : String}
    (paths : checkText source = .ok () ∧ checkText dest = .ok ())
    (owner : checkId false c.uid = .ok () ∧ checkId true c.gid = .ok ()) :
    ∃ report s' calls, ∀ limits : Limits, limits.Ample most dest (view s) →
      (clone { c with limits } source dest).run world s = (.ok report, s') ∧
        (clone { c with limits } source dest).trace world s = calls := by
  let least : Limits := { depth := pathLimit, pieces := most + 1 }
  have own : least.Ample most dest (view s) := ⟨Nat.lt_succ_self _, .inl (Nat.le_refl _)⟩
  obtain ⟨report, returned⟩ := clone_returns keeps sane plain c paths owner own
  refine ⟨report, ((clone { c with limits := least } source dest).run world s).2,
    (clone { c with limits := least } source dest).trace world s, fun limits ample => ?_⟩
  -- the walk with the larger limits is the same as both
  let larger : Limits :=
    { depth := max limits.depth least.depth, pieces := max limits.pieces least.pieces }
  have same : limits.Within larger := ⟨Nat.le_max_left _ _, Nat.le_max_left _ _⟩
  have same' : least.Within larger := ⟨Nat.le_max_right _ _, Nat.le_max_right _ _⟩
  obtain ⟨run, trace⟩ := clone_same_of_within keeps sane plain c paths owner ample same
  obtain ⟨run', trace'⟩ := clone_same_of_within keeps sane plain c paths owner own same'
  rw [← run, ← trace, run', trace']
  exact ⟨Prod.ext returned rfl, rfl⟩

end Program

namespace Machine

open HomeProvision.Machine.Tree in
/-- A home with a skeleton inside it, so that copies are made in the directory that they are copied
from. -/
def nested : Machine where
  tree :=
    { nodes := [
        { plainDirectory 1 1 with body := .directory [("home", 1)] false },
        { plainDirectory 1 2 with body := .directory [("a", 2)] false },
        { plainDirectory 1 3 with body := .directory [("a", 3)] false },
        { plainDirectory 1 4 with body := .directory [("b", 4), ("f", 5)] false },
        plainDirectory 1 5,
        { plainDirectory 1 6 with mode := 0o644, body := .file [104, 105] }] }

end Machine

/-- The directory `b` is copied into the skeleton, and not copied again. -/
theorem Program.clone_ends_nested :
    ∃ report s' calls, report.copied = ["/home/a", "/home/a/b", "/home/a/f"] ∧
      calls.length = 34 ∧ ∀ limits : Limits, limits.Ample 2 "/home" nested →
      (clone { uid := 7, gid := 7, limits } "/home/a" "/home").run layer nested =
          (.ok report, s') ∧
        (clone { uid := 7, gid := 7, limits } "/home/a" "/home").trace layer nested = calls := by
  have sane : nested.Sane 2 := .of_nodes (by decide) (by decide) (by decide)
  have plain : nested.tree.Plain := .of_nodes (by decide) (by decide)
  obtain ⟨report, s', calls, ends⟩ := clone_ends layer_undisturbed (s := nested) sane plain
    { uid := 7, gid := 7 }
    (by decide : checkText "/home/a" = .ok () ∧ checkText "/home" = .ok ()) (by decide)
  let limits : Limits := { depth := 7, pieces := 3 }
  obtain ⟨run, trace⟩ := ends limits ⟨by decide, .inr (by decide)⟩
  have copied : ((clone { uid := 7, gid := 7, limits } "/home/a" "/home").run layer nested).1.map
      CloneReport.copied = .ok ["/home/a", "/home/a/b", "/home/a/f"] := by decide
  rw [run] at copied
  refine ⟨report, s', calls, Except.ok.inj copied, ?_, ends⟩
  rw [← trace]
  decide

end HomeProvision
