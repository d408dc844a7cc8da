import HomeProvision.Proofs.Below
import HomeProvision.Proofs.CallContract
import HomeProvision.Proofs.Status

/-!
# What no call takes away

Whatever calls are made on a machine, the nodes stay, with their identities and their types, and a
path that leads to a node goes on to lead there. `Evolves` says this of a machine and a later one,
and `reply_evolves` of every call, whether its path is one that the caller has just made or not.

So a directory that was seen without a link being followed is found again, with the same identity,
when links are followed (`identityAt_of_status` and `Evolves.identityAt`).
-/

namespace HomeProvision.Machine

open HomeProvision.Machine.Tree

/-! ## Links at the end of a path -/

namespace Tree

variable {t : Tree} {current path : String} {directory : Bool} {links : Nat} {p q : Place}
  {r : Route}

theorem walkWith_of_noLink {again again' : Place → Route → Except Errno Place}
    {components : List String} (noLink : (t.node? q.node).bind Node.target? = none)
    (onward : ∀ p r, again p r = .ok q → again' p r = .ok q)
    (leads : t.walkWith again false p components directory = .ok q) :
    t.walkWith again' true p components directory = .ok q := by
  induction components generalizing p with
  | nil =>
    rw [walkWith_nil] at leads ⊢
    exact leads
  | cons name rest ih =>
    cases dir : t.isDirectory p.node with
    | false =>
      rw [walkWith_outside _ dir] at leads
      cases leads
    | true =>
      rw [walkWith_cons _ dir] at leads ⊢
      split at leads
      · next dot => rw [if_pos dot]; exact ih leads
      next notDot =>
      split at leads
      · next dots => rw [if_neg notDot, if_pos dots]; exact ih leads
      next notDots =>
      split at leads
      · cases leads
      next short =>
      rw [if_neg notDot, if_neg notDots, if_neg short]
      cases found : t.child? p.node name with
      | none => rw [found] at leads; cases leads
      | some i =>
        rw [found] at leads
        dsimp only at leads ⊢
        cases link : (t.node? i).bind Node.target? with
        | none =>
          simp only [link] at leads ⊢
          exact ih leads
        | some target =>
          simp only [link] at leads ⊢
          split at leads
          · rw [if_pos (by simp)]
            exact onward _ _ leads
          · -- the walk would end at the link itself
            cases leads
            change (t.node? i).bind Node.target? = none at noLink
            rw [link] at noLink
            cases noLink

theorem walk_of_noLink (noLink : (t.node? q.node).bind Node.target? = none)
    (leads : t.walk false links p r = .ok q) : t.walk true links p r = .ok q := by
  induction links generalizing p r with
  | zero =>
    rw [walk_eq] at leads ⊢
    exact walkWith_of_noLink noLink (fun _ _ bad => by cases bad) leads
  | succ links ih =>
    rw [walk_eq] at leads ⊢
    exact walkWith_of_noLink noLink (fun _ _ onward => ih onward) leads

/-- What a path names is what it leads to, unless it is a link. -/
theorem resolve_of_noLink (noLink : (t.node? q.node).bind Node.target? = none)
    (leads : t.resolve current false path = .ok q) : t.resolve current true path = .ok q := by
  obtain ⟨_, valid, leads⟩ := bind_eq_ok.mp leads
  obtain ⟨p, begins, leads⟩ := bind_eq_ok.mp leads
  unfold resolve
  rw [valid, begins]
  exact walk_of_noLink noLink leads

end Tree

/-! ## What a call does -/

theorem Node.entryType_mapContent (f : List UInt8 → List UInt8) (n : Node) :
    (n.mapContent f).entryType = n.entryType := by
  unfold Node.mapContent Node.entryType
  cases body : n.body <;> simp [body]

section

variable {m : Machine} {motive : Machine → Prop}

theorem changed_cases {e : Except Fault Machine} (failed : motive m)
    (done : ∀ m', e = .ok m' → motive m') : motive (m.changed e).2 := by
  cases e with
  | ok m' => exact done m' rfl
  | error f => exact failed

theorem answered_cases {α : Type} {e : Except Fault (α × Machine)} (failed : motive m)
    (done : ∀ a m', e = .ok (a, m') → motive m') : motive (m.answered e).2 := by
  cases e with
  | ok found => exact done found.1 found.2 rfl
  | error f => exact failed

/-- A call leaves the tree alone, or it makes a node without names, or it changes the data of one
node. -/
theorem reply_cases (c : Call) (m : Machine)
    (still : ∀ m', m'.tree = m.tree → m'.current = m.current → motive m')
    (created : ∀ path bits body s made m', Created m path bits body s made → bits < 0o10000 →
      (m.newNode s.directory bits body).entries?.getD [] = [] → m'.tree = made.tree →
      m'.current = made.current → motive m')
    (changed : ∀ i f m', Changed m i f m' → (∀ n, (f n).entryType = n.entryType) → motive m') :
    motive (m.reply c).2 := by
  by_cases quiet : c.changesTree = false
  · obtain ⟨tree, current⟩ :=
      Program.sameTree_of_disturbed (.answered c m : Disturbed (fun _ => True) c m _ _) quiet
    exact still _ tree current
  have failed : motive m := still m rfl rfl
  cases c with
  | mkdir path mode =>
    refine changed_cases failed fun m' made => ?_
    obtain ⟨s, made⟩ := mkdir_ok made
    exact created _ _ _ s m' m' made (directoryBits_lt m mode) rfl rfl rfl
  | symlink target path =>
    refine changed_cases failed fun m' made => ?_
    obtain ⟨_, s, made⟩ := symlink_ok made
    exact created _ _ _ s m' m' made (by decide) rfl rfl rfl
  | openExclusive path mode =>
    refine answered_cases failed fun number m' done => ?_
    obtain ⟨_, s, new, made, opened⟩ := openExclusive_ok done
    cases opened
    exact created _ _ _ s new _ made (fileBits_lt m mode) rfl rfl rfl
  | chown path uid gid =>
    refine changed_cases failed fun m' done => ?_
    obtain ⟨_, _, _, done⟩ := chown_ok done
    exact changed _ _ m' done fun _ => rfl
  | lchown path uid gid =>
    refine changed_cases failed fun m' done => ?_
    obtain ⟨_, _, _, done⟩ := chown_ok done
    exact changed _ _ m' done fun _ => rfl
  | chmod path mode =>
    refine changed_cases failed fun m' done => ?_
    obtain ⟨_, _, _, done⟩ := chmod_ok done
    exact changed _ _ m' done fun _ => rfl
  | truncate path length =>
    refine changed_cases failed fun m' done => ?_
    obtain ⟨_, _, _, done⟩ := truncate_ok done
    exact changed _ _ m' done (Node.entryType_mapContent _)
  | write number bytes =>
    refine answered_cases failed fun written m' done => ?_
    obtain ⟨_, _, _, done⟩ := write_ok done
    exact changed _ _ m' done (Node.entryType_mapContent _)
  | _ => exact absurd rfl quiet

end

/-! ## Evolution -/

/-- Whether a machine is as another may become by calls. -/
structure Evolves (m m' : Machine) : Prop where
  current : m'.current = m.current
  regular : m.tree.Regular → m'.tree.Regular
  resolve : ∀ follow path p, m.tree.node? p.node ≠ none →
    m.tree.resolve m.current follow path = .ok p → m'.tree.resolve m.current follow path = .ok p
  node : ∀ i n, m.tree.node? i = some n → ∃ n', m'.tree.node? i = some n' ∧
    n'.status.identity = n.status.identity ∧ n'.isDirectory = n.isDirectory

namespace Evolves

variable {m m' m'' : Machine}

theorem of_sameTree (tree : m'.tree = m.tree) (current : m'.current = m.current) :
    Evolves m m' where
  current := current
  regular := fun regular => tree ▸ regular
  resolve := fun _ _ _ _ leads => tree ▸ leads
  node := fun _ n found => ⟨n, tree ▸ found, rfl, rfl⟩

theorem refl (m : Machine) : Evolves m m :=
  of_sameTree rfl rfl

theorem trans (h : Evolves m m') (h' : Evolves m' m'') : Evolves m m'' where
  current := h'.current.trans h.current
  regular := fun regular => h'.regular (h.regular regular)
  resolve := by
    intro follow path p there leads
    obtain ⟨n, here⟩ := Option.ne_none_iff_exists'.mp there
    obtain ⟨n', here', _⟩ := h.node _ n here
    have leads' := h'.resolve follow path p (by rw [here']; simp)
      (h.current ▸ h.resolve follow path p there leads)
    rw [h.current] at leads'
    exact leads'
  node := by
    intro i n here
    obtain ⟨n', here', identity, directory⟩ := h.node i n here
    obtain ⟨n'', here'', identity', directory'⟩ := h'.node i n' here'
    exact ⟨n'', here'', identity'.trans identity, directory'.trans directory⟩

theorem of_created {path : String} {bits : Nat} {body : Body} {s : Spot} (small : bits < 0o10000)
    (bare : (m.newNode s.directory bits body).entries?.getD [] = [])
    (made : Created m path bits body s m') : Evolves m m' where
  current := made.current
  regular := fun regular => Regular.created regular small bare made
  resolve := fun _ _ _ there leads => made.grows.resolve there leads
  node := by
    intro i n here
    obtain ⟨more, here', _⟩ := made.grows i n here
    exact ⟨_, here', n.mapEntries_identity _, n.mapEntries_isDirectory _⟩

theorem of_changed {i : Nat} {f : Node → Node} (changed : Changed m i f m') : Evolves m m' where
  current := changed.current
  regular := fun regular => Regular.changed regular changed
  resolve := fun follow path _ _ leads => by
    rw [changed.sameShape.resolve m.current follow path]
    exact leads
  node := by
    intro k n here
    have here' : m'.tree.node? k = some (if i = k then f n else n) := by
      rw [changed.tree, node?_modify, here, Option.map_some]
    refine ⟨_, here', ?_, ?_⟩
    · split
      · exact changed.identity n
      · rfl
    · split
      · unfold Node.isDirectory
        rw [changed.entries]
      · rfl

end Evolves

/-- No call takes anything away. -/
theorem reply_evolves (c : Call) (m : Machine) : Evolves m (m.reply c).2 := by
  refine reply_cases c m (fun _ => .of_sameTree) (fun _ _ _ _ _ _ made small bare tree current => ?_)
    fun _ _ _ changed _ => .of_changed changed
  exact (Evolves.of_created small bare made).trans (.of_sameTree tree current)

/-! ## Identities -/

/-- The identity of what a path leads to. -/
def identityAt (m : Machine) (path : String) : Option Identity :=
  match m.find true path with
  | .ok (_, n) => some n.status.identity
  | .error _ => none

theorem identityAt_of_find {m : Machine} {path : String} {i : Nat} {n : Node}
    (found : m.find true path = .ok (i, n)) : m.identityAt path = some n.status.identity := by
  unfold identityAt
  rw [found]

theorem find_eq_ok {m : Machine} {follow : Bool} {path : String} {p : Place} {n : Node}
    (valid : checkText path = .ok ()) (leads : m.tree.resolve m.current follow path = .ok p)
    (here : m.tree.node? p.node = some n) : m.find follow path = .ok (p.node, n) := by
  unfold find resolve
  rw [valid, leads]
  simp only [bind, Except.bind, Except.mapError, here]
  rfl

theorem find_valid {m : Machine} {follow : Bool} {path : String} {found : Nat × Node}
    (h : m.find follow path = .ok found) : checkText path = .ok () := by
  obtain ⟨_, leads, _⟩ := bind_eq_ok.mp h
  obtain ⟨_, valid, _⟩ := bind_eq_ok.mp leads
  exact valid

/-- What is found at a path is found there later, with the same identity. -/
theorem Evolves.identityAt {m m' : Machine} (h : Evolves m m') {path : String} {id : Identity}
    (found : m.identityAt path = some id) : m'.identityAt path = some id := by
  unfold Machine.identityAt at found
  split at found
  · next i n leads =>
    cases found
    obtain ⟨⟨above, resolved⟩, here⟩ := find_ok leads
    obtain ⟨n', here', identity, _⟩ := h.node i n here
    have again := h.resolve true path ⟨i, above⟩ (by rw [here]; simp) resolved
    rw [← h.current] at again
    rw [identityAt_of_find (find_eq_ok (find_valid leads) again here'), identity]
  · cases found

/-- The status of what a path leads to has its identity. -/
theorem identityAt_of_stat {m : Machine} {path : String} {status : Status}
    (looked : m.statusOf true path = .ok status) : m.identityAt path = some status.identity := by
  rw [statusOf_eq] at looked
  cases found : m.find true path with
  | error f => rw [found] at looked; cases looked
  | ok result =>
    rw [found] at looked
    cases looked
    exact identityAt_of_find found

/-- A directory that is seen without a link being followed is what the path leads to. -/
theorem identityAt_of_lstat {m : Machine} (regular : m.tree.Regular) {path : String}
    {status : Status} {mode : Nat} (looked : m.statusOf false path = .ok status)
    (valid : machineMode status.mode = .ok mode) (directory : EntryType.ofBits mode = .directory) :
    m.identityAt path = some status.identity := by
  have noLink := namesNoLink_of_status regular looked valid directory
  rw [statusOf_eq] at looked
  cases found : m.find false path with
  | error f => rw [found] at looked; cases looked
  | ok result =>
    rw [found] at looked
    cases looked
    obtain ⟨⟨above, leads⟩, here⟩ := find_ok found
    have through := resolve_of_noLink (noLink _ leads) leads
    exact identityAt_of_find (find_eq_ok (find_valid found) through here)

/-! ## Directories -/

/-- A directory that a name was seen to lead to, no link followed. -/
theorem directoryAt_of_status {m : Machine} {path name : String} {status : Status} {bits : Nat} {q : Place}
    (regular : m.tree.Regular) (own : Path.IsName name)
    (there : m.tree.directoryAt m.current path = .ok q)
    (looked : m.statusOf false (Path.join path name) = .ok status)
    (valid : machineMode status.mode = .ok bits) (directory : EntryType.ofBits bits = .directory) :
    ∃ i n, m.tree.child? q.node name = some i ∧ m.tree.node? i = some n ∧ n.status = status ∧
      m.tree.directoryAt m.current (Path.join path name) = .ok (q.step i) := by
  have itself := namesNoLink_of_status regular looked valid directory
  obtain ⟨⟨i, n⟩, found, same⟩ := bind_eq_ok.mp looked
  cases same
  obtain ⟨⟨above, leads⟩, here⟩ := find_ok found
  have through := Tree.resolve_of_noLink (itself _ leads) leads
  obtain ⟨q', j, there', named, _, onward⟩ :=
    Tree.resolve_join_ok (Tree.nonempty_of_directoryAt there) own leads
  rw [there] at there'
  cases there'
  cases onward (.inr rfl)
  rw [Node.entryType_of_status (regular.mode i n here) valid] at directory
  have dir := Tree.isDirectory_iff.mpr ⟨n, here, Node.entryType_eq_directory_iff.mp directory⟩
  exact ⟨i, n, named, here, rfl, Tree.directoryAt_eq_ok_iff.mpr ⟨through, dir⟩⟩

/-- What can be listed is a directory. -/
theorem directoryAt_of_namesOf {m : Machine} {source : String} {listed : List String} (found : m.namesOf source = .ok listed) :
    ∃ q, m.tree.directoryAt m.current source = .ok q := by
  obtain ⟨⟨i, n⟩, found, listing⟩ := bind_eq_ok.mp found
  obtain ⟨⟨above, leads⟩, here⟩ := find_ok found
  dsimp only at listing
  split at listing
  · next body =>
    have dir : n.isDirectory = true := by simp [Node.isDirectory, Node.entries?, body]
    exact ⟨_, Tree.directoryAt_eq_ok_iff.mpr ⟨leads, Tree.isDirectory_iff.mpr ⟨n, here, dir⟩⟩⟩
  · cases listing

end HomeProvision.Machine
