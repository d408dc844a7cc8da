import HomeProvision.Proofs.Growth
import Mathlib.Data.List.Basic

/-!
# Routes taken apart

A walk over components and further ones is a walk to a directory, every link on the way followed,
and from there a walk over the rest (`walk_append`). So a path below a directory leads to what the
directory names (`resolve_join`), and its spot lies in that directory (`spot_join`). In a tree that has
grown, a path still leads to the node that it led to (`Grows.resolve`).
-/

namespace HomeProvision.Machine.Tree

variable {t : Tree} {current path : String} {follow directory : Bool} {links : Nat} {p q : Place}
  {r : Route}

/-! ## One level of links -/

/-- What a walk does at a link. -/
def onward (t : Tree) (follow : Bool) : (links : Nat) → Place → Route → Except Errno Place
  | 0, _, _ => .error .tooManyLinks
  | links + 1, p, r => t.walk follow links p r

theorem walk_eq (t : Tree) (follow : Bool) (links : Nat) (p : Place) (r : Route) :
    t.walk follow links p r =
      t.walkWith (t.onward follow links) follow p r.components r.directory := by
  cases links <;> rfl

theorem walkWith_nil (again : Place → Route → Except Errno Place) :
    t.walkWith again follow p [] directory =
      if directory && !t.isDirectory p.node then .error .notDirectory else .ok p := by
  rw [walkWith]

theorem walkWith_outside (again : Place → Route → Except Errno Place) {name : String}
    {rest : List String} (outside : t.isDirectory p.node = false) :
    t.walkWith again follow p (name :: rest) directory = .error .notDirectory := by
  rw [walkWith, outside]
  rfl

/-- The step of a walk over one component, in a directory. -/
theorem walkWith_cons (again : Place → Route → Except Errno Place) {name : String}
    {rest : List String} (dir : t.isDirectory p.node = true) :
    t.walkWith again follow p (name :: rest) directory =
      if name = "." then t.walkWith again follow p rest directory
      else if name = ".." then t.walkWith again follow p.parent rest directory
      else if nameLimit < name.utf8ByteSize then .error .nameTooLong
      else
        match t.child? p.node name with
        | none => .error .noEntry
        | some i =>
            match (t.node? i).bind Node.target? with
            | none => t.walkWith again follow (p.step i) rest directory
            | some target =>
                if !rest.isEmpty || follow || directory then
                  again (if Path.isAbsolute target then Place.root else p)
                    (Route.through target ⟨rest, directory⟩)
                else .ok (p.step i) := by
  rw [walkWith, dir]
  rfl

/-- A walk over at least one component starts in a directory. -/
theorem isDirectory_of_walk (some : r.components ≠ [])
    (leads : t.walk follow links p r = .ok q) : t.isDirectory p.node = true := by
  cases dir : t.isDirectory p.node with
  | true => rfl
  | false =>
    cases split : r.components with
    | nil => exact absurd split some
    | cons name rest =>
      rw [walk_eq, split, walkWith_outside _ dir] at leads
      cases leads

/-- From a node that is missing no walk gets on. -/
theorem node?_ne_none_of_walkWith {again : Place → Route → Except Errno Place}
    {components : List String} (there : t.node? q.node ≠ none)
    (leads : t.walkWith again follow p components directory = .ok q) : t.node? p.node ≠ none := by
  cases components with
  | nil =>
    rw [walkWith_nil] at leads
    split at leads
    · cases leads
    · cases leads
      exact there
  | cons name rest =>
    cases dir : t.isDirectory p.node with
    | true => exact node?_ne_none_of_isDirectory dir
    | false =>
      rw [walkWith_outside _ dir] at leads
      cases leads

/-! ## Routes in a tree that grows -/

namespace Grows

variable {t' : Tree} (h : Grows t t')
include h

/-- A walk that ends at a node takes the same way in a grown tree. A name that led nowhere may be
taken up by a new node, which is why the node at the end must be there. -/
theorem walkWith {again again' : Place → Route → Except Errno Place} {components : List String}
    (there : t.node? q.node ≠ none) (onward : ∀ p r, again p r = .ok q → again' p r = .ok q)
    (leads : t.walkWith again follow p components directory = .ok q) :
    t'.walkWith again' follow p components directory = .ok q := by
  induction components generalizing p with
  | nil =>
    rw [walkWith_nil] at leads ⊢
    cases dir : t.isDirectory p.node with
    | true =>
      rw [dir] at leads
      rw [h.isDirectory dir]
      exact leads
    | false =>
      cases directory with
      | true =>
        rw [dir] at leads
        cases leads
      | false => exact leads
  | cons name rest ih =>
    cases dir : t.isDirectory p.node with
    | false =>
      rw [walkWith_outside _ dir] at leads
      cases leads
    | true =>
      rw [walkWith_cons _ dir] at leads
      rw [walkWith_cons _ (h.isDirectory dir)]
      -- which case it is depends on the name, and on what is there under the name
      split at leads
      · next dot => rw [if_pos dot]; exact ih leads
      next notDot =>
      split at leads
      · next dots => rw [if_neg notDot, if_pos dots]; exact ih leads
      next notDots =>
      split at leads
      · cases leads
      next short =>
      rw [if_neg notDot, if_neg notDots, if_neg short]
      cases found : t.child? p.node name with
      | none =>
        rw [found] at leads
        cases leads
      | some i =>
        rw [found] at leads
        rw [h.child? found]
        cases link : (t.node? i).bind Node.target? with
        | none =>
          simp only [link] at leads
          obtain ⟨n, here⟩ :=
            Option.ne_none_iff_exists'.mp (node?_ne_none_of_walkWith there leads)
          have target : t.node? i = some n := here
          rw [target, Option.bind_some] at link
          simp only [h.target? target, link]
          exact ih leads
        | some target =>
          obtain ⟨n, here, own⟩ := Option.bind_eq_some_iff.mp link
          simp only [link] at leads
          simp only [h.target? here, own]
          split at leads
          · next through => rw [if_pos through]; exact onward _ _ leads
          · next stay => rw [if_neg stay]; exact leads

theorem walk (there : t.node? q.node ≠ none) (leads : t.walk follow links p r = .ok q) :
    t'.walk follow links p r = .ok q := by
  induction links generalizing p r with
  | zero =>
    rw [walk_eq] at leads ⊢
    exact h.walkWith there (fun _ _ bad => by cases bad) leads
  | succ links ih =>
    rw [walk_eq] at leads ⊢
    exact h.walkWith there (fun _ _ onward => ih onward) leads

theorem resolveFrom {start : Place} (there : t.node? q.node ≠ none)
    (leads : t.resolveFrom start follow path = .ok q) :
    t'.resolveFrom start follow path = .ok q := by
  unfold Tree.resolveFrom at leads ⊢
  cases valid : checkPath path with
  | error e => rw [valid] at leads; cases leads
  | ok _ => rw [valid] at leads; exact h.walk there leads

theorem start (dir : t.isDirectory p.node = true) (begins : t.start current path = .ok p) :
    t'.start current path = .ok p := by
  unfold Tree.start at begins ⊢
  split
  · next absolute => rw [if_pos absolute] at begins; exact begins
  · next relative =>
    rw [if_neg relative] at begins
    exact h.resolveFrom (node?_ne_none_of_isDirectory dir) begins

/-- A path that leads to a node still leads there when the tree has grown. -/
theorem resolve (there : t.node? q.node ≠ none) (leads : t.resolve current follow path = .ok q) :
    t'.resolve current follow path = .ok q := by
  unfold Tree.resolve at leads ⊢
  cases valid : checkPath path with
  | error e => rw [valid] at leads; cases leads
  | ok _ =>
    rw [valid] at leads
    cases begins : t.start current path with
    | error e => rw [begins] at leads; cases leads
    | ok p =>
      rw [begins] at leads
      have again : t'.start current path = .ok p := by
        by_cases absolute : Path.isAbsolute path = true
        · unfold Tree.start at begins ⊢
          rw [if_pos absolute] at begins ⊢
          exact begins
        · refine h.start (isDirectory_of_walk ?_ leads) begins
          exact Path.components_ne_nil absolute (nonempty_of_checkPath valid)
      rw [again]
      exact h.walk there leads

end Grows

/-! ## Walks to a directory -/

/-- To walk to a directory is to walk, and to find a directory. -/
theorem walkWith_directory {again : Place → Route → Except Errno Place}
    (rest : ∀ p components directory q, again p ⟨components, true⟩ = .ok q ↔
      again p ⟨components, directory⟩ = .ok q ∧ t.isDirectory q.node = true)
    (p : Place) (components : List String) (directory : Bool) (q : Place) :
    t.walkWith again true p components true = .ok q ↔
      t.walkWith again true p components directory = .ok q ∧ t.isDirectory q.node = true := by
  induction components generalizing p with
  | nil =>
    rw [walkWith_nil, walkWith_nil]
    cases dir : t.isDirectory p.node
    · cases directory <;> simp
      intro same
      rw [← same]
      exact dir
    · simp
      intro same
      rw [← same]
      exact dir
  | cons name more ih =>
    cases dir : t.isDirectory p.node with
    | false => simp [walkWith_outside again dir]
    | true =>
      rw [walkWith_cons again dir, walkWith_cons again dir]
      split
      · exact ih p
      split
      · exact ih p.parent
      split
      · simp
      split
      · simp
      split
      · exact ih _
      · simp only [Bool.or_true, Bool.true_or, if_true, Route.through]
        exact rest _ _ _ _

theorem walk_directory (t : Tree) (links : Nat) (p : Place) (components : List String)
    (directory : Bool) (q : Place) :
    t.walk true links p ⟨components, true⟩ = .ok q ↔
      t.walk true links p ⟨components, directory⟩ = .ok q ∧ t.isDirectory q.node = true := by
  induction links generalizing p components directory q with
  | zero =>
    rw [walk_eq, walk_eq]
    exact walkWith_directory (fun _ _ _ _ => by simp [onward]) p components directory q
  | succ links ih =>
    rw [walk_eq, walk_eq]
    exact walkWith_directory ih p components directory q

/-- To walk to what is no directory is to find none there. -/
theorem walkWith_notDirectory {again : Place → Route → Except Errno Place}
    (rest : ∀ p components directory, again p ⟨components, directory⟩ = .ok q →
      again p ⟨components, true⟩ = .error .notDirectory)
    (other : t.isDirectory q.node = false) {components : List String}
    (leads : t.walkWith again true p components directory = .ok q) :
    t.walkWith again true p components true = .error .notDirectory := by
  induction components generalizing p with
  | nil =>
    rw [walkWith_nil] at leads ⊢
    split at leads
    · cases leads
    · cases leads
      rw [other]
      rfl
  | cons name more ih =>
    cases dir : t.isDirectory p.node with
    | false => exact walkWith_outside again dir
    | true =>
      rw [walkWith_cons again dir] at leads ⊢
      split at leads
      · next dot => rw [if_pos dot]; exact ih leads
      next dot =>
      rw [if_neg dot]
      split at leads
      · next dots => rw [if_pos dots]; exact ih leads
      next dots =>
      rw [if_neg dots]
      split at leads
      · cases leads
      next long =>
      rw [if_neg long]
      split at leads
      · cases leads
      split at leads
      · exact ih leads
      · simp only [Bool.or_true, Bool.true_or, if_true, Route.through] at leads ⊢
        exact rest _ _ _ leads

theorem walk_notDirectory {components : List String}
    (leads : t.walk true links p ⟨components, directory⟩ = .ok q)
    (other : t.isDirectory q.node = false) :
    t.walk true links p ⟨components, true⟩ = .error .notDirectory := by
  induction links generalizing p components directory with
  | zero =>
    rw [walk_eq] at leads ⊢
    exact walkWith_notDirectory (fun _ _ _ bad => by cases bad) other leads
  | succ links ih =>
    rw [walk_eq] at leads ⊢
    exact walkWith_notDirectory (fun _ _ _ leads => ih leads) other leads

/-! ## Walks in two parts -/

/-- What the walk over components says about the walk over these and `last`: it fails in the same
way, or the other one goes on from the directory that it leads to. -/
def Continues (t : Tree) (last : List String) (links : Nat) (first : Except Errno Place)
    (whole : Bool → Bool → Except Errno Place) : Prop :=
  match first with
  | .error e => ∀ follow directory, whole follow directory = .error e
  | .ok q =>
      t.isDirectory q.node = true ∧
        ∃ left ≤ links, ∀ follow directory,
          whole follow directory = t.walk follow left q ⟨last, directory⟩

theorem Continues.mono {last : List String} {first : Except Errno Place}
    {whole : Bool → Bool → Except Errno Place} {fewer : Nat} (more : fewer ≤ links)
    (h : Continues t last fewer first whole) : Continues t last links first whole := by
  cases first with
  | error e => exact h
  | ok q =>
    obtain ⟨dir, left, le, same⟩ := h
    exact ⟨dir, left, Nat.le_trans le more, same⟩

theorem walkWith_append {last : List String} (some : last ≠ [])
    (rest : ∀ p components, Continues t last links (t.onward true links p ⟨components, true⟩)
      fun follow directory => t.onward follow links p ⟨components ++ last, directory⟩)
    (p : Place) (components : List String) :
    Continues t last links (t.walkWith (t.onward true links) true p components true)
      fun follow directory =>
        t.walkWith (t.onward follow links) follow p (components ++ last) directory := by
  induction components generalizing p with
  | nil =>
    rw [walkWith_nil]
    cases dir : t.isDirectory p.node with
    | true =>
      refine ⟨dir, links, Nat.le_refl _, fun follow directory => ?_⟩
      rw [walk_eq]
      rfl
    | false =>
      intro follow directory
      cases last with
      | nil => exact absurd rfl some
      | cons name more => exact walkWith_outside _ dir
  | cons name more ih =>
    cases dir : t.isDirectory p.node with
    | false =>
      rw [walkWith_outside _ dir]
      intro follow directory
      exact walkWith_outside _ dir
    | true =>
      -- a link before `last` is not at the end of the route, and is followed in any case
      have full : (more ++ last).isEmpty = false := by
        cases more <;> cases last <;> simp_all
      simp only [walkWith_cons _ dir, List.cons_append]
      split
      · exact ih p
      split
      · exact ih p.parent
      split
      · exact fun _ _ => rfl
      split
      · exact fun _ _ => rfl
      split
      · exact ih _
      · next target _ =>
        simp only [full, Bool.or_true, Bool.true_or, Bool.not_false, if_true, Route.through,
          Bool.false_and, Bool.or_false, ← List.append_assoc]
        exact rest _ _

/-- A walk over components and some more. -/
theorem walk_append {last : List String} (some : last ≠ []) (links : Nat) (p : Place)
    (components : List String) :
    Continues t last links (t.walk true links p ⟨components, true⟩) fun follow directory =>
      t.walk follow links p ⟨components ++ last, directory⟩ := by
  induction links generalizing p components with
  | zero =>
    simp only [walk_eq]
    refine walkWith_append some (fun p components => ?_) p components
    exact fun _ _ => rfl
  | succ links ih =>
    simp only [walk_eq]
    exact walkWith_append some (fun p components => (ih p components).mono (Nat.le_succ links))
      p components

theorem walk_append_error {last components : List String} {e : Errno} (some : last ≠ [])
    (first : t.walk true links p ⟨components, true⟩ = .error e) :
    t.walk follow links p ⟨components ++ last, directory⟩ = .error e := by
  have parts := walk_append (t := t) some links p components
  rw [first] at parts
  exact parts follow directory

theorem walk_append_ok {last components : List String} (some : last ≠ [])
    (first : t.walk true links p ⟨components, true⟩ = .ok q) :
    t.isDirectory q.node = true ∧ ∃ left ≤ links, ∀ follow directory,
      t.walk follow links p ⟨components ++ last, directory⟩ =
        t.walk follow left q ⟨last, directory⟩ := by
  have parts := walk_append (t := t) some links p components
  rw [first] at parts
  exact parts

/-- A walk over one more component ends only if the first part leads to a directory. -/
theorem walk_snoc_ok {name : String} {components : List String}
    (leads : t.walk follow links p ⟨components ++ [name], directory⟩ = .ok q) :
    ∃ r, t.walk true links p ⟨components, true⟩ = .ok r := by
  cases first : t.walk true links p ⟨components, true⟩ with
  | error e =>
    rw [walk_append_error (List.cons_ne_nil name []) first] at leads
    cases leads
  | ok r => exact ⟨r, rfl⟩

/-- The last component of a walk, where it is a name. -/
theorem walk_snoc {name : String} {components : List String} (own : Path.IsName name)
    (short : name.utf8ByteSize ≤ nameLimit)
    (first : t.walk true links p ⟨components, true⟩ = .ok q) :
    ∃ left ≤ links, ∀ follow directory,
      t.walk follow links p ⟨components ++ [name], directory⟩ =
        match t.child? q.node name with
        | none => .error .noEntry
        | some i =>
            match (t.node? i).bind Node.target? with
            | none =>
                if directory && !t.isDirectory i then .error .notDirectory else .ok (q.step i)
            | some target =>
                if follow || directory then
                  t.onward follow left (if Path.isAbsolute target then Place.root else q)
                    (Route.through target ⟨[], directory⟩)
                else .ok (q.step i) := by
  obtain ⟨dir, left, le, same⟩ := walk_append_ok (List.cons_ne_nil name []) first
  refine ⟨left, le, fun follow directory => ?_⟩
  rw [same, walk_eq, walkWith_cons _ dir, if_neg own.ne_dot, if_neg own.ne_dots,
    if_neg (Nat.not_lt.mpr short)]
  simp only [walkWith_nil]
  rfl

theorem walk_snoc_none {name : String} {components : List String} (own : Path.IsName name)
    (short : name.utf8ByteSize ≤ nameLimit)
    (first : t.walk true links p ⟨components, true⟩ = .ok q)
    (free : t.child? q.node name = none) :
    t.walk follow links p ⟨components ++ [name], directory⟩ = .error .noEntry := by
  obtain ⟨left, _, same⟩ := walk_snoc own short first
  rw [same, free]

/-- The last component of a walk, where it is a name and no link is to be followed. -/
theorem walk_snoc_some {name : String} {components : List String} {i : Nat}
    (own : Path.IsName name) (short : name.utf8ByteSize ≤ nameLimit)
    (first : t.walk true links p ⟨components, true⟩ = .ok q)
    (found : t.child? q.node name = some i)
    (noLink : (t.node? i).bind Node.target? = none ∨ follow = false) :
    t.walk follow links p ⟨components ++ [name], false⟩ = .ok (q.step i) := by
  obtain ⟨left, _, same⟩ := walk_snoc own short first
  rw [same, found]
  rcases noLink with none | stay
  · simp [none]
  · subst stay
    cases target : (t.node? i).bind Node.target? with
    | none => simp [target]
    | some _ => simp [target]

theorem walk_snoc_long {name : String} {components : List String} (own : Path.IsName name)
    (long : nameLimit < name.utf8ByteSize)
    (first : t.walk true links p ⟨components, true⟩ = .ok q) :
    t.walk follow links p ⟨components ++ [name], directory⟩ = .error .nameTooLong := by
  obtain ⟨dir, left, _, same⟩ := walk_append_ok (List.cons_ne_nil name []) first
  rw [same, walk_eq, walkWith_cons _ dir, if_neg own.ne_dot, if_neg own.ne_dots, if_pos long]

/-! ## Paths to directories -/

/-- The directory that a path leads to, every link followed. -/
def directoryAt (t : Tree) (current path : String) : Except Errno Place := do
  checkPath path
  t.walk true linkLimit (← t.start current path) ⟨Path.components path, true⟩

theorem directoryAt_eq_ok_iff :
    t.directoryAt current path = .ok q ↔
      t.resolve current true path = .ok q ∧ t.isDirectory q.node = true := by
  unfold directoryAt resolve Route.ofPath
  cases checkPath path with
  | error e => simp [bind, Except.bind]
  | ok _ =>
    cases t.start current path with
    | error e => simp [bind, Except.bind]
    | ok p => exact walk_directory t linkLimit p _ _ q

theorem isDirectory_of_directoryAt (leads : t.directoryAt current path = .ok q) :
    t.isDirectory q.node = true :=
  (directoryAt_eq_ok_iff.mp leads).2

/-- A path that leads to something else leads to no directory. -/
theorem directoryAt_of_other (leads : t.resolve current true path = .ok q)
    (other : t.isDirectory q.node = false) :
    t.directoryAt current path = .error .notDirectory := by
  unfold resolve at leads
  unfold directoryAt
  cases valid : checkPath path with
  | error e => rw [valid] at leads; cases leads
  | ok _ =>
    cases begins : t.start current path with
    | error e => rw [valid, begins] at leads; cases leads
    | ok p =>
      rw [valid, begins] at leads
      exact walk_notDirectory leads other

theorem nonempty_of_directoryAt (leads : t.directoryAt current path = .ok q) : path ≠ "" := by
  unfold directoryAt at leads
  cases valid : checkPath path with
  | error e => rw [valid] at leads; cases leads
  | ok _ => exact nonempty_of_checkPath valid

/-! ## Paths below a directory -/

variable {name : String} {i : Nat}

/-- The walk for a path below a directory, up to the last step. -/
theorem resolve_join_eq (full : path ≠ "") (own : Path.IsComponent name)
    (valid : checkPath (Path.join path name) = .ok ()) :
    t.resolve current follow (Path.join path name) =
      (t.start current path).bind fun p =>
        t.walk follow linkLimit p ⟨Path.components path ++ [name], false⟩ := by
  have start : t.start current (Path.join path name) = t.start current path := by
    unfold start
    rw [Path.isAbsolute_join full own]
  unfold resolve Route.ofPath
  rw [valid, start, Path.components_join full own, Path.endsInSlash_join own]
  rfl

theorem checkPath_of_join (full : path ≠ "") (own : Path.IsComponent name)
    (valid : checkPath (Path.join path name) = .ok ()) : checkPath path = .ok () := by
  have longer := Path.utf8ByteSize_lt_join path own
  unfold checkPath at valid ⊢
  rw [if_neg (Path.join_ne_empty own)] at valid
  rw [if_neg full, if_neg]
  split at valid
  · cases valid
  · omega

/-- The start of the walk to the directory that a path leads to. -/
theorem directoryAt_eq (valid : checkPath path = .ok ()) :
    t.directoryAt current path =
      (t.start current path).bind fun p =>
        t.walk true linkLimit p ⟨Path.components path, true⟩ := by
  unfold directoryAt
  rw [valid]
  rfl

/-- A path below a directory leads somewhere only if the directory is there. -/
theorem directoryAt_of_resolve_join (full : path ≠ "") (own : Path.IsComponent name)
    (leads : t.resolve current follow (Path.join path name) = .ok q) :
    ∃ r, t.directoryAt current path = .ok r := by
  cases valid : checkPath (Path.join path name) with
  | error e =>
    unfold resolve at leads
    rw [valid] at leads
    cases leads
  | ok _ =>
    rw [resolve_join_eq full own valid] at leads
    rw [directoryAt_eq (checkPath_of_join full own valid)]
    cases start : t.start current path with
    | error e => rw [start] at leads; cases leads
    | ok p =>
      rw [start] at leads
      exact walk_snoc_ok leads

/-- A path below a path that leads to no directory leads nowhere, and there is no spot for it. -/
theorem resolve_join_error {e : Errno} (full : path ≠ "") (own : Path.IsName name)
    (valid : checkPath (Path.join path name) = .ok ())
    (nowhere : t.directoryAt current path = .error e) :
    t.resolve current follow (Path.join path name) = .error e := by
  rw [directoryAt_eq (checkPath_of_join full own.toIsComponent valid)] at nowhere
  rw [resolve_join_eq full own.toIsComponent valid]
  cases begins : t.start current path with
  | error e' => rw [begins] at nowhere; cases nowhere; rfl
  | ok p =>
    rw [begins] at nowhere
    exact walk_append_error (List.cons_ne_nil _ _) nowhere

theorem spot_join_error {e : Errno} (full : path ≠ "") (own : Path.IsName name)
    (valid : checkPath (Path.join path name) = .ok ())
    (nowhere : t.directoryAt current path = .error e) :
    t.spot current (Path.join path name) = .error e := by
  have start : t.start current (Path.join path name) = t.start current path := by
    unfold start
    rw [Path.isAbsolute_join full own.toIsComponent]
  rw [directoryAt_eq (checkPath_of_join full own.toIsComponent valid)] at nowhere
  unfold spot
  rw [valid, start, Path.components_join full own.toIsComponent]
  cases begins : t.start current path with
  | error e' => rw [begins] at nowhere; cases nowhere; rfl
  | ok p =>
    rw [begins] at nowhere
    have nowhere : t.walk true linkLimit p ⟨Path.components path, true⟩ = .error e := nowhere
    simp only [bind, Except.bind, List.dropLast_concat, nowhere]

/-- A path below a directory leads to where one more step leads from the walk to the directory. -/
theorem resolve_join_of_walk {out : Except Errno Place} (full : path ≠ "") (own : Path.IsComponent name)
    (valid : checkPath (Path.join path name) = .ok ()) (leads : t.directoryAt current path = .ok q)
    (step : ∀ p, t.walk true linkLimit p ⟨Path.components path, true⟩ = .ok q →
      t.walk follow linkLimit p ⟨Path.components path ++ [name], false⟩ = out) :
    t.resolve current follow (Path.join path name) = out := by
  rw [directoryAt_eq (checkPath_of_join full own valid)] at leads
  rw [resolve_join_eq full own valid]
  cases start : t.start current path with
  | error e => rw [start] at leads; cases leads
  | ok p =>
    rw [start] at leads
    exact step p leads

theorem resolve_join_none (full : path ≠ "") (own : Path.IsName name)
    (valid : checkPath (Path.join path name) = .ok ()) (short : name.utf8ByteSize ≤ nameLimit)
    (leads : t.directoryAt current path = .ok q) (free : t.child? q.node name = none) :
    t.resolve current follow (Path.join path name) = .error .noEntry :=
  resolve_join_of_walk full own.toIsComponent valid leads fun _ leads =>
    walk_snoc_none own short leads free

theorem resolve_join_long (full : path ≠ "") (own : Path.IsName name)
    (valid : checkPath (Path.join path name) = .ok ()) (long : nameLimit < name.utf8ByteSize)
    (leads : t.directoryAt current path = .ok q) :
    t.resolve current follow (Path.join path name) = .error .nameTooLong :=
  resolve_join_of_walk full own.toIsComponent valid leads fun _ leads =>
    walk_snoc_long own long leads

/-- A path below a directory leads to what the directory names so. -/
theorem resolve_join (full : path ≠ "") (own : Path.IsName name)
    (valid : checkPath (Path.join path name) = .ok ()) (short : name.utf8ByteSize ≤ nameLimit)
    (leads : t.directoryAt current path = .ok q) (found : t.child? q.node name = some i)
    (noLink : (t.node? i).bind Node.target? = none ∨ follow = false) :
    t.resolve current follow (Path.join path name) = .ok (q.step i) :=
  resolve_join_of_walk full own.toIsComponent valid leads fun _ leads =>
    walk_snoc_some own short leads found noLink

theorem target?_of_isDirectory (dir : t.isDirectory i = true) :
    (t.node? i).bind Node.target? = none := by
  obtain ⟨n, here, dir⟩ := isDirectory_iff.mp dir
  rw [here, Option.bind_some]
  unfold Node.isDirectory Node.entries? at dir
  unfold Node.target?
  cases body : n.body <;> simp_all

theorem directoryAt_join (full : path ≠ "") (own : Path.IsName name)
    (valid : checkPath (Path.join path name) = .ok ()) (short : name.utf8ByteSize ≤ nameLimit)
    (leads : t.directoryAt current path = .ok q) (found : t.child? q.node name = some i)
    (dir : t.isDirectory i = true) :
    t.directoryAt current (Path.join path name) = .ok (q.step i) := by
  exact directoryAt_eq_ok_iff.mpr
    ⟨resolve_join full own valid short leads found (.inl (target?_of_isDirectory dir)), dir⟩

/-! ## Spots -/

/-- The spot of a path below a directory is in that directory, unless the name is too long. -/
theorem spot_join_eq (full : path ≠ "") (own : Path.IsName name)
    (valid : checkPath (Path.join path name) = .ok ())
    (leads : t.directoryAt current path = .ok q) :
    t.spot current (Path.join path name) =
      if nameLimit < name.utf8ByteSize then .error .nameTooLong else .ok ⟨q.node, name⟩ := by
  have start : t.start current (Path.join path name) = t.start current path := by
    unfold start
    rw [Path.isAbsolute_join full own.toIsComponent]
  rw [directoryAt_eq (checkPath_of_join full own.toIsComponent valid)] at leads
  unfold spot
  rw [valid, start, Path.components_join full own.toIsComponent]
  cases begins : t.start current path with
  | error e => rw [begins] at leads; cases leads
  | ok p =>
    rw [begins] at leads
    have leads : t.walk true linkLimit p ⟨Path.components path, true⟩ = .ok q := leads
    simp only [bind, Except.bind, List.dropLast_concat, List.getLast?_concat, leads]
    split <;> rfl

theorem spot_join (full : path ≠ "") (own : Path.IsName name)
    (valid : checkPath (Path.join path name) = .ok ()) (short : name.utf8ByteSize ≤ nameLimit)
    (leads : t.directoryAt current path = .ok q) :
    t.spot current (Path.join path name) = .ok ⟨q.node, name⟩ := by
  rw [spot_join_eq full own valid leads, if_neg (Nat.not_lt.mpr short)]

theorem spot_join_long (full : path ≠ "") (own : Path.IsName name)
    (valid : checkPath (Path.join path name) = .ok ()) (long : nameLimit < name.utf8ByteSize)
    (leads : t.directoryAt current path = .ok q) :
    t.spot current (Path.join path name) = .error .nameTooLong := by
  rw [spot_join_eq full own valid leads, if_pos long]

/-- What the spot of a path is: the last component, in the directory that the others lead to. -/
theorem spot_eq_ok {s : Spot} (found : t.spot current path = .ok s) :
    checkPath path = .ok () ∧ s.name.utf8ByteSize ≤ nameLimit ∧
      ∃ start q components, t.start current path = .ok start ∧
        Path.components path = components ++ [s.name] ∧
        t.walk true linkLimit start ⟨components, true⟩ = .ok q ∧ q.node = s.directory := by
  unfold spot at found
  cases valid : checkPath path with
  | error e => rw [valid] at found; cases found
  | ok _ =>
    cases begins : t.start current path with
    | error e => rw [valid, begins] at found; cases found
    | ok start =>
      rw [valid, begins] at found
      simp only [bind, Except.bind] at found
      cases leads : t.walk true linkLimit start ⟨(Path.components path).dropLast, true⟩ with
      | error e => rw [leads] at found; cases found
      | ok q =>
        rw [leads] at found
        cases last : (Path.components path).getLast? with
        | none => rw [last] at found; cases found
        | some name =>
          simp only [last] at found
          split at found
          · cases found
          · next short =>
            cases found
            have split := List.dropLast_append_getLast? name last
            exact ⟨rfl, Nat.not_lt.mp short, start, q, _, rfl, split.symm, leads, rfl⟩

/-- The directory of the spot of a path below a directory is that directory. -/
theorem directoryAt_of_spot_join {s : Spot} (full : path ≠ "") (own : Path.IsComponent name)
    (found : t.spot current (Path.join path name) = .ok s) :
    ∃ q, t.directoryAt current path = .ok q ∧ s = ⟨q.node, name⟩ := by
  obtain ⟨valid, short, start, q, components, begins, split, leads, here⟩ := spot_eq_ok found
  rw [Path.components_join full own] at split
  obtain ⟨same, last⟩ := List.append_inj' split rfl
  have begins' : t.start current path = .ok start := by
    unfold Tree.start at begins ⊢
    rw [Path.isAbsolute_join full own] at begins
    exact begins
  refine ⟨q, ?_, ?_⟩
  · rw [directoryAt_eq (checkPath_of_join full own valid), begins', same]
    exact leads
  · cases s
    simp only [List.cons.injEq, and_true] at last
    simp only [Spot.mk.injEq]
    exact ⟨here.symm, last.symm⟩

/-- Where the spot of a path is taken, the path leads to what is there, unless it is a link that is
followed. -/
theorem resolve_of_spot {s : Spot} (own : Path.IsName s.name)
    (found : t.spot current path = .ok s) (taken : t.child? s.directory s.name = some i)
    (noLink : (t.node? i).bind Node.target? = none ∨
      (follow = false ∧ Path.endsInSlash path = false))
    (fits : Path.endsInSlash path = true → t.isDirectory i = true) :
    ∃ above, t.resolve current follow path = .ok ⟨i, above⟩ := by
  obtain ⟨valid, short, start, q, components, begins, split, leads, here⟩ := spot_eq_ok found
  rw [← here] at taken
  obtain ⟨left, _, same⟩ := walk_snoc own short leads
  refine ⟨q.node :: q.above, ?_⟩
  unfold resolve Route.ofPath
  rw [valid, begins, split]
  simp only [bind, Except.bind]
  rw [same, taken]
  rcases noLink with none | ⟨stay, bare⟩
  · simp only [none]
    rw [if_neg]
    · rfl
    · cases ends : Path.endsInSlash path with
      | false => simp
      | true => simp [fits ends]
  · cases target : (t.node? i).bind Node.target? with
    | none => simp [target, bare, Place.step]
    | some _ => simp [target, bare, stay, Place.step]

theorem Grows.directoryAt {t' : Tree} (h : Grows t t')
    (leads : t.directoryAt current path = .ok q) : t'.directoryAt current path = .ok q := by
  obtain ⟨leads, dir⟩ := directoryAt_eq_ok_iff.mp leads
  exact directoryAt_eq_ok_iff.mpr
    ⟨h.resolve (node?_ne_none_of_isDirectory dir) leads, h.isDirectory dir⟩

end HomeProvision.Machine.Tree
