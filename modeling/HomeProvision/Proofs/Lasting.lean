import HomeProvision.Proofs.Descent
import HomeProvision.Proofs.Unfed

/-!
# What lasts

On a machine that answers every call, what a look has shown is shown by every later look, and what
could not be made once cannot be made later.

For a path below another one this is so for one of two reasons. Either the path above leads to no
directory, or the path is too long, and then nothing is found and nothing is made there as long as
the machine runs (`Blocked`). Or there is a directory with a free name, and then the creation goes
well, so that from then on the name is taken (`Taken`). The source of a clone stays as it was, since
nothing is added to its directories (`Filled.node?_eq`).
-/

namespace HomeProvision

open Relation

namespace Machine

variable {m f start : Machine} {origin home : Option Nat} {directory name path : String}
  {kind : EntryType} {i : Nat}

/-- What kind of entry a path names. -/
def kindAt (m : Machine) (path : String) : Option EntryType :=
  (m.find false path).toOption.map fun found => found.2.entryType

/-! ## Paths at which nothing can be made -/

/-- Whether a path leads to a node, links followed. -/
def Stands (m : Machine) (path : String) : Prop :=
  ∃ p, m.tree.resolve m.current true path = .ok p ∧ m.tree.node? p.node ≠ none

/-- Whether nothing can be made at a path. -/
def Refuses (m : Machine) (path : String) : Prop :=
  ∀ names check bits body, ∃ e, m.createAt names path check bits body = .error (.system e)

/-- Whether a path leads nowhere, though not for want of a name. -/
def Blocked (m : Machine) (path : String) : Prop :=
  ∃ e, e ≠ .noEntry ∧ (∀ follow, m.tree.resolve m.current follow path = .error e) ∧
    m.tree.spot m.current path = .error e

/-- Whether a directory has a name for an entry of some kind. -/
def Taken (m : Machine) (directory name : String) (kind : EntryType) : Prop :=
  ∃ q i n, m.tree.directoryAt m.current directory = .ok q ∧ ShortBelow directory name ∧
    m.tree.child? q.node name = some i ∧ m.tree.node? i = some n ∧ n.entryType = kind

/-- Whether a directory has a name for a directory without entries. -/
def Made (m : Machine) (directory name : String) : Prop :=
  ∃ q i, m.tree.directoryAt m.current directory = .ok q ∧ ShortBelow directory name ∧
    m.tree.child? q.node name = some i ∧ m.tree.entries? i = some []

theorem Stands.since (h : m.Stands path) (later : Since m f) : f.Stands path := by
  obtain ⟨p, leads, there⟩ := h
  refine ⟨p, ?_, later.tree.node_ne_none there⟩
  rw [later.current]
  exact later.resolve true path p there leads

theorem stands_of_directoryAt {q : Place} (leads : m.tree.directoryAt m.current path = .ok q) :
    m.Stands path := by
  obtain ⟨resolved, dir⟩ := Tree.directoryAt_eq_ok_iff.mp leads
  exact ⟨q, resolved, Tree.node?_ne_none_of_isDirectory dir⟩

theorem stands_of_statusOf {status : Status} (looked : m.statusOf true path = .ok status) :
    m.Stands path := by
  obtain ⟨⟨i, n⟩, found, _⟩ := bind_eq_ok.mp looked
  obtain ⟨⟨above, leads⟩, here⟩ := find_ok found
  exact ⟨_, leads, by rw [here]; exact Option.some_ne_none n⟩

/-- What stands leads to a directory, or it is there and leads to none. -/
theorem Stands.directory_or (h : m.Stands path) :
    (∃ q, m.tree.directoryAt m.current path = .ok q) ∨
      ∃ p, m.tree.resolve m.current true path = .ok p ∧ m.tree.node? p.node ≠ none ∧
        m.tree.isDirectory p.node = false := by
  obtain ⟨p, leads, there⟩ := h
  cases dir : m.tree.isDirectory p.node with
  | true => exact .inl ⟨p, Tree.directoryAt_eq_ok_iff.mpr ⟨leads, dir⟩⟩
  | false => exact .inr ⟨p, leads, there, dir⟩

theorem blocked_of_other {p : Place} (full : directory ≠ "") (own : Path.IsName name)
    (leads : m.tree.resolve m.current true directory = .ok p)
    (other : m.tree.isDirectory p.node = false) : m.Blocked (Path.join directory name) := by
  have nowhere := Tree.directoryAt_of_other leads other
  cases valid : Tree.checkPath (Path.join directory name) with
  | ok _ =>
    exact ⟨.notDirectory, by decide, fun _ => Tree.resolve_join_error full own valid nowhere,
      Tree.spot_join_error full own valid nowhere⟩
  | error e =>
    have long : e = .nameTooLong := by
      unfold Tree.checkPath at valid
      rw [if_neg (Path.join_ne_empty own.toIsComponent)] at valid
      split at valid
      · cases valid; rfl
      · cases valid
    subst long
    refine ⟨.nameTooLong, by decide, fun follow => ?_, ?_⟩
    · unfold Tree.resolve
      rw [valid]
      rfl
    · unfold Tree.spot
      rw [valid]
      rfl

/-- A path below a path that stands is blocked as long as the machine runs, or there is a directory
that it may name something in. -/
theorem Stands.blocked_or (h : m.Stands directory) (full : directory ≠ "")
    (own : Path.IsName name) :
    (∀ f, Since m f → f.Blocked (Path.join directory name)) ∨
      ShortBelow directory name ∧ ∃ q, m.tree.directoryAt m.current directory = .ok q := by
  rcases h.directory_or with ⟨q, leads⟩ | ⟨p, leads, there, other⟩
  · rcases Program.shortBelow_or full own leads with short | _
    · exact .inr ⟨short, q, leads⟩
    · next long =>
      refine .inl fun f later => ?_
      -- a path that is too long is so in every tree
      rcases Program.shortBelow_or full own (later.directoryAt leads) with short | ⟨nowhere, spot⟩
      · have bad := Tree.spot_join full own short.1 short.2 leads
        rw [long.2] at bad
        cases bad
      · exact ⟨.nameTooLong, by decide, nowhere, spot⟩
  · refine .inl fun f later => blocked_of_other full own (p := p) ?_ ?_
    · rw [later.current]
      exact later.resolve true directory p there leads
    · rw [later.tree.isDirectory_eq there]
      exact other

theorem Blocked.refuses (h : m.Blocked path) : m.Refuses path := by
  obtain ⟨e, _, _, spot⟩ := h
  intro names check bits body
  unfold createAt
  rw [spot]
  exact ⟨_, rfl⟩

/-- A look at a blocked path. -/
theorem Blocked.statusOf (h : m.Blocked path) (text : checkText path = .ok ()) (follow : Bool) :
    ∃ e, e ≠ .noEntry ∧ m.statusOf follow path = .error (.system (.numbered e (.one path))) := by
  obtain ⟨e, other, nowhere, _⟩ := h
  refine ⟨e, other, ?_⟩
  unfold Machine.statusOf find Machine.resolve
  rw [text, nowhere follow]
  rfl

namespace Taken

theorem since (h : m.Taken directory name kind) (later : Since m f) :
    f.Taken directory name kind := by
  obtain ⟨q, i, n, leads, short, child, here, type⟩ := h
  obtain ⟨n', here', type', _⟩ := later.tree.node i n here
  exact ⟨q, i, n', later.directoryAt leads, short, later.tree.kept _ _ _ child, here',
    type'.trans type⟩

variable (h : m.Taken directory name kind) (full : directory ≠ "") (own : Path.IsName name)
include h full own

theorem refuses : m.Refuses (Path.join directory name) := by
  obtain ⟨q, i, n, leads, short, child, _⟩ := h
  intro names check bits body
  unfold createAt
  rw [Tree.spot_join full own short.1 short.2 leads]
  cases check with
  | error e => exact ⟨_, rfl⟩
  | ok _ =>
    refine ⟨.numbered .alreadyExists names, ?_⟩
    have taken : m.tree.checkFree ⟨q.node, name⟩ = .error .alreadyExists := by
      unfold Tree.checkFree
      rw [child]
      simp
    simp only [Except.mapError, bind, Except.bind, taken]

/-- A look at what a directory names, no link followed. -/
theorem find (text : checkText (Path.join directory name) = .ok ()) :
    ∃ i n, m.find false (Path.join directory name) = .ok (i, n) ∧ m.tree.node? i = some n ∧
      n.entryType = kind := by
  obtain ⟨q, i, n, leads, short, child, here, type⟩ := h
  have resolved := Tree.resolve_join full own short.1 short.2 leads child (.inr rfl)
  exact ⟨i, n, find_eq_ok text resolved here, here, type⟩

theorem kindAt (text : checkText (Path.join directory name) = .ok ()) :
    m.kindAt (Path.join directory name) = some kind := by
  obtain ⟨i, n, found, _, type⟩ := h.find full own text
  unfold Machine.kindAt
  rw [found]
  exact congrArg some type

end Taken

/-- A directory that has a name leads to a directory under that name. -/
theorem Taken.directoryAt (h : m.Taken directory name .directory) (full : directory ≠ "")
    (own : Path.IsName name) :
    ∃ q, m.tree.directoryAt m.current (Path.join directory name) = .ok q := by
  obtain ⟨q, i, n, leads, short, child, here, type⟩ := h
  refine ⟨_, Tree.directoryAt_join full own short.1 short.2 leads child ?_⟩
  exact Tree.isDirectory_iff.mpr ⟨n, here, Node.entryType_eq_directory_iff.mp type⟩

/-- A look at a directory that has a name. -/
theorem Taken.statusOf (h : m.Taken directory name .directory) (full : directory ≠ "")
    (own : Path.IsName name) (text : checkText (Path.join directory name) = .ok ()) :
    ∃ status, m.statusOf true (Path.join directory name) = .ok status := by
  obtain ⟨q, leads⟩ := h.directoryAt full own
  have here : Program.homeAt m (Path.join directory name) = some q.node := by
    rw [Program.homeAt, leads]
    rfl
  obtain ⟨n, _, looked⟩ := Program.statusOf_of_homeAt text here
  exact ⟨n.status, looked⟩

/-! ## The calls that make something -/

/-- Whether something was tried at a path that cannot be done there later. -/
def Tried (m : Machine) (path : String) : Prop :=
  ∀ f, Since m f → f.Refuses path

theorem Taken.tried (h : m.Taken directory name kind) (full : directory ≠ "")
    (own : Path.IsName name) : m.Tried (Path.join directory name) :=
  fun _ later => (h.since later).refuses full own

variable {m' : Machine} {q : Place} {mode number : Int} {e : SystemError} {target : String}

section

variable (leads : m.tree.directoryAt m.current directory = .ok q)
  (short : ShortBelow directory name) (free : m.tree.child? q.node name = none)
include leads short free

/-- Something can be made under a free name in a directory. -/
theorem createAt_free (full : directory ≠ "") (own : Path.IsName name) (names : FileNames)
    (bits : Nat) (body : Body) :
    m.createAt names (Path.join directory name) (.ok ()) bits body =
      .ok (m.withTree (m.tree.create q.node name (m.newNode q.node bits body))) := by
  have unused : m.tree.checkFree ⟨q.node, name⟩ = .ok () := by
    unfold Tree.checkFree
    simp [own.ne_dot, own.ne_dots, free]
  unfold createAt
  rw [Tree.spot_join full own short.1 short.2 leads]
  simp only [Except.mapError, bind, Except.bind, unused]
  rfl

theorem Taken.create (n : Node) :
    (m.withTree (m.tree.create q.node name n)).Taken directory name n.entryType := by
  have dir := Tree.isDirectory_of_directoryAt leads
  have inside := Tree.lt_of_isDirectory dir
  exact ⟨q, _, n, (Tree.Grows.create inside free).directoryAt leads, short,
    Tree.child?_create_new dir free, Tree.node?_create_new inside, rfl⟩

end

theorem Made.taken (h : m.Made directory name) : m.Taken directory name .directory := by
  obtain ⟨q, i, leads, short, child, bare⟩ := h
  obtain ⟨n, here, dir⟩ := Tree.isDirectory_iff.mp (Tree.isDirectory_of_entries? bare)
  exact ⟨q, i, n, leads, short, child, here, Node.entryType_eq_directory_iff.mpr dir⟩

theorem checkText_ne_system (text : String) : checkText text ≠ .error (.system e) := by
  unfold checkText
  split <;> simp

theorem checkModeArgument_ne_system (mode : Int) : checkModeArgument mode ≠ .error (.system e) := by
  unfold checkModeArgument
  split <;> simp

section

variable (full : directory ≠ "") (own : Path.IsName name) (named : m.tree.Named)
include full own named

/-- What comes of a creation below a path that stands. -/
theorem createAt_tried {names : FileNames} {bits : Nat} {body : Body} {out : Except Fault Machine}
    (stands : m.Stands directory)
    (done : m.createAt names (Path.join directory name) (.ok ()) bits body = out) :
    (∃ m' d, out = .ok m' ∧ m'.Taken directory name (m.newNode d bits body).entryType) ∨
      (∃ e, out = .error (.system e)) ∧ m.Tried (Path.join directory name) := by
  subst done
  rcases stands.blocked_or full own with blocked | ⟨short, q, leads⟩
  · exact .inr ⟨(blocked m (.refl m)).refuses _ _ _ _, fun f later => (blocked f later).refuses⟩
  · cases child : m.tree.child? q.node name with
    | none =>
      exact .inl ⟨_, q.node, createAt_free leads short child full own names bits body,
        .create leads short child _⟩
    | some i =>
      obtain ⟨n, here⟩ := Option.ne_none_iff_exists'.mp (named _ _ _ child)
      have taken : m.Taken directory name n.entryType :=
        ⟨q, i, n, leads, short, child, here, rfl⟩
      exact .inr ⟨taken.refuses full own _ _ _ _, taken.tried full own⟩

theorem openExclusive_tried (stands : m.Stands directory) (mode : Int) :
    (∀ number m', m.openExclusive (Path.join directory name) mode = .ok (number, m') →
      m'.Taken directory name .regularFile) ∧
    ∀ e, m.openExclusive (Path.join directory name) mode = .error (.system e) →
      m.Tried (Path.join directory name) := by
  have slash : Path.endsInSlash (Path.join directory name) = false :=
    Path.endsInSlash_join own.toIsComponent
  constructor
  · intro number m' done
    unfold openExclusive at done
    rw [slash] at done
    obtain ⟨_, _, done⟩ := bind_eq_ok.mp done
    obtain ⟨_, _, done⟩ := bind_eq_ok.mp done
    obtain ⟨created, made, done⟩ := bind_eq_ok.mp done
    rcases createAt_tried full own named stands made with ⟨_, d, same, taken⟩ | ⟨⟨_, bad⟩, _⟩
    · cases same
      cases done
      exact taken
    · cases bad
  · intro e failed
    unfold openExclusive at failed
    rw [slash] at failed
    rcases bind_eq_error.mp failed with bad | ⟨_, _, failed⟩
    · exact absurd bad (checkText_ne_system _)
    rcases bind_eq_error.mp failed with bad | ⟨_, _, failed⟩
    · exact absurd bad (checkModeArgument_ne_system _)
    rcases bind_eq_error.mp failed with failed | ⟨_, _, bad⟩
    · rcases createAt_tried full own named stands failed with ⟨_, _, bad, _⟩ | ⟨_, tried⟩
      · cases bad
      · exact tried
    · cases bad

theorem symlink_tried (stands : m.Stands directory) (target : String) :
    (∀ m', m.symlink target (Path.join directory name) = .ok m' →
      m'.Taken directory name .symlink) ∧
    ∀ e, m.symlink target (Path.join directory name) = .error (.system e) →
      m.Tried (Path.join directory name) ∨ ∃ e, Tree.checkPath target = .error e := by
  have slash : Path.endsInSlash (Path.join directory name) = false :=
    Path.endsInSlash_join own.toIsComponent
  constructor
  · intro m' done
    unfold symlink at done
    rw [slash] at done
    obtain ⟨_, _, done⟩ := bind_eq_ok.mp done
    obtain ⟨_, _, done⟩ := bind_eq_ok.mp done
    obtain ⟨_, _, done⟩ := bind_eq_ok.mp done
    obtain ⟨created, made, done⟩ := bind_eq_ok.mp done
    cases done
    rcases createAt_tried full own named stands made with ⟨_, d, same, taken⟩ | ⟨⟨_, bad⟩, _⟩
    · cases same
      exact taken
    · cases bad
  · intro e failed
    unfold symlink at failed
    rw [slash] at failed
    rcases bind_eq_error.mp failed with bad | ⟨_, _, failed⟩
    · exact absurd bad (checkText_ne_system _)
    rcases bind_eq_error.mp failed with bad | ⟨_, _, failed⟩
    · exact absurd bad (checkText_ne_system _)
    rcases bind_eq_error.mp failed with bad | ⟨_, _, failed⟩
    · obtain ⟨e, bad, _⟩ := mapError_eq_error.mp bad
      exact .inr ⟨e, bad⟩
    rcases bind_eq_error.mp failed with failed | ⟨_, _, bad⟩
    · rcases createAt_tried full own named stands failed with ⟨_, _, bad, _⟩ | ⟨_, tried⟩
      · cases bad
      · exact .inl tried
    · cases bad

end

/-- Where nothing can be made no file is created. -/
theorem Refuses.openExclusive (h : m.Refuses path) (text : checkText path = .ok ())
    (valid : checkModeArgument mode = .ok ()) :
    ∃ e, m.openExclusive path mode = .error (.system e) := by
  unfold Machine.openExclusive
  rw [text, valid]
  obtain ⟨e, failed⟩ := h (.one path)
    (if Path.endsInSlash path then .error .isDirectory else .ok ())
    (unmasked (grantedBits mode 0o7777) m.mask) (.file [])
  exact ⟨e, by simp only [bind, Except.bind, failed]⟩

/-- Where nothing can be made, or to a target that is no path, no link is created. -/
theorem symlink_refused (h : m.Refuses path ∨ ∃ e, Tree.checkPath target = .error e)
    (text : checkText path = .ok ()) (textOfTarget : checkText target = .ok ()) :
    ∃ e, m.symlink target path = .error (.system e) := by
  unfold Machine.symlink
  rw [text, textOfTarget]
  cases valid : Tree.checkPath target with
  | error e => exact ⟨_, rfl⟩
  | ok _ =>
    have refuses := h.resolve_right fun ⟨_, bad⟩ => by rw [valid] at bad; cases bad
    obtain ⟨e, failed⟩ := refuses (.two target path) (.ok ()) 0o777 (.link target)
    exact ⟨e, by simp only [bind, Except.bind, Except.mapError, failed]⟩

/-- A link is refused for its text only before the system looks at it. -/
theorem text_of_symlink (path : String)
    (done : ∀ e, m.symlink target path = .error e → ∃ e', e = .system e') :
    checkText target = .ok () := by
  cases text : checkText target with
  | ok _ => rfl
  | error e =>
    have failed : m.symlink target path = .error e := by
      unfold Machine.symlink
      rw [text]
      rfl
    obtain ⟨e', rfl⟩ := done e failed
    exact absurd text (checkText_ne_system target)

/-! ## The source side -/

theorem Node.status_mapEntries (g : List (String × Nat) → List (String × Nat)) (n : Node) :
    (n.mapEntries g).status = n.status := by
  unfold Node.mapEntries
  cases body : n.body <;> simp [Node.status, Node.typeBits, Node.size, body]

theorem targetOf_eq (m : Machine) (path : String) :
    m.targetOf path = (m.find false path).bind fun found =>
      match found.2.target? with
      | some target => .ok target
      | none => .error (refused path .invalidArgument) := by
  unfold targetOf
  cases m.find false path with
  | error e => rfl
  | ok found =>
    simp only [bind, Except.bind, Node.target?]
    cases found.2.body <;> rfl

/-- Whether names were added to a machine, and to nothing but the destination and what is below. -/
structure Filled (start : Machine) (home : Option Nat) (m : Machine) : Prop where
  since : Since start m
  grows : start.tree.Grows m.tree
  added : Program.AddedInside start.tree home m.tree

namespace Filled

variable (h : Filled start home m) (named : start.tree.Named)
include h named

/-- The directories of the source stay as they are. -/
theorem node?_eq (apart : start.tree.Apart origin home)
    (from_ : start.tree.FromSource origin home i) :
    m.tree.node? i = start.tree.node? i := by
  obtain ⟨n, here, dir⟩ := Tree.isDirectory_iff.mp from_.1
  obtain ⟨more, here', free⟩ := h.grows i n here
  have none : more = [] := by
    refine List.eq_nil_iff_forall_not_mem.mpr fun entry mem => ?_
    have absent := free entry mem
    obtain ⟨entries, own⟩ := Option.isSome_iff_exists.mp dir
    have listed : m.tree.entries? i = some (entries ++ more) := by
      simp [Tree.entries?, here', Node.mapEntries_entries?, own]
    -- the name would lead somewhere, and it did not at the start
    cases child : m.tree.child? i entry.1 with
    | some k =>
      rw [h.since.tree.child?_of_apart named apart h.added from_ child] at absent
      cases absent
    | none =>
      have missing : (entries ++ more).lookup entry.1 = none := by
        simpa [Tree.child?, listed] using child
      simpa using List.lookup_eq_none_iff.mp missing entry (List.mem_append_right _ mem)
  rw [here', here, none, Node.mapEntries_append_nil]

variable {source : String} {p : Place} {k : Nat} (h' : Filled start home f) (later : Since m f)
  (leads : m.tree.directoryAt m.current source = .ok p)
include h' later leads

/-- A directory of the source is found as it was. -/
theorem find_eq (apart : start.tree.Apart origin home)
    (from_ : start.tree.FromSource origin home p.node) :
    f.find true source = m.find true source := by
  have resolved := (Tree.directoryAt_eq_ok_iff.mp leads).1
  have resolved' := (Tree.directoryAt_eq_ok_iff.mp (later.directoryAt leads)).1
  unfold Machine.find Machine.resolve
  rw [resolved, resolved']
  cases checkText source with
  | error e => rfl
  | ok _ =>
    simp only [Except.mapError, bind, Except.bind]
    rw [h.node?_eq named apart from_, h'.node?_eq named apart from_]

/-- An entry of the source looks as it did. -/
theorem find_entry (full : source ≠ "") (own : Path.IsName name)
    (child : start.tree.child? p.node name = some k) :
    (∃ e, m.find false (Path.join source name) = .error e ∧
      f.find false (Path.join source name) = .error e) ∨
    ∃ n n', m.find false (Path.join source name) = .ok (k, n) ∧
      f.find false (Path.join source name) = .ok (k, n') ∧ n'.status = n.status ∧
        n'.target? = n.target? := by
  obtain ⟨n, here⟩ := Option.ne_none_iff_exists'.mp (named _ _ _ child)
  obtain ⟨more, here₁, _⟩ := h.grows k n here
  obtain ⟨more', here₂, _⟩ := h'.grows k n here
  have child₁ := h.since.tree.kept _ _ _ child
  have child₂ := h'.since.tree.kept _ _ _ child
  have leads' := later.directoryAt leads
  cases text : checkText (Path.join source name) with
  | error e =>
    refine .inl ⟨e, ?_, ?_⟩ <;> · unfold Machine.find Machine.resolve; rw [text]; rfl
  | ok _ =>
    rcases Program.shortBelow_or full own leads with short | ⟨nowhere, _⟩
    · have resolved := Tree.resolve_join full own short.1 short.2 leads child₁ (.inr rfl)
      have resolved' := Tree.resolve_join full own short.1 short.2 leads' child₂ (.inr rfl)
      exact .inr ⟨_, _, find_eq_ok text resolved here₁, find_eq_ok text resolved' here₂,
        by simp [Node.status_mapEntries], by simp⟩
    · rcases Program.shortBelow_or full own leads' with short | ⟨nowhere', _⟩
      · have resolved := Tree.resolve_join full own short.1 short.2 leads child₁ (.inr rfl)
        rw [nowhere] at resolved
        cases resolved
      · refine .inl ⟨refused (Path.join source name) .nameTooLong, ?_, ?_⟩
        · unfold Machine.find Machine.resolve
          rw [text, nowhere]
          rfl
        · unfold Machine.find Machine.resolve
          rw [text, nowhere']
          rfl

theorem statusOf_entry (full : source ≠ "") (own : Path.IsName name)
    (child : start.tree.child? p.node name = some k) :
    f.statusOf false (Path.join source name) = m.statusOf false (Path.join source name) := by
  rw [statusOf_eq, statusOf_eq]
  rcases h.find_entry named h' later leads full own child with
    ⟨e, found, found'⟩ | ⟨n, n', found, found', status, _⟩
  · rw [found, found']
  · rw [found, found']
    exact congrArg Except.ok status

theorem targetOf_entry (full : source ≠ "") (own : Path.IsName name)
    (child : start.tree.child? p.node name = some k) :
    f.targetOf (Path.join source name) = m.targetOf (Path.join source name) := by
  rw [targetOf_eq, targetOf_eq]
  rcases h.find_entry named h' later leads full own child with
    ⟨e, found, found'⟩ | ⟨n, n', found, found', _, target⟩
  · rw [found, found']
  · rw [found, found']
    simp only [Except.bind, target]

end Filled

end Machine

end HomeProvision
