import HomeProvision.Proofs.Untroubled

/-!
# Directories that are made

Making sure of a directory makes it, if its name is free, or changes nothing. A directory that is
made is empty, and it has the mode that was asked for, since no bit is masked (`Founded`). Its owner
is another matter: where owners can be set (`Giving`) it is the one that was asked for as well.

`ensureDirectory_founds` says this for every rule that grants what an untroubled machine does, and
leaves it to the rule what the change of the owner comes to. On an untroubled machine a directory is
made in any case (`ensureDirectory_tried`), and where owners can be set it is given away
(`ensureDirectory_gives`).
-/

namespace HomeProvision

open Machine

namespace Machine

/-- No change of an owner fails. -/
def GivesFreely (c : Call) (r : c.Reply) : Prop :=
  givesAway c = true → c.fault? r = none

/-- What may happen on an untroubled machine on which owners can be set. -/
def Giving : Rule Machine :=
  fun c m r m' => Untroubled c m r m' ∧ GivesFreely c r

/-- The bits of a directory that is made while no bit is masked. -/
theorem directoryBits_unmasked (m : Machine) (mode : Int) :
    ({ m with mask := 0 } : Machine).directoryBits mode = grantedBits mode 0o1777 := by
  change grantedBits mode 0o1777 &&& (0o7777 ^^^ (0 &&& 0o7777)) = _
  rw [show 0o7777 ^^^ (0 &&& 0o7777) = 0o7777 by decide]
  exact and_permissionMask (grantedBits_lt mode 0o1777)

end Machine

namespace Program

variable {α β : Type} {rule : Rule Machine} {f m m' : Machine} {directory name path : String}
  {fits : Node → Prop}

/-! ## Calls on an untroubled machine -/

/-- A call of a program that the machine answers. -/
theorem untroubled_call {c : Call} {next : c.Reply → Program α}
    {post : Except Fault α → Machine → Prop} (own : c.isForeign = false)
    (onward : (next (m.reply c).1).Meets Untroubled (fun _ _ => True) post (m.reply c).2) :
    (call c next).Meets Untroubled (fun _ _ => True) post m := by
  refine ⟨trivial, fun r m' step => ?_⟩
  obtain ⟨rfl, rfl⟩ := step.answer own
  exact onward

theorem untroubled_changed {e : Except Fault Machine} {post : Except Fault Unit → Machine → Prop}
    (done : ∀ m', e = .ok m' → post (.ok ()) m') (failed : ∀ g, e = .error g → post (.error g) m) :
    (ofExcept (m.changed e).1).Meets Untroubled (fun _ _ => True) post (m.changed e).2 := by
  cases e with
  | ok m' => exact done m' rfl
  | error g => exact failed g rfl

theorem untroubled_answered {e : Except Fault (α × Machine)}
    {post : Except Fault α → Machine → Prop} (done : ∀ a m', e = .ok (a, m') → post (.ok a) m')
    (failed : ∀ g, e = .error g → post (.error g) m) :
    (ofExcept (m.answered e).1).Meets Untroubled (fun _ _ => True) post (m.answered e).2 := by
  cases e with
  | ok result => exact done result.1 result.2 rfl
  | error g => exact failed g rfl

/-- A contract on untroubled machines holds under every rule that grants no more. -/
theorem Meets.granted {p : Program α} {post : Except Fault α → Machine → Prop}
    (h : p.Meets Untroubled (fun _ _ => True) post m)
    (within : ∀ c m r m', rule c m r m' → Untroubled c m r m') :
    p.Meets rule (fun _ _ => True) post m :=
  h.of_guarded fun _ _ _ _ _ step => within _ _ _ _ step

/-- A program with a known result in front of another one, under a rule that grants no more. -/
theorem Leaves.before {p : Program α} {k : α → Program β} {post : Except Fault β → Machine → Prop}
    {a : α} (first : p.Leaves m (· = .ok a))
    (within : ∀ c m r m', rule c m r m' → Untroubled c m r m')
    (onward : ∀ m', SameTree m m' → (k a).Meets rule (fun _ _ => True) post m') :
    (p.bind k).Meets rule (fun _ _ => True) post m :=
  (Meets.granted (first m (.refl m)) within).bind
    (fun _ m' reached => by obtain ⟨same, here⟩ := reached; cases here; exact onward m' same)
    fun _ _ bad => by cases bad.2

/-- What does not depend on anything but the tree is kept by a note. -/
theorem log_keeps {kept : Machine → Prop}
    (within : ∀ c m r m', rule c m r m' → Untroubled c m r m')
    (lasts : ∀ m m', SameTree m m' → kept m → kept m') (level : Level) (event : String)
    (about : List (String × Detail)) :
    (log level event about).Keeps rule (fun _ _ => True) kept :=
  fun m h => (Meets.granted (Leaves.log level event about m (.refl m)) within).mono
    fun _ m' reached => lasts m m' reached.1 h

/-! ## New directories -/

/-- Whether a directory has no entry of a name, and may get one. -/
def Free (m : Machine) (directory name : String) : Prop :=
  ∃ q, m.tree.directoryAt m.current directory = .ok q ∧ ShortBelow directory name ∧
    m.tree.child? q.node name = none

theorem Free.same (h : Free m directory name) (same : SameTree m m') : Free m' directory name := by
  unfold Free
  rw [same.tree, same.current]
  exact h

/-- Whether nothing has changed, since a name was not free. -/
def Kept (m : Machine) (directory name : String) (m' : Machine) : Prop :=
  SameTree m m' ∧ ¬ Free m directory name

theorem Kept.before (h : Kept m directory name m') (same : SameTree f m) :
    Kept f directory name m' :=
  ⟨same.trans h.1, fun free => h.2 (free.same same)⟩

theorem Kept.after (h : Kept m directory name m') (same : SameTree m' f) :
    Kept m directory name f :=
  ⟨h.1.trans same, h.2⟩

/-- Whether a directory was made under a free name, and fits. -/
def Founded (m : Machine) (directory name : String) (fits : Node → Prop) (m' : Machine) : Prop :=
  ∃ q n, Vacancy m.tree m.current directory name q ∧ Placed m.tree m.current q name n m' ∧
    n.body = .directory [] false ∧ fits n

namespace Founded

theorem before (h : Founded m directory name fits m') (same : SameTree f m) :
    Founded f directory name fits m' := by
  unfold Founded at h ⊢
  rw [same.tree, same.current] at h
  exact h

theorem after (h : Founded m directory name fits m') (same : SameTree m' f) :
    Founded m directory name fits f := by
  obtain ⟨q, n, v, placed, body, fit⟩ := h
  exact ⟨q, n, v, placed.same same.tree same.current, body, fit⟩

theorem made (h : Founded m directory name fits m') : m'.Made directory name := by
  obtain ⟨q, n, v, placed, body, _⟩ := h
  have dir := Tree.isDirectory_of_directoryAt v.leads
  have grows : m.tree.Grows m'.tree := by
    rw [placed.tree]
    exact .create (Tree.lt_of_isDirectory dir) v.free
  refine ⟨q, m.tree.nextPlace, ?_, v.short, ?_, ?_⟩
  · rw [placed.current]
    exact grows.directoryAt v.leads
  · rw [placed.tree]
    exact Tree.child?_create_new dir v.free
  · simp [Tree.entries?, placed.here v, Node.entries?, body]

variable {bits : Nat} (h : Founded m directory name (fun n => n.mode = bits) m')
include h

/-- A change of the owner that goes well changes that of the new directory. -/
theorem given {uid gid : Int} {m'' : Machine}
    (done : m'.chown true (Path.join directory name) uid gid = .ok m'') :
    Founded m directory name (Attributes.given uid gid bits).Fits m'' := by
  obtain ⟨q, n, v, placed, body, mode⟩ := h
  obtain ⟨i, above, leads, changed⟩ := chown_ok done
  have noLink : n.target? = none := by simp [Node.target?, body]
  rw [placed.leads v (.inl noLink)] at leads
  cases leads
  exact ⟨q, _, v, placed.changed v changed, body, Attributes.given_fits mode rfl rfl⟩

/-- Whatever becomes of its owner, a directory that was made stays. -/
theorem chown_stays (uid gid : Int) :
    (chown (Path.join directory name) uid gid).Meets Untroubled (fun _ _ => True)
      (fun _ => Founded m directory name fun n => n.mode = bits) m' := by
  refine untroubled_call rfl (untroubled_changed (fun m'' done => ?_) fun _ _ => h)
  obtain ⟨q, n, v, placed, body, fit, _⟩ := h.given done
  exact ⟨q, n, v, placed, body, fit⟩

theorem chown_gives (uid gid : Int) :
    (chown (Path.join directory name) uid gid).Meets Giving (fun _ _ => True)
      (fun _ => Founded m directory name (Attributes.given uid gid bits).Fits) m' := by
  refine ⟨trivial, fun r m'' step => ?_⟩
  obtain ⟨step, fair⟩ := step
  obtain ⟨rfl, rfl⟩ := step.answer rfl
  have fair := fair rfl
  change (ofExcept (m'.changed (m'.chown true _ uid gid)).1).Meets Giving _ _ _
  change faultOf (m'.changed (m'.chown true _ uid gid)).1 = none at fair
  change Meets _ _ _ _ (m'.changed (m'.chown true _ uid gid)).2
  cases done : m'.chown true (Path.join directory name) uid gid with
  | ok m'' => exact h.given done
  | error e => rw [done] at fair; cases fair

end Founded

section

variable (full : directory ≠ "") (own : Path.IsName name)
include full own

/-- A look at a free name. -/
theorem Free.statusOf (free : Free m directory name)
    (text : checkText (Path.join directory name) = .ok ()) (follow : Bool) :
    m.statusOf follow (Path.join directory name) =
      .error (refused (Path.join directory name) .noEntry) := by
  obtain ⟨q, leads, short, free⟩ := free
  have nowhere : m.tree.resolve m.current follow (Path.join directory name) = .error .noEntry :=
    Tree.resolve_join_none full own short.1 short.2 leads free
  rw [statusOf_eq]
  unfold find Machine.resolve
  rw [text, nowhere]
  rfl

theorem mkdir_founds (mode : Int) :
    (mkdir (Path.join directory name) mode).Meets Untroubled (fun _ _ => True)
      (fun out m' =>
        (∀ u, out = .ok u → Founded m directory name (·.mode = m.directoryBits mode) m') ∧
          ∀ e, out = .error (.system e) → Kept m directory name m') m := by
  refine untroubled_call rfl (untroubled_changed (fun m' done => ?_) fun g failed => ?_)
  · obtain ⟨s, made⟩ := mkdir_ok done
    refine ⟨fun _ _ => ?_, fun _ bad => by cases bad⟩
    obtain ⟨valid, size, _⟩ := Tree.spot_eq_ok made.spot
    obtain ⟨q, leads, rfl⟩ := Tree.directoryAt_of_spot_join full own.toIsComponent made.spot
    exact ⟨q, _, ⟨full, own, ⟨valid, size⟩, leads, made.free⟩, .of_created made, rfl, rfl⟩
  · refine ⟨fun _ bad => (by cases bad), fun e same => ⟨.refl m, fun free => ?_⟩⟩
    cases same
    obtain ⟨q, leads, short, free⟩ := free
    rcases bind_eq_error.mp failed with bad | ⟨_, _, failed⟩
    · exact checkText_ne_system _ bad
    rcases bind_eq_error.mp failed with bad | ⟨_, _, failed⟩
    · exact checkModeArgument_ne_system _ bad
    rw [createAt_free leads short free full own] at failed
    cases failed

/-- Making a directory: it is made, or nothing changes and the name was not free. -/
theorem createDirectory_founds (mode : Int) :
    (createDirectory (Path.join directory name) mode).Meets Untroubled (fun _ _ => True)
      (fun out m' => ∀ r, out = .ok r →
        (r = none ∧ Founded m directory name (·.mode = m.directoryBits mode) m') ∨
          (∃ result, r = some result) ∧ Kept m directory name m') m := by
  refine (mkdir_founds full own mode).either (fun _ m' made r same => ?_) fun e m' tried => ?_
  · cases same
    exact .inl ⟨rfl, made.1 _ rfl⟩
  · have kept := tried.2 e rfl
    dsimp only
    split <;>
    · refine (Leaves.log _ _ _).ahead fun m'' still r same => ?_
      cases same
      exact .inr ⟨⟨_, rfl⟩, kept.after still⟩

theorem withClearMask_founds (mode : Int) :
    (withClearMask (createDirectory (Path.join directory name) mode)).Meets Untroubled
      (fun _ _ => True)
      (fun out m' => ∀ r, out = .ok r →
        (r = none ∧ Founded m directory name (·.mode = grantedBits mode 0o1777) m') ∨
          (∃ result, r = some result) ∧ Kept m directory name m') m := by
  refine untroubled_call rfl ?_
  have cleared : SameTree m (m.reply (.umask 0)).2 := ⟨rfl, rfl⟩
  have founds := createDirectory_founds (m := (m.reply (.umask 0)).2) full own mode
  rw [show (m.reply (.umask 0)).2.directoryBits mode = grantedBits mode 0o1777 from
    directoryBits_unmasked m mode] at founds
  have founds := founds.mono fun _ _ founded r same => (founded r same).imp
    (And.imp_right fun h => h.before cleared) (And.imp_right fun kept => kept.before cleared)
  refine Meets.ensuring_lasting founds fun out m' founded => ?_
  have cleaned : ∀ mask, (umask mask >>= fun _ => pure () : Program Unit).Leaves m' fun _ => True :=
    fun mask => (Leaves.umask mask).bind (fun _ _ => .done trivial) fun _ _ => trivial
  refine (cleaned _ m' (.refl m')).mono fun _ m'' reached r same => ?_
  exact (founded r same).imp (And.imp_right fun h => h.after reached.1)
    (And.imp_right fun kept => kept.after reached.1)

section

variable (within : ∀ c m r m', rule c m r m' → Untroubled c m r m') {uid gid mode : Int}
  (gives : ∀ m', Founded m directory name (·.mode = grantedBits mode 0o1777) m' →
    (chown (Path.join directory name) uid gid).Meets rule (fun _ _ => True)
      (fun _ => Founded m directory name fits) m')
include within gives

theorem makeDirectory_founds :
    (makeDirectory (Path.join directory name) uid gid mode).Meets rule (fun _ _ => True)
      (fun out m' => ∀ result, out = .ok result →
        (result.success = true ∧ Founded m directory name fits m') ∨ Kept m directory name m')
      m := by
  refine ((withClearMask_founds full own mode).granted within).onward fun r m' reached => ?_
  rcases reached r rfl with ⟨rfl, founded⟩ | ⟨⟨result, rfl⟩, kept⟩
  · have noted : ∀ m'', Founded m directory name fits m'' → (log .debug "Directory created"
        [("path", .text (Path.join directory name)), ("mode", .text (Number.paddedOctal mode))] >>=
          fun _ => pure (StepResult.ok (some (Path.join directory name)))).Meets rule
        (fun _ _ => True) (fun out m' => ∀ result, out = .ok result →
          (result.success = true ∧ Founded m directory name fits m') ∨ Kept m directory name m')
        m'' := by
      refine fun m'' founded => (Leaves.log _ _ _).before within fun m₃ still result same => ?_
      cases same
      exact .inl ⟨rfl, founded.after still⟩
    refine (gives m' founded).either (fun _ m'' founded => noted m'' founded)
      fun e m'' founded => ?_
    exact (Leaves.log _ _ _).before within fun m₃ still => noted m₃ (founded.after still)
  · exact fun _ _ => .inr kept

theorem ensureDirectory_founds :
    (ensureDirectory (Path.join directory name) uid gid mode).Meets rule (fun _ _ => True)
      (fun out m' => ∀ result, out = .ok result →
        (result.success = true ∧ Founded m directory name fits m') ∨ Kept m directory name m')
      m := by
  refine Meets.either ((Leaves.stat (Path.join directory name) m (.refl m)).granted within)
    (fun status m' reached => ?_) fun e m' reached => ?_
  · obtain ⟨same, looked⟩ := reached
    refine (Leaves.log _ _ _).before within fun m'' still _ _ => ?_
    obtain ⟨_, found, _⟩ := bind_eq_ok.mp looked.symm
    refine .inr ⟨same.trans still, fun free => ?_⟩
    cases looked.trans (free.statusOf full own (find_valid found) true)
  · obtain ⟨same, looked⟩ := reached
    dsimp only
    split
    · refine (makeDirectory_founds full own within fun m'' founded => ?_).mono
        fun _ _ founded result here => (founded result here).imp
          (And.imp_right fun h => h.before same) fun kept => kept.before same
      exact (gives m'' (founded.before same)).mono fun _ _ h => h.before same.symm
    · next other =>
      refine (Leaves.log _ _ _).before within fun m'' still _ _ => ?_
      refine .inr ⟨same.trans still, fun free => ?_⟩
      cases looked.trans (free.statusOf full own (text_of_statusOf_error looked.symm) true)
      exact other rfl

end

/-- Making sure of a directory makes it, if its name is free, or changes nothing. -/
theorem ensureDirectory_tried (uid gid mode : Int) :
    (ensureDirectory (Path.join directory name) uid gid mode).Meets Untroubled (fun _ _ => True)
      (fun out m' => ∀ result, out = .ok result →
        (result.success = true ∧ m'.Made directory name) ∨ Kept m directory name m') m :=
  (ensureDirectory_founds full own (fun _ _ _ _ step => step)
    fun _ founded => founded.chown_stays uid gid).mono fun _ _ founded result same =>
      (founded result same).imp_left (And.imp_right Founded.made)

/-- Where owners can be set, a directory that is made is given to its owner. -/
theorem ensureDirectory_gives (uid gid mode : Int) :
    (ensureDirectory (Path.join directory name) uid gid mode).Meets Giving (fun _ _ => True)
      (fun out m' => ∀ result, out = .ok result → (result.success = true ∧ Founded m directory name
        (Attributes.given uid gid (grantedBits mode 0o1777)).Fits m') ∨ Kept m directory name m')
      m :=
  ensureDirectory_founds full own (fun _ _ _ _ step => step.1)
    fun _ founded => founded.chown_gives uid gid

end

end Program

end HomeProvision
