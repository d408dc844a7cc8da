import HomeProvision.Proofs.Below
import HomeProvision.Proofs.CallContract
import HomeProvision.Proofs.Trace

/-!
# Unhindered machines

A call is hindered when it fails for a reason that the tree knows nothing of: an argument that no
system takes, a name that is too long, or a missing right. On an unhindered machine a creation fails
exactly if the name is taken, and every other call does what the tree lets it do. One theorem for
each call says what that is.
-/

namespace HomeProvision

open Machine

/-! ## Replies -/

/-- Whether a fault says nothing about the tree. -/
def Fault.IsRefusal : Fault → Prop
  | .embeddedNul | .range _ => True
  | .system (.numbered e _) => e = .notPermitted ∨ e = .nameTooLong
  | _ => False

/-- Whether a reply fails only because a name is taken. -/
def FailsIfTaken {α : Type} (r : Except Fault α) : Prop :=
  ∀ f, r = .error f → ∃ names, f = .system (.numbered .alreadyExists names)

/-- Whether a reply is no refusal. -/
def NotRefused {α : Type} (r : Except Fault α) : Prop :=
  ∀ f, r = .error f → ¬ f.IsRefusal

/-- The replies to a call that nothing hinders. -/
def Call.Unhindered (c : Call) : c.Reply → Prop :=
  match c with
  | .mkdir _ _ | .openExclusive _ _ | .symlink _ _ => FailsIfTaken
  | .pause => fun r => ∃ a, r = .ok a
  | .lookupUser _ | .realUid | .effectiveUid | .effectiveGid | .log _ => fun _ => True
  | .stat _ | .lstat _ | .chown _ _ _ | .lchown _ _ _ | .chmod _ _ | .umask _ | .openRead _
  | .read _ _ | .write _ _ | .truncate _ _ | .close _ | .readlink _ | .list _ | .readFile _
  | .setEffectiveUid _ | .setEffectiveGid _ | .elevate | .relinquish => NotRefused

section

variable {α : Type}

/-- A property of the fault in a reply can be decided. -/
def decidableOnFault {P : Fault → Prop} [DecidablePred P] :
    (r : Except Fault α) → Decidable (∀ f, r = .error f → P f)
  | .ok _ => isTrue fun _ bad => nomatch bad
  | .error f => decidable_of_iff (P f) ⟨fun h _ same => Except.error.inj same ▸ h, fun h => h f rfl⟩

instance : DecidablePred Fault.IsRefusal
  | .embeddedNul | .range _ => isTrue trivial
  | .system (.numbered e _) => inferInstanceAs (Decidable (e = .notPermitted ∨ e = .nameTooLong))
  | .system (.bare _) | .settings _ | .invalid _ | .blank _ | .thrown _ _ | .limit => isFalse id

instance : DecidablePred fun f : Fault => ∃ names, f = .system (.numbered .alreadyExists names)
  | .system (.numbered e names) =>
      decidable_of_iff (e = .alreadyExists)
        ⟨fun h => ⟨names, h ▸ rfl⟩, fun ⟨_, h⟩ => by cases h; rfl⟩
  | .embeddedNul | .range _ | .system (.bare _) | .settings _ | .invalid _ | .blank _ | .thrown _ _
  | .limit => isFalse fun ⟨_, h⟩ => nomatch h

instance (r : Except Fault α) : Decidable (FailsIfTaken r) :=
  decidableOnFault r

instance (r : Except Fault α) : Decidable (NotRefused r) :=
  decidableOnFault r

instance (c : Call) (r : c.Reply) : Decidable (c.Unhindered r) :=
  match c, r with
  | .mkdir _ _, r => inferInstanceAs (Decidable (FailsIfTaken r))
  | .openExclusive _ _, r => inferInstanceAs (Decidable (FailsIfTaken r))
  | .symlink _ _, r => inferInstanceAs (Decidable (FailsIfTaken r))
  | .pause, .ok a => isTrue ⟨a, rfl⟩
  | .pause, .error _ => isFalse fun ⟨_, h⟩ => nomatch h
  | .lookupUser _, _ | .realUid, _ | .effectiveUid, _ | .effectiveGid, _ | .log _, _ => isTrue trivial
  | .stat _, r => inferInstanceAs (Decidable (NotRefused r))
  | .lstat _, r => inferInstanceAs (Decidable (NotRefused r))
  | .chown _ _ _, r | .lchown _ _ _, r | .chmod _ _, r | .truncate _ _, r | .close _, r =>
      inferInstanceAs (Decidable (NotRefused r))
  | .umask _, r | .openRead _, r | .write _ _, r => inferInstanceAs (Decidable (NotRefused r))
  | .read _ _, r | .readFile _, r => inferInstanceAs (Decidable (NotRefused r))
  | .readlink _, r => inferInstanceAs (Decidable (NotRefused r))
  | .list _, r => inferInstanceAs (Decidable (NotRefused r))
  | .setEffectiveUid _, r | .setEffectiveGid _, r | .elevate, r | .relinquish, r =>
      inferInstanceAs (Decidable (NotRefused r))

end

/-- What may happen on an unhindered machine. Only the hook does as it likes, and changes no file.
-/
def Smooth : Rule Machine :=
  fun c m r m' => Disturbed (fun _ => True) c m r m' ∧ c.Unhindered r

/-- Whether the path of a name in a directory is short enough, and the name is. -/
def ShortBelow (directory name : String) : Prop :=
  Tree.checkPath (Path.join directory name) = .ok () ∧ name.utf8ByteSize ≤ nameLimit

/-! ## Refusals -/

/-- Whether a computation fails with refusals only. -/
def OnlyRefuses {α : Type} (r : Except Fault α) : Prop :=
  ∀ f, r = .error f → f.IsRefusal

namespace OnlyRefuses

variable {α β : Type}

theorem ok (a : α) : OnlyRefuses (.ok a : Except Fault α) :=
  fun _ bad => by cases bad

theorem bind {r : Except Fault α} {k : α → Except Fault β} (first : OnlyRefuses r)
    (onward : ∀ a, r = .ok a → OnlyRefuses (k a)) : OnlyRefuses (r >>= k) := by
  intro f failed
  cases r with
  | ok a => exact onward a rfl f failed
  | error g => cases failed; exact first f rfl

theorem checkText (text : String) : OnlyRefuses (checkText text) := by
  intro f failed
  unfold Machine.checkText at failed
  split at failed <;> cases failed
  trivial

theorem checkModeArgument (mode : Int) : OnlyRefuses (checkModeArgument mode) := by
  intro f failed
  unfold Machine.checkModeArgument at failed
  split at failed <;> cases failed
  trivial

theorem checkId (group : Bool) (n : Int) : OnlyRefuses (checkId group n) := by
  intro f failed
  unfold Machine.checkId at failed
  split at failed
  · cases failed
    trivial
  · split at failed <;> cases failed
    trivial

variable {m : Machine} {path : String} {follow : Bool} {i : Nat} {n : Node}

theorem find {above : List Nat} (leads : m.tree.resolve m.current follow path = .ok ⟨i, above⟩)
    (here : m.tree.node? i = some n) : OnlyRefuses (m.find follow path) := by
  intro f failed
  cases valid : Machine.checkText path with
  | error g =>
    unfold Machine.find Machine.resolve at failed
    rw [valid] at failed
    cases failed
    exact OnlyRefuses.checkText path _ valid
  | ok _ =>
    unfold Machine.find Machine.resolve at failed
    rw [valid, leads] at failed
    simp only [Bind.bind, Except.bind, Except.mapError, here] at failed
    cases failed

/-- What is found at a path that leads to a node. -/
theorem find_ok {above : List Nat} (leads : m.tree.resolve m.current follow path = .ok ⟨i, above⟩)
    (here : m.tree.node? i = some n) {found : Nat × Node} (done : m.find follow path = .ok found) :
    found = (i, n) := by
  obtain ⟨⟨above', leads'⟩, here'⟩ := Machine.find_ok done
  rw [leads] at leads'
  cases leads'
  rw [here] at here'
  cases here'
  rfl

/-- A refusal that is none has not happened. -/
theorem granted {r : Except Fault α} (h : OnlyRefuses r) (fair : NotRefused r) :
    ∃ a, r = .ok a := by
  cases r with
  | ok a => exact ⟨a, rfl⟩
  | error f => exact absurd (h f rfl) (fair f rfl)

end OnlyRefuses

/-! ## Programs on unhindered machines -/

namespace Program

variable {α β σ : Type} {m : Machine} {path : String} {follow : Bool} {i : Nat} {n : Node}

/-- Whether the run of a program on an unhindered machine ends as it should. -/
abbrev Does (p : Program α) (post : Except Fault α → Machine → Prop) (m : Machine) : Prop :=
  p.Meets Smooth (fun _ _ => True) post m

/-- A run, all of whose replies are allowed, ends as it does where only these may be given. -/
theorem Meets.run_of_trace {τ : Type} {world : Layer σ} {rule : Rule τ} {view : σ → τ}
    {allowed : (c : Call) → c.Reply → Prop} {guard : Call → τ → Prop}
    (keeps : world.KeepsTo rule view) {p : Program α} {post : Except Fault α → τ → Prop} {s : σ}
    (fair : ∀ x ∈ p.trace world s, allowed x.call x.reply)
    (h : p.Meets (fun c s r s' => rule c s r s' ∧ allowed c r) guard post (view s)) :
    post (p.run world s).1 (view (p.run world s).2) := by
  induction p generalizing s with
  | done a => exact h
  | raise f => exact h
  | call c next ih =>
    have first := fair ⟨c, (world.reply c s).1⟩ List.mem_cons_self
    exact ih _ (fun x mem => fair x (List.mem_cons_of_mem _ mem)) (h.2 _ _ ⟨keeps c s, first⟩)

theorem does_call {c : Call} {next : c.Reply → Program α} {post : Except Fault α → Machine → Prop}
    (own : c.isForeign = false)
    (onward : c.Unhindered (m.reply c).1 → (next (m.reply c).1).Does post (m.reply c).2) :
    (call c next).Does post m := by
  refine ⟨trivial, fun r m' step => ?_⟩
  obtain ⟨step, fair⟩ := step
  cases step with
  | answered => exact onward fair
  | failed _ exposed => exact absurd trivial exposed
  | foreign _ foreign => rw [own] at foreign; cases foreign

theorem does_log {post : Except Fault Unit → Machine → Prop} {level : Level} {event : String}
    {details : List (String × Detail)} (done : post (.ok ()) m) :
    (log level event details).Does post m :=
  does_call rfl fun _ => done

theorem does_umask {post : Except Fault Int → Machine → Prop} {mask : Int}
    (done : ∀ a, post (.ok a) { m with mask := grantedBits mask 0o777 }) :
    (umask mask).Does post m :=
  does_call rfl fun _ => done _

/-! ## Calls that look -/

/-- What a node shows is shown at each path that leads to it. -/
theorem find_shows {above : List Nat} {look : Nat × Node → Except Fault α} {a : α}
    (leads : m.tree.resolve m.current follow path = .ok ⟨i, above⟩)
    (here : m.tree.node? i = some n) (shows : look (i, n) = .ok a)
    (fair : NotRefused (m.find follow path >>= look)) : (m.find follow path >>= look) = .ok a := by
  have refuses : OnlyRefuses (m.find follow path >>= look) := by
    refine (OnlyRefuses.find leads here).bind fun found same => ?_
    rw [OnlyRefuses.find_ok leads here same, shows]
    exact .ok _
  obtain ⟨_, done⟩ := refuses.granted fair
  obtain ⟨found, same, own⟩ := bind_eq_ok.mp done
  rw [OnlyRefuses.find_ok leads here same, shows] at own
  cases own
  exact done

theorem does_statusOf {above : List Nat}
    (leads : m.tree.resolve m.current follow path = .ok ⟨i, above⟩)
    (here : m.tree.node? i = some n) (fair : NotRefused (m.statusOf follow path)) :
    m.statusOf follow path = .ok n.status :=
  find_shows leads here rfl fair

theorem does_stat {post : Except Fault Status → Machine → Prop} {above : List Nat}
    (leads : m.tree.resolve m.current true path = .ok ⟨i, above⟩)
    (here : m.tree.node? i = some n) (done : post (.ok n.status) m) : (stat path).Does post m := by
  refine does_call rfl fun fair => ?_
  change (ofExcept (m.statusOf true path)).Does post m
  rw [does_statusOf leads here fair]
  exact done

theorem does_readlink {post : Except Fault String → Machine → Prop} {above : List Nat}
    {target : String} (leads : m.tree.resolve m.current false path = .ok ⟨i, above⟩)
    (here : m.tree.node? i = some n) (body : n.body = .link target) (done : post (.ok target) m) :
    (readlink path).Does post m := by
  refine does_call rfl fun fair => ?_
  have read : m.targetOf path = .ok target := find_shows leads here (by dsimp only; rw [body]; rfl) fair
  change (ofExcept (m.targetOf path)).Does post m
  rw [read]
  exact done

/-- The names that a directory shows when it is listed. -/
def listedNames (entries : List (String × Nat)) (dots : Bool) : List String :=
  (if dots then [".", ".."] else []) ++ entries.map (·.1)

theorem does_list {post : Except Fault (List String) → Machine → Prop} {above : List Nat}
    {entries : List (String × Nat)} {dots : Bool}
    (leads : m.tree.resolve m.current true path = .ok ⟨i, above⟩)
    (here : m.tree.node? i = some n) (body : n.body = .directory entries dots)
    (done : post (.ok (listedNames entries dots)) m) : (list path).Does post m := by
  refine does_call rfl fun fair => ?_
  have read : m.namesOf path = .ok (listedNames entries dots) :=
    find_shows leads here (by dsimp only; rw [body]; rfl) fair
  change (ofExcept (m.namesOf path)).Does post m
  rw [read]
  exact done

/-! ## Paths below a directory -/

section

variable {directory name : String} {q : Place} (full : directory ≠ "") (own : Path.IsName name)
  (leads : m.tree.directoryAt m.current directory = .ok q)
include full own leads

/-- A path below a directory is short enough, or it leads nowhere because it is too long. -/
theorem shortBelow_or :
    ShortBelow directory name ∨
      (∀ follow, m.tree.resolve m.current follow (Path.join directory name) = .error .nameTooLong) ∧
        m.tree.spot m.current (Path.join directory name) = .error .nameTooLong := by
  have named : Path.join directory name ≠ "" := Path.join_ne_empty own.toIsComponent
  rcases Nat.lt_or_ge (Path.join directory name).utf8ByteSize pathLimit with fits | long
  · have valid : Tree.checkPath (Path.join directory name) = .ok () := by
      unfold Tree.checkPath
      rw [if_neg named, if_neg (Nat.not_le.mpr fits)]
    rcases Nat.lt_or_ge nameLimit name.utf8ByteSize with long | short
    · refine .inr ⟨fun follow => Tree.resolve_join_long full own valid long leads, ?_⟩
      exact Tree.spot_join_long full own valid long leads
    · exact .inl ⟨valid, short⟩
  · have refused : Tree.checkPath (Path.join directory name) = .error .nameTooLong := by
      unfold Tree.checkPath
      rw [if_neg named, if_pos long]
    refine .inr ⟨fun follow => ?_, ?_⟩
    · unfold Tree.resolve
      rw [refused]
      rfl
    · unfold Tree.spot
      rw [refused]
      rfl

/-- A look that is no refusal shows that the path is short enough. -/
theorem shortBelow_of_notRefused
    (fair : NotRefused (m.statusOf follow (Path.join directory name))) :
    ShortBelow directory name := by
  rcases shortBelow_or full own leads with short | ⟨long, _⟩
  · exact short
  · cases valid : checkText (Path.join directory name) with
    | error f =>
      refine absurd (OnlyRefuses.checkText _ f valid) (fair f ?_)
      unfold statusOf find resolve
      rw [valid]
      rfl
    | ok _ =>
      refine absurd (.inr rfl) (fair (refused (Path.join directory name) .nameTooLong) ?_)
      unfold statusOf find resolve
      rw [valid, long]
      rfl

theorem does_lstat_join {post : Except Fault Status → Machine → Prop}
    (found : m.tree.child? q.node name = some i) (here : m.tree.node? i = some n)
    (done : ShortBelow directory name → post (.ok n.status) m) :
    (lstat (Path.join directory name)).Does post m := by
  refine does_call rfl fun fair => ?_
  have short := shortBelow_of_notRefused full own leads fair
  have leads := Tree.resolve_join full own short.1 short.2 leads found (.inr rfl)
  change (ofExcept (m.statusOf false _)).Does post m
  rw [does_statusOf leads here fair]
  exact done short

theorem statusOf_join_none (free : m.tree.child? q.node name = none)
    (fair : NotRefused (m.statusOf follow (Path.join directory name))) :
    m.statusOf follow (Path.join directory name) =
      .error (refused (Path.join directory name) .noEntry) := by
  have short := shortBelow_of_notRefused full own leads fair
  have nowhere : m.tree.resolve m.current follow (Path.join directory name) = .error .noEntry :=
    Tree.resolve_join_none full own short.1 short.2 leads free
  cases valid : checkText (Path.join directory name) with
  | error f =>
    refine absurd (OnlyRefuses.checkText _ f valid) (fair f ?_)
    unfold statusOf find resolve
    rw [valid]
    rfl
  | ok _ =>
    unfold statusOf find resolve
    rw [valid, nowhere]
    rfl

theorem does_lstat_join_none {post : Except Fault Status → Machine → Prop}
    (free : m.tree.child? q.node name = none)
    (done : ShortBelow directory name →
      post (.error (refused (Path.join directory name) .noEntry)) m) :
    (lstat (Path.join directory name)).Does post m := by
  refine does_call rfl fun fair => ?_
  have short := shortBelow_of_notRefused full own leads fair
  change (ofExcept (m.statusOf false _)).Does post m
  rw [statusOf_join_none full own leads free fair]
  exact done short

theorem does_stat_join_none {post : Except Fault Status → Machine → Prop}
    (free : m.tree.child? q.node name = none)
    (done : post (.error (refused (Path.join directory name) .noEntry)) m) :
    (stat (Path.join directory name)).Does post m := by
  refine does_call rfl fun fair => ?_
  change (ofExcept (m.statusOf true _)).Does post m
  rw [statusOf_join_none full own leads free fair]
  exact done

end

end Program

end HomeProvision
