import HomeProvision.Proofs.Parts
import HomeProvision.Proofs.Piecemeal
import HomeProvision.Proofs.Watched

/-!
# Files copied while others are at work

The directory that a file is copied into may belong to somebody else already, who renames, removes
and replaces what is in it between any two calls (`Raced`). The new file is made under a free name,
and its content is written through its descriptor, so that neither can reach anything else. But it is
cut, given away and given its mode by its path, and the system follows that to whatever is there by
then.

`copyFile_alters` says of every moment of a copy which nodes its call can change: those that the copy
itself has made, and for the three calls by path the node that the path leads to just then. So a name
that is left alone is all that protects other files, and `copyFile_alters_planted` shows a run in
which it is not left alone: the copy is reported as complete, but another file was emptied and given
away.
-/

namespace HomeProvision

/-- The path of a call that changes whatever the path leads to. -/
def Call.altersAt? : Call → Option String
  | .chown path _ _ | .chmod path _ | .truncate path _ => some path
  | _ => none

/-- Whether a call may hand out a descriptor or take one away. -/
def Call.handsOut : Call → Bool
  | .openRead _ | .openExclusive _ _ | .close _ => true
  | _ => false

/-- The node that a call has made, if it is one that makes a file. -/
def Moment.made? (x : Moment Machine) : Option Nat :=
  match x with
  | ⟨⟨.openExclusive _ _, .ok _⟩, m⟩ => some m.tree.nextPlace
  | _ => none

theorem foldl_made (before : List (Moment Machine)) (made : List Nat) :
    before.foldl (fun made x => made ++ x.made?.toList) made =
      made ++ before.filterMap Moment.made? := by
  induction before generalizing made with
  | nil => exact (List.append_nil made).symm
  | cons x before ih =>
    rw [List.foldl_cons, ih, List.append_assoc, List.filterMap_cons]
    cases x.made? <;> rfl

namespace Machine

variable {m m₁ m' : Machine} {c : Call} {r : c.Reply} {path : String} {i k : Nat}

/-! ## What others may do -/

/-- What others may do to a machine: anything in its tree. They cannot touch a descriptor. -/
structure Meddled (m m' : Machine) : Prop where
  descriptors : m'.descriptors = m.descriptors

/-- What may happen to a machine at one call of a process that is not alone. Others are at work after
the call, and the hook is one of them. -/
inductive Raced : (c : Call) → Machine → c.Reply → Machine → Prop
  | called {c : Call} {m m₁ m' : Machine} {r : c.Reply} (own : Piecemeal c m r m₁)
      (others : Meddled m₁ m') : Raced c m r m'
  | paused {m m' : Machine} (r : Except Fault Unit) (others : Meddled m m') : Raced .pause m r m'

/-! ## What a call changes -/

/-- A node without the names in it. -/
def Node.bare (n : Node) : Node :=
  n.mapEntries fun _ => []

theorem Node.bare_mapEntries (f : List (String × Nat) → List (String × Nat)) (n : Node) :
    (n.mapEntries f).bare = n.bare :=
  Node.mapEntries_mapEntries n _ _

/-- Whether the node at a place is another one afterwards, apart from the names in it. -/
def Alters (m m' : Machine) (i : Nat) : Prop :=
  ∃ n, m.tree.node? i = some n ∧ (m'.tree.node? i).map Node.bare ≠ some n.bare

theorem not_alters (same : m'.tree = m.tree) : ¬ Alters m m' i := by
  rintro ⟨n, here, other⟩
  rw [same, here] at other
  exact other rfl

/-- A new node changes no other one. -/
theorem Created.not_alters {bits : Nat} {body : Body} {s : Tree.Spot}
    (made : Created m path bits body s m') : ¬ Alters m m' i := by
  rintro ⟨n, here, other⟩
  have old : i ≠ m.tree.nextPlace := Nat.ne_of_lt (Tree.lt_of_node? here)
  rw [made.tree, Tree.node?_create (Tree.lt_of_isDirectory made.isDirectory), if_neg old] at other
  split at other
  · next inside =>
    subst inside
    rw [here, Option.map_some, Option.map_some, Node.bare_mapEntries] at other
    exact other rfl
  · rw [here] at other
    exact other rfl

theorem Changed.alters {f : Node → Node} (changed : Changed m k f m') (alters : Alters m m' i) :
    i = k := by
  obtain ⟨n, here, other⟩ := alters
  by_contra apart
  rw [changed.tree, Tree.node?_modify_ne f apart, here] at other
  exact other rfl

/-- What a call by path changes is what the path leads to. -/
theorem alters_changed {e : Except Fault Machine} {f : Node → Node}
    (edits : ∀ m', e = .ok m' → ∃ k above, m.tree.resolve m.current true path = .ok ⟨k, above⟩ ∧
      Changed m k f m') (alters : Alters m (m.changed e).2 i) :
    ∃ above, m.tree.resolve m.current true path = .ok ⟨i, above⟩ := by
  cases e with
  | error f => exact absurd alters (not_alters rfl)
  | ok m' =>
    obtain ⟨k, above, leads, changed⟩ := edits m' rfl
    rw [changed.alters alters]
    exact ⟨above, leads⟩

theorem Piecemeal.alters_path (step : Piecemeal c m r m') (own : c.altersAt? = some path)
    (alters : Alters m m' i) : ∃ above, m.tree.resolve m.current true path = .ok ⟨i, above⟩ := by
  cases step with
  | failed => exact absurd alters (not_alters rfl)
  | readLess | wroteLess | paused => cases own
  | answered =>
    cases c with
    | chown =>
      cases own
      exact alters_changed (fun _ => chown_ok) alters
    | chmod =>
      cases own
      exact alters_changed (fun _ => chmod_ok) alters
    | truncate =>
      cases own
      exact alters_changed (fun _ => truncate_ok) alters
    | _ => cases own

/-- What a write changes is the file of its descriptor. -/
theorem alters_write {number : Int} {bytes : List UInt8}
    (alters : Alters m (m.answered (m.write number bytes)).2 i) :
    ∃ d, m.descriptor? number = some d ∧ d.node = i := by
  cases done : m.write number bytes with
  | error f =>
    rw [done] at alters
    exact absurd alters (not_alters rfl)
  | ok result =>
    rw [done] at alters
    obtain ⟨d, found, _, changed⟩ := write_ok done
    exact ⟨d, openFile_eq_ok.mp found, (changed.alters alters).symm⟩

theorem Piecemeal.alters_write {number : Int} {bytes : List UInt8} {r : Except Fault Int}
    (step : Piecemeal (.write number bytes) m r m') (alters : Alters m m' i) :
    ∃ d, m.descriptor? number = some d ∧ d.node = i := by
  cases step with
  | failed => exact absurd alters (not_alters rfl)
  | answered => exact Machine.alters_write alters
  | wroteLess => exact Machine.alters_write alters

/-- Making a file changes no node that was there. -/
theorem Piecemeal.not_alters_openExclusive {mode : Int} {r : Except Fault Int}
    (step : Piecemeal (.openExclusive path mode) m r m') : ¬ Alters m m' i := by
  cases step with
  | failed => exact not_alters rfl
  | answered =>
    change ¬ Alters m (m.answered (m.openExclusive path mode)).2 i
    cases done : m.openExclusive path mode with
    | error f => exact not_alters rfl
    | ok result =>
      obtain ⟨number, m'⟩ := result
      obtain ⟨_, s, created, made, opened⟩ := openExclusive_ok done
      cases opened
      exact made.not_alters

theorem Piecemeal.not_alters (step : Piecemeal c m r m') (quiet : c.changesTree = false) :
    ¬ Alters m m' i :=
  Machine.not_alters (step.sameTree fun changes => by rw [quiet] at changes; cases changes)

/-! ## Descriptors -/

/-- The file that a descriptor belongs to. -/
def fileOf? (m : Machine) (number : Int) : Option Nat :=
  (m.descriptor? number).map Descriptor.node

theorem fileOf?_congr (same : m'.descriptors = m.descriptors) (number : Int) :
    m'.fileOf? number = m.fileOf? number := by
  unfold fileOf? descriptor?
  rw [same]

theorem fileOf?_changed {e : Except Fault Machine}
    (same : ∀ m', e = .ok m' → m'.descriptors = m.descriptors) (number : Int) :
    (m.changed e).2.fileOf? number = m.fileOf? number := by
  cases e with
  | ok m' => exact fileOf?_congr (same m' rfl) number
  | error f => rfl

theorem fileOf?_read (number size other : Int) :
    (m.answered (m.read number size)).2.fileOf? other = m.fileOf? other := by
  cases done : m.read number size with
  | ok result => exact (read_ok done).2.2 other
  | error f => rfl

theorem fileOf?_write (number : Int) (bytes : List UInt8) (other : Int) :
    (m.answered (m.write number bytes)).2.fileOf? other = m.fileOf? other := by
  cases done : m.write number bytes with
  | error f => rfl
  | ok result =>
    obtain ⟨_, _, _, changed⟩ := write_ok done
    exact fileOf?_congr changed.descriptors other

/-- A descriptor belongs to the same file until it is given back. -/
theorem Piecemeal.fileOf? (step : Piecemeal c m r m') (keeps : c.handsOut = false) (number : Int) :
    m'.fileOf? number = m.fileOf? number := by
  cases step with
  | failed => rfl
  | paused same => exact fileOf?_congr same.descriptors number
  | readLess less => exact fileOf?_read _ _ number
  | wroteLess less => exact fileOf?_write _ _ number
  | answered =>
    cases c with
    | openRead | openExclusive | close => cases keeps
    | read => exact fileOf?_read _ _ number
    | write => exact fileOf?_write _ _ number
    | mkdir =>
      refine fileOf?_changed (fun _ done => ?_) number
      obtain ⟨_, made⟩ := mkdir_ok done
      exact made.descriptors
    | symlink =>
      refine fileOf?_changed (fun _ done => ?_) number
      obtain ⟨_, _, made⟩ := symlink_ok done
      exact made.descriptors
    | chown | lchown =>
      refine fileOf?_changed (fun _ done => ?_) number
      obtain ⟨_, _, _, changed⟩ := chown_ok done
      exact changed.descriptors
    | chmod =>
      refine fileOf?_changed (fun _ done => ?_) number
      obtain ⟨_, _, _, changed⟩ := chmod_ok done
      exact changed.descriptors
    | truncate =>
      refine fileOf?_changed (fun _ done => ?_) number
      obtain ⟨_, _, _, changed⟩ := truncate_ok done
      exact changed.descriptors
    | _ =>
      exact fileOf?_congr (Program.sameFiles_of_disturbed
        (.answered _ m : Disturbed (fun _ => True) _ m _ _) rfl rfl).descriptors number

/-- The descriptor of a file that was just made. -/
theorem Piecemeal.fileOf?_openExclusive {mode number : Int}
    (step : Piecemeal (.openExclusive path mode) m (.ok number) m') :
    m'.fileOf? number = some m.tree.nextPlace := by
  generalize same : (Except.ok number : Except Fault Int) = r at step
  cases step with
  | failed _ _ fails =>
    subst same
    cases fails
  | answered =>
    change (m.answered (m.openExclusive path mode)).2.fileOf? number = _
    change _ = (m.answered (m.openExclusive path mode)).1 at same
    cases done : m.openExclusive path mode with
    | error f =>
      rw [done] at same
      cases same
    | ok result =>
      rw [done] at same
      obtain ⟨number', m'⟩ := result
      cases same
      obtain ⟨_, s, created, made, opened⟩ := openExclusive_ok done
      cases opened
      exact congrArg (Option.map Descriptor.node) (created.descriptor?_opened path m.tree.nextPlace)

end Machine

namespace Program

open Machine

/-! ## Copies under a race -/

/-- A world with others at work, and the nodes that the process has made. -/
def Racing : Rule (Machine × List Nat) :=
  Rule.watched Raced (fun _ _ => True) fun made x => made ++ x.made?.toList

/-- Whether a call can change only what was made, or by the path of the copy what that leads to. -/
def Spares (path : String) (c : Call) (s : Machine × List Nat) : Prop :=
  ∀ r m' i, Piecemeal c s.1 r m' → Alters s.1 m' i → i ∈ s.2 ∨
    c.altersAt? = some path ∧ ∃ above, s.1.tree.resolve s.1.current true path = .ok ⟨i, above⟩

/-- Whether a descriptor belongs to a file that was made. -/
def Owns (number : Int) (s : Machine × List Nat) : Prop :=
  ∃ i ∈ s.2, s.1.fileOf? number = some i

variable {path source : String} {c : Call}

theorem spares_quiet (quiet : c.changesTree = false) (s : Machine × List Nat) : Spares path c s :=
  fun _ _ _ step alters => absurd alters (step.not_alters quiet)

theorem spares_path (own : c.altersAt? = some path) (s : Machine × List Nat) : Spares path c s :=
  fun _ _ _ step alters => .inr ⟨own, step.alters_path own alters⟩

theorem spares_write {number : Int} {s : Machine × List Nat} (owns : Owns number s)
    (bytes : List UInt8) : Spares path (.write number bytes) s := by
  intro r m' i step alters
  obtain ⟨k, mem, own⟩ := owns
  obtain ⟨d, found, rfl⟩ := step.alters_write alters
  unfold fileOf? at own
  rw [found] at own
  cases own
  exact .inl mem

variable {α : Type} {next : c.Reply → Program α} {number : Int}

/-- What was made stays so, and a descriptor belongs to it until it is given back. -/
theorem Owns.step {s s' : Machine × List Nat} {r : c.Reply} (owns : Owns number s)
    (keeps : c.handsOut = false) (step : Racing c s r s') : Owns number s' := by
  obtain ⟨i, mem, own⟩ := owns
  obtain ⟨⟨raced, _⟩, noted⟩ := step
  refine ⟨i, noted ▸ List.mem_append_left _ mem, ?_⟩
  cases raced with
  | called first others =>
    rw [fileOf?_congr others.descriptors, first.fileOf? keeps]
    exact own
  | paused _ others =>
    rw [fileOf?_congr others.descriptors]
    exact own

theorem keeps_owns (keeps : c.handsOut = false)
    (allowed : ∀ s, Owns number s → Spares path c s)
    (onward : ∀ r, (next r).Keeps Racing (Spares path) (Owns number)) :
    (call c next).Keeps Racing (Spares path) (Owns number) :=
  fun s owns => ⟨allowed s owns, fun r s' step => onward r s' (owns.step keeps step)⟩

/-- A call before and after which nothing has to be known. -/
theorem keeps_spared (allowed : ∀ s, Spares path c s)
    (onward : ∀ r, (next r).Keeps Racing (Spares path) fun _ => True) :
    (call c next).Keeps Racing (Spares path) fun _ => True :=
  fun s _ => ⟨allowed s, fun r s' _ => onward r s' trivial⟩

/-- A file that was just made is owned. -/
theorem meets_openExclusive_owns (s : Machine × List Nat) :
    (openExclusive path).Meets Racing (Spares path) (Gains (fun _ => True) Owns) s := by
  refine ⟨fun _ _ _ step alters => absurd alters step.not_alters_openExclusive, fun r s' step => ?_⟩
  refine meets_ofExcept.mpr ⟨trivial, ?_⟩
  rintro number rfl
  obtain ⟨⟨raced, _⟩, noted⟩ := step
  refine ⟨s.1.tree.nextPlace, noted ▸ List.mem_append_right _ List.mem_cons_self, ?_⟩
  cases raced with
  | called first others =>
    rw [fileOf?_congr others.descriptors]
    exact first.fileOf?_openExclusive

theorem copyCalls_racing (mode : Int) :
    CopyCalls Racing (Spares path) (fun _ => True) Owns source path mode where
  note := fun _ _ _ => keeps_spared (spares_quiet rfl) fun _ => .done _
  openRead := keeps_spared (spares_quiet rfl) .ofExcept
  close := fun _ => keeps_spared (spares_quiet rfl) .ofExcept
  openExclusive := fun s _ => meets_openExclusive_owns s
  file := fun _ _ =>
    { note := fun _ _ _ => keeps_owns rfl (fun s _ => spares_quiet rfl s) fun _ => .done _
      chown := fun _ _ => keeps_owns rfl (fun s _ => spares_path rfl s) .ofExcept
      chmod := keeps_owns rfl (fun s _ => spares_path rfl s) .ofExcept
      read := fun _ => keeps_owns rfl (fun s _ => spares_quiet rfl s) .ofExcept
      write := fun bytes => keeps_owns rfl (fun _ owns => spares_write owns bytes) .ofExcept
      pause := keeps_owns rfl (fun s _ => spares_quiet rfl s) .ofExcept
      truncate := keeps_owns rfl (fun s _ => spares_path rfl s) .ofExcept }
  leave := fun _ _ _ => trivial

/-- A call of a copy changes a node that the copy has made, or it goes by the path of the copy and
changes the node that this leads to by then. -/
theorem copyFile_alters {σ : Type} {world : Layer σ} {view : σ → Machine} {s : σ}
    (keeps : world.KeepsTo Raced view) (c : Cloner) (source path : String) (mode : Int) :
    ∀ before x after, (copyFile c source path mode).history world view s = before ++ x :: after →
      ∀ m' i, Piecemeal x.call x.state x.reply m' → Alters x.state m' i →
        (∃ y ∈ before, y.made? = some i) ∨ x.call.altersAt? = some path ∧
          ∃ above, x.state.tree.resolve x.state.current true path = .ok ⟨i, above⟩ := by
  intro before x after same m' i step alters
  have calls : CopyCalls Racing (Spares path) (fun _ => True) Owns source path mode :=
    copyCalls_racing mode
  have copies := calls.copyFile c (view s, []) trivial
  have spares := copies.moments_noted keeps before x after same fun _ _ => trivial
  rw [foldl_made, List.nil_append] at spares
  exact (spares x.reply m' i step alters).imp_left List.mem_filterMap.mp

/-- A machine on which somebody puts a link in the place of a file as soon as that is made. -/
def planting (path target : String) : Layer Machine where
  reply
    | .openExclusive p mode, m =>
        let (number, made) := m.reply (.openExclusive p mode)
        (number, made.withTree (made.tree.plant
          { path, body := .node (.link target), mode := 0o777, uid := 7, gid := 7 }))
    | c, m => m.reply c

theorem planting_keepsTo (path target : String) : (planting path target).KeepsTo Raced id := by
  intro c m
  cases c with
  | openExclusive p mode => exact .called (.answered (.openExclusive p mode) m) ⟨rfl⟩
  | _ => exact .called (.answered _ m) ⟨rfl⟩

/-- The sample with a file that is the administrator's alone. -/
def sampleWithSecret : Machine :=
  sample.withTree
    (sample.tree.plant { path := "/secret", body := .node (.file [1, 2]), mode := 0o600 })

/-- A copy that goes well on the face of it, but the link that its name has become leads to a file
that the copy has not made. That one is emptied, given away and opened to all, and the new one stays
as it was made. -/
theorem copyFile_alters_planted :
    let copy := copyFile { uid := 7, gid := 7, limits := { depth := 1, pieces := 3 } } "/skel/f" "/home/f"
      0o644
    let world := planting "/home/f" "/secret"
    let after := (copy.run world sampleWithSecret).2.tree
    world.KeepsTo Raced id ∧ (copy.run world sampleWithSecret).1 = .ok (.ok (some "/home/f")) ∧
      (copy.history world id sampleWithSecret).filterMap Moment.made? = [7] ∧
      (sampleWithSecret.tree.node? 6 = some
        { mode := 0o600, uid := 0, gid := 0, device := 1, inode := 7, body := .file [1, 2] }) ∧
      (after.node? 6 = some
        { mode := 0o644, uid := 7, gid := 7, device := 1, inode := 7, body := .file [] }) ∧
      after.node? 7 = some
        { mode := 0o600, uid := 0, gid := 0, device := 1, inode := 8, body := .file [104, 105] } := by
  intro copy world after
  refine ⟨planting_keepsTo _ _, ?_, ?_, ?_, ?_, ?_⟩ <;> decide +kernel

end Program

end HomeProvision
