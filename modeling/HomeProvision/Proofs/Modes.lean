import HomeProvision.Proofs.CallContract

/-!
# Modes that are granted

Three calls are given a mode. A system grants only what is asked for if after every call the
permission bits of a file or a directory are among those that it had before, or among those of the
mode that the call was given (`Grants`). The system may grant less: the creation mask takes bits
away, and so may a change of the owner. A machine keeps to it (`Machine.reply_grants`), and it still
does when calls on it fail (`Machine.failing_grants`).
-/

namespace HomeProvision

/-- The mode that a call is given. -/
def Call.mode? : Call → Option Int
  | .mkdir _ mode | .chmod _ mode | .openExclusive _ mode => some mode
  | _ => none

/-- The permission bits of a mode. A negative mode stands for its two's complement. -/
def askedBits (mode : Int) : Nat :=
  (mode % (0o10000 : Int)).toNat

/-- Whether all bits of a number are among those of another. -/
def BitsWithin (bits all : Nat) : Prop :=
  bits &&& all = bits

theorem BitsWithin.refl (bits : Nat) : BitsWithin bits bits :=
  Nat.and_self bits

theorem BitsWithin.trans {a b c : Nat} (h : BitsWithin a b) (h' : BitsWithin b c) :
    BitsWithin a c := by
  unfold BitsWithin at *
  rw [← h, Nat.and_assoc, h']

theorem bitsWithin_and (bits mask : Nat) : BitsWithin (bits &&& mask) bits := by
  unfold BitsWithin
  rw [Nat.and_comm bits, Nat.and_assoc, Nat.and_self]

/-- Bits that are not among those of a number are not among fewer bits. -/
theorem BitsWithin.and_eq_zero {a b mask : Nat} (h : BitsWithin a b) (none : b &&& mask = 0) :
    a &&& mask = 0 := by
  rw [← h, Nat.and_assoc, none, Nat.and_zero]

/-- What calls do to the permission bits of files and directories where no bits are granted but
those asked for. -/
def Grants {ν : Type} (c : Call) (before : ν → Option Nat) (_ : c.Reply)
    (after : ν → Option Nat) : Prop :=
  ∀ i bits, after i = some bits →
    (∃ old, before i = some old ∧ BitsWithin bits old) ∨
      ∃ mode, c.mode? = some mode ∧ BitsWithin bits (askedBits mode)

theorem grants_same {ν : Type} {c : Call} {r : c.Reply} {before after : ν → Option Nat}
    (same : after = before) : Grants c before r after := by
  subst same
  exact fun i bits here => .inl ⟨bits, here, .refl bits⟩

/-- A call that is given no mode grants nothing new. -/
theorem Grants.within {ν : Type} {c : Call} {r : c.Reply} {before after : ν → Option Nat}
    {all : Nat} {i : ν} (h : Grants c before r after)
    (own : ∀ mode, c.mode? = some mode → BitsWithin (askedBits mode) all)
    (old : ∀ bits, before i = some bits → BitsWithin bits all) :
    ∀ bits, after i = some bits → BitsWithin bits all := by
  intro bits here
  rcases h i bits here with ⟨b, there, within⟩ | ⟨mode, given, within⟩
  · exact within.trans (old b there)
  · exact within.trans (own mode given)

namespace Machine

open HomeProvision.Machine.Tree

variable {m m' : Machine} {path : String}

/-- The permission bits of what is at a place, unless it is a link. -/
def bitsAt (m : Machine) (i : Nat) : Option Nat :=
  (m.tree.node? i).bind fun n => if n.target?.isSome then none else some n.mode

theorem bitsAt_same (same : m'.tree = m.tree) : m'.bitsAt = m.bitsAt := by
  funext i
  rw [bitsAt, same, bitsAt]

theorem unmasked_within (mode : Int) (mask mask' : Nat) :
    BitsWithin (unmasked (grantedBits mode mask) mask') (askedBits mode) :=
  (bitsWithin_and _ _).trans (bitsWithin_and _ _)

/-- A new node has the bits asked for, or it is a link. -/
theorem Created.grants {c : Call} {r : c.Reply} {bits : Nat} {body : Body} {s : Spot}
    (h : Created m path bits body s m')
    (within : (∃ target, body = .link target) ∨
      ∃ mode, c.mode? = some mode ∧ BitsWithin bits (askedBits mode)) :
    Grants c m.bitsAt r m'.bitsAt := by
  intro i own here
  unfold bitsAt at here
  rw [h.tree, node?_create (lt_of_isDirectory h.isDirectory)] at here
  split at here
  · rcases within with ⟨target, rfl⟩ | within
    · cases here
    · refine .inr ?_
      rw [Option.bind_some] at here
      split at here
      · cases here
      · cases here
        exact within
  · refine .inl ⟨own, ?_, .refl own⟩
    split at here
    · next there =>
      rw [Option.bind_map] at here
      simpa [bitsAt, Function.comp_def, there] using here
    · exact here

/-- A node that is changed keeps its bits or gets those asked for. -/
theorem Changed.grants {c : Call} {r : c.Reply} {i : Nat} {f : Node → Node}
    (h : Changed m i f m')
    (within : (∀ n, (f n).mode = n.mode) ∨
      ∃ mode, c.mode? = some mode ∧ ∀ n, BitsWithin (f n).mode (askedBits mode)) :
    Grants c m.bitsAt r m'.bitsAt := by
  intro k bits here
  unfold bitsAt at here
  rw [h.tree, node?_modify, Option.bind_map] at here
  obtain ⟨n, there, here⟩ := Option.bind_eq_some_iff.mp here
  dsimp only [Function.comp_apply] at here
  by_cases own : i = k
  · rw [if_pos own, h.targets] at here
    split at here
    · cases here
    next noLink =>
    cases here
    rcases within with kept | ⟨mode, given, within⟩
    · refine .inl ⟨n.mode, ?_, kept n ▸ .refl _⟩
      rw [bitsAt, there, Option.bind_some, if_neg noLink]
    · exact .inr ⟨mode, given, within n⟩
  · rw [if_neg own] at here
    exact .inl ⟨bits, by rw [bitsAt, there]; exact here, .refl bits⟩

theorem grants_changed {c : Call} {r : c.Reply} {e : Except Fault Machine}
    (done : ∀ m', e = .ok m' → Grants c m.bitsAt r m'.bitsAt) :
    Grants c m.bitsAt r (m.changed e).2.bitsAt := by
  cases e with
  | ok m' => exact done m' rfl
  | error f => exact grants_same rfl

theorem grants_answered {α : Type} {c : Call} {r : c.Reply} {e : Except Fault (α × Machine)}
    (done : ∀ a m', e = .ok (a, m') → Grants c m.bitsAt r m'.bitsAt) :
    Grants c m.bitsAt r (m.answered e).2.bitsAt := by
  cases e with
  | ok result => exact done result.1 result.2 rfl
  | error f => exact grants_same rfl

/-- The calls on a machine grant no bits but those asked for. -/
theorem reply_grants (c : Call) (m : Machine) :
    Grants c m.bitsAt (m.reply c).1 (m.reply c).2.bitsAt := by
  cases quiet : c.changesTree with
  | false =>
    have step : Disturbed (fun _ => True) c m (m.reply c).1 (m.reply c).2 := .answered c m
    exact grants_same (bitsAt_same (Program.sameTree_of_disturbed step quiet).1)
  | true =>
    cases c with
    | mkdir path mode =>
      refine grants_changed fun m' made => ?_
      obtain ⟨s, created⟩ := mkdir_ok made
      exact created.grants (.inr ⟨mode, rfl, unmasked_within _ _ _⟩)
    | chown path uid gid =>
      refine grants_changed fun m' done => ?_
      obtain ⟨i, _, _, changed⟩ := chown_ok done
      exact changed.grants (.inl fun _ => rfl)
    | lchown path uid gid =>
      refine grants_changed fun m' done => ?_
      obtain ⟨i, _, _, changed⟩ := chown_ok done
      exact changed.grants (.inl fun _ => rfl)
    | chmod path mode =>
      refine grants_changed fun m' done => ?_
      obtain ⟨i, _, _, changed⟩ := chmod_ok done
      exact changed.grants (.inr ⟨mode, rfl, fun _ => bitsWithin_and _ _⟩)
    | openExclusive path mode =>
      refine grants_answered fun number m' done => ?_
      obtain ⟨_, s, created, made, opened⟩ := openExclusive_ok done
      cases opened
      exact made.grants (.inr ⟨mode, rfl, unmasked_within _ _ _⟩)
    | write number bytes =>
      refine grants_answered fun written m' done => ?_
      obtain ⟨d, _, _, changed⟩ := write_ok done
      exact changed.grants (.inl (Node.mode_mapContent _))
    | truncate path length =>
      refine grants_changed fun m' done => ?_
      obtain ⟨i, _, _, changed⟩ := truncate_ok done
      exact changed.grants (.inl (Node.mode_mapContent _))
    | symlink target path =>
      refine grants_changed fun m' made => ?_
      obtain ⟨_, s, created⟩ := symlink_ok made
      exact created.grants (.inl ⟨target, rfl⟩)
    | _ => cases quiet

theorem failing_grants (fault : Call → Machine → Option Fault) :
    (failing fault).KeepsTo Grants bitsAt := by
  intro c m
  rcases failing_reply fault c m with same | ⟨r, same, _⟩
  · rw [same]
    exact reply_grants c m
  · rw [same]
    exact grants_same rfl

end Machine

end HomeProvision
