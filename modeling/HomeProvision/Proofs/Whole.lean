import HomeProvision.Proofs.Approach
import HomeProvision.Proofs.Finite
import HomeProvision.Proofs.Governed

/-!
# All of a directory or nothing

A machine falters when some of its calls fail; a call that fails leaves it as it is (`Faltering`).
Whatever fails on the way, making sure of a directory leaves the machine as it was or with one new
directory, the whole of it: empty, at its path, with the bits that are granted for its mode while
nothing is masked (`AllOrNothing`). Only its owner may be missing, if it was refused.

A failure is always nothing. What was done before is known from the calls, so a count is kept beside
the machine: how many directories were to be created, and whether an owner was refused (`Tally`).

The result is what the first of the calls decides that decides anything (`Exchange.decision?`): a look or
a creation that finds the path taken is a success with nothing done, and so nothing is done for no
reason (`ensureDirectory_decides`).
-/

namespace HomeProvision

/-- Whether a call creates a directory. -/
def Call.isMkdir : Call → Bool
  | .mkdir _ _ => true
  | _ => false

/-- Whether an owner was to be set and was not. -/
def Exchange.refusesOwner (x : Exchange) : Bool :=
  Machine.givesAway x.call && (x.call.fault? x.reply).isSome

/-- Whether a directory was created. -/
def Exchange.makes : Exchange → Bool
  | ⟨.mkdir _ _, .ok _⟩ => true
  | _ => false

/-- What a call decides about a directory that is to be there: that it is, or why it is not. A look
that finds nothing decides nothing. -/
def Exchange.decision? (path : String) : Exchange → Option StepResult
  | ⟨.stat _, .ok _⟩ => some (.ok (some path))
  | ⟨.stat _, .error (.system e)⟩ =>
      if e.code? = some .noEntry then none else some (.failure .stat path e.message)
  | ⟨.mkdir _ _, .ok _⟩ => some (.ok (some path))
  | ⟨.mkdir _ _, .error (.system e)⟩ =>
      some (if e.code? = some .alreadyExists then .ok (some path)
        else .failure .create path e.message)
  | _ => none

/-- What is counted of a run. -/
structure Tally where
  /-- How many calls were made that create a directory. -/
  made : Nat := 0
  /-- Whether an owner was refused. -/
  refused : Bool := false

/-- The count after one more call. -/
def Tally.note (n : Tally) (x : Exchange) : Tally where
  made := n.made + if x.call.isMkdir then 1 else 0
  refused := n.refused || x.refusesOwner

theorem Tally.foldl_note (t : List Exchange) (n : Tally) :
    t.foldl Tally.note n =
      ⟨n.made + t.countP fun x => x.call.isMkdir, n.refused || t.any Exchange.refusesOwner⟩ := by
  induction t generalizing n with
  | nil => simp
  | cons x rest ih =>
    rw [List.foldl_cons, ih, List.countP_cons, List.any_cons, ← Bool.or_assoc]
    simp only [Tally.note, Tally.mk.injEq, and_true]
    omega

namespace Machine

variable {spared : Call → Prop} {m m' : Machine} {path : String}

/-- What may happen on a machine that falters. Calls that are spared are answered. -/
inductive Faltering (spared : Call → Prop) : (c : Call) → Machine → c.Reply → Machine → Prop
  | answered (c : Call) (m : Machine) : Faltering spared c m (m.reply c).1 (m.reply c).2
  | failed {c : Call} {r : c.Reply} (m : Machine) (exposed : ¬ spared c)
      (fails : (c.fault? r).isSome = true) : Faltering spared c m r m

theorem Faltering.spares {c : Call} {r : c.Reply} (step : Faltering spared c m r m')
    (safe : spared c) : r = (m.reply c).1 ∧ m' = (m.reply c).2 := by
  cases step with
  | answered => exact ⟨rfl, rfl⟩
  | failed _ exposed => exact absurd safe exposed

theorem failing_falters {fault : Call → Machine → Option Fault}
    (exposed : ∀ c m f, fault c m = some f → ¬ spared c) :
    (failing fault).KeepsTo (Faltering spared) id := by
  intro c m
  unfold failing
  dsimp only
  split
  · next r fails =>
    obtain ⟨f, struck, fails⟩ := Option.bind_eq_some_iff.mp fails
    exact .failed m (exposed c m f struck) (by rw [Call.fault?_failing fails]; rfl)
  · exact .answered c m

/-- Nothing that a machine holds is ever taken away. -/
theorem nextPlace_le_of_evolves (h : Evolves m m') : m.tree.nextPlace ≤ m'.tree.nextPlace := by
  refine Nat.le_of_not_lt fun less => ?_
  have inside : m'.tree.nextPlace < m.tree.nodes.length := less
  obtain ⟨_, there, _⟩ := h.node _ _ (List.getElem?_eq_getElem inside)
  exact Nat.lt_irrefl _ (Tree.lt_of_node? there)

theorem Created.nextPlace_lt {bits : Nat} {body : Body} {s : Tree.Spot}
    (made : Created m path bits body s m') : m.tree.nextPlace < m'.tree.nextPlace := by
  refine Tree.lt_of_node? (n := m.newNode s.directory bits body) ?_
  rw [made.tree]
  exact Tree.node?_create_new (Tree.lt_of_isDirectory made.isDirectory)

/-- A directory that was created takes a place of its own. -/
theorem Faltering.makes {c : Call} {r : c.Reply} (step : Faltering spared c m r m') :
    m.tree.nextPlace + (if Exchange.makes ⟨c, r⟩ then 1 else 0) ≤ m'.tree.nextPlace := by
  cases step with
  | answered =>
    split
    · next made =>
      cases c with
      | mkdir path mode =>
        simp only [reply] at made ⊢
        cases done : m.mkdir path mode with
        | ok m' =>
          obtain ⟨s, created⟩ := mkdir_ok done
          exact created.nextPlace_lt
        | error f =>
          rw [done] at made
          cases made
      | _ => cases made
    · exact nextPlace_le_of_evolves (reply_evolves c m)
  | failed _ _ fails =>
    split
    · next made =>
      cases c with
      | mkdir path mode =>
        cases r with
        | ok _ => cases fails
        | error f => cases made
      | _ => cases made
    · exact Nat.le_refl _

/-- The directory that the process makes in another one while nothing is masked. -/
def newDirectory (m : Machine) (above : Nat) (mode : Int) : Node :=
  m.newNode above (grantedBits mode 0o1777) (.directory [] false)

/-- A directory that was to be given to an owner. -/
def handedOver (refused : Bool) (uid gid : Int) (n : Node) : Node :=
  if refused then n else n.giveTo uid gid

/-- The machine with one more directory, under a name in another one. -/
def withDirectory (m : Machine) (above : Nat) (name : String) (n : Node) : Machine :=
  m.withTree (m.tree.create above name n)

/-- A new directory of the process, made while nothing is masked. -/
abbrev CreatedDirectory (m : Machine) (path : String) (mode : Int) (s : Tree.Spot) : Prop :=
  Created m path (grantedBits mode 0o1777) (.directory [] false) s
    (m.withDirectory s.directory s.name (m.newDirectory s.directory mode))

/-- A directory that is created while nothing is masked, with the mask put back afterwards. -/
theorem mkdir_unmasked {mode : Int}
    (made : ({ m with mask := 0 } : Machine).mkdir path mode = .ok m') :
    checkText path = .ok () ∧ ∃ s, CreatedDirectory m path mode s ∧
      { m' with mask := m.mask } =
        m.withDirectory s.directory s.name (m.newDirectory s.directory mode) := by
  obtain ⟨s, created⟩ := mkdir_ok made
  rw [directoryBits_unmasked] at created
  obtain ⟨_, valid, made⟩ := bind_eq_ok.mp made
  obtain ⟨_, _, made⟩ := bind_eq_ok.mp made
  refine ⟨valid, s, ⟨created.spot, created.name, created.free, rfl, rfl, rfl⟩, ?_⟩
  rw [createAt_withTree made, created.tree]
  rfl

/-- A new directory is found at its path, whoever it belongs to. -/
theorem CreatedDirectory.find {mode : Int} {s : Tree.Spot} {n : Node}
    (made : CreatedDirectory m path mode s) (text : checkText path = .ok ())
    (bare : n.body = .directory [] false) :
    (m.withDirectory s.directory s.name n).find true path = .ok (m.tree.nextPlace, n) := by
  have inside := Tree.lt_of_isDirectory made.isDirectory
  have grows : m.tree.Grows (m.withDirectory s.directory s.name n).tree :=
    Tree.Grows.create inside made.free
  have here : (m.withDirectory s.directory s.name n).tree.node? m.tree.nextPlace = some n :=
    Tree.node?_create_new inside
  have noLink : ((m.tree.create s.directory s.name n).node? m.tree.nextPlace).bind Node.target? =
      none := by
    rw [Tree.node?_create_new inside, Option.bind_some, Node.target?, bare]
  have directory : (m.tree.create s.directory s.name n).isDirectory m.tree.nextPlace = true :=
    Tree.isDirectory_iff.mpr ⟨n, here, by rw [Node.isDirectory, Node.entries?, bare]; rfl⟩
  have leads : ∃ above, (m.tree.create s.directory s.name n).resolve m.current true path =
      .ok ⟨m.tree.nextPlace, above⟩ :=
    Tree.resolve_of_spot made.name (grows.spot made.spot)
      (Tree.child?_create_new made.isDirectory made.free) (.inl noLink) fun _ => directory
  obtain ⟨above, leads⟩ := leads
  exact find_eq_ok (m := m.withDirectory s.directory s.name n) text leads here

/-- A new directory is given to an owner by the administrator only. -/
theorem CreatedDirectory.chown {mode uid gid : Int} {s : Tree.Spot}
    (made : CreatedDirectory m path mode s) (text : checkText path = .ok ()) :
    (m.withDirectory s.directory s.name (m.newDirectory s.directory mode)).chown true path uid gid =
      do
        checkId false uid
        checkId true gid
        if m.effectiveUid ≠ 0 then throw (refused path .notPermitted)
        return m.withDirectory s.directory s.name
          ((m.newDirectory s.directory mode).giveTo uid gid) := by
  have inside := Tree.lt_of_isDirectory made.isDirectory
  unfold Machine.chown
  rw [text, made.find text rfl]
  simp only [bind, Except.bind]
  cases checkId false uid with
  | error f => rfl
  | ok _ =>
    cases checkId true gid with
    | error f => rfl
    | ok _ =>
      simp only [withDirectory, withTree, Tree.modify_create inside]
      rfl

/-! ## The contract -/

/-- How making sure of a directory ends: with nothing done, or with all of it. -/
inductive AllOrNothing (spared : Call → Prop) (m : Machine) (path : String) (uid gid mode : Int) :
    Except Fault StepResult → Machine × Tally → Prop
  | nothing (out : Except Fault StepResult) {n : Tally} (few : n.made ≤ 1) :
      AllOrNothing spared m path uid gid mode out (m, n)
  | all {out : Except Fault StepResult} {s : Tree.Spot} {refused : Bool}
      (text : checkText path = .ok ()) (made : CreatedDirectory m path mode s)
      (well : ∀ result, out = .ok result → result = .ok (some path))
      (told : spared (.chown path uid gid) → checkId false uid = .ok () →
        checkId true gid = .ok () → (refused = true ↔ m.effectiveUid ≠ 0)) :
      AllOrNothing spared m path uid gid mode out
        (m.withDirectory s.directory s.name
          (handedOver refused uid gid (m.newDirectory s.directory mode)), ⟨1, refused⟩)

theorem AllOrNothing.ends {uid gid mode : Int} {out : Except Fault StepResult} {n : Tally}
    (h : AllOrNothing spared m path uid gid mode out (m', n)) :
    n.made ≤ 1 ∧ m'.mask = m.mask ∧
    (∀ result, out = .ok result → result.success = false → m' = m) ∧
    (m' = m ∨ ∃ spot, m.tree.spot m.current path = .ok spot ∧
      m.tree.child? spot.directory spot.name = none ∧
      let new := handedOver n.refused uid gid (m.newDirectory spot.directory mode)
      m' = m.withDirectory spot.directory spot.name new ∧
        m'.find true path = .ok (m.tree.nextPlace, new)) := by
  cases h with
  | nothing few => exact ⟨few, rfl, fun _ _ _ => rfl, .inl rfl⟩
  | @all s refused text made well =>
    refine ⟨Nat.le_refl 1, rfl, fun result done failed => ?_, .inr ⟨s, made.spot, made.free, rfl, ?_⟩⟩
    · cases well result done
      cases failed
    · refine made.find text ?_
      unfold handedOver
      split <;> rfl

end Machine

namespace Program

open Machine

variable {α : Type} {spared : Call → Prop} {m : Machine} {n : Tally} {path : String}
  {uid gid mode : Int}

/-- A faltering machine beside which the calls are counted. -/
abbrev Counting (spared : Call → Prop) : Rule (Machine × Tally) :=
  Rule.watched (Faltering spared) (fun _ _ => True) fun n x => n.note x.toExchange

/-- Directories are created only while nothing is masked. -/
def clearly (c : Call) (s : Machine × Tally) : Prop :=
  c.isMkdir = true → s.1.mask = 0

theorem meets_counted {c : Call} {next : c.Reply → Program α}
    {post : Except Fault α → Machine × Tally → Prop} (allowed : clearly c (m, n))
    (answered : (next (m.reply c).1).Meets (Counting spared) clearly post
      ((m.reply c).2, n.note ⟨c, (m.reply c).1⟩))
    (failed : ¬ spared c → ∀ r, (c.fault? r).isSome = true →
      (next r).Meets (Counting spared) clearly post (m, n.note ⟨c, r⟩)) :
    (call c next).Meets (Counting spared) clearly post (m, n) := by
  refine ⟨allowed, fun r s' step => ?_⟩
  obtain ⟨m', n'⟩ := s'
  obtain ⟨⟨step, _⟩, same⟩ := step
  dsimp only at step same
  subst same
  cases step with
  | answered => exact answered
  | failed _ exposed fails => exact failed exposed r fails

/-- A call that changes nothing and is not counted. -/
theorem meets_uncounted {c : Call} {next : c.Reply → Program α}
    {post : Except Fault α → Machine × Tally → Prop} (still : (m.reply c).2 = m)
    (other : c.isMkdir = false) (keeps : givesAway c = false)
    (onward : ∀ r, (next r).Meets (Counting spared) clearly post (m, n)) :
    (call c next).Meets (Counting spared) clearly post (m, n) := by
  have same : ∀ r : c.Reply, n.note ⟨c, r⟩ = n := fun r => by
    simp [Tally.note, Exchange.refusesOwner, other, keeps]
  refine meets_counted (fun bad => by rw [other] at bad; cases bad) ?_ fun _ r _ => ?_
  · rw [same, still]
    exact onward _
  · rw [same]
    exact onward r

theorem log_uncounted {level : Level} {event : String} {details : List (String × Detail)}
    {k : Unit → Program α} {post : Except Fault α → Machine × Tally → Prop}
    (onward : (k ()).Meets (Counting spared) clearly post (m, n)) :
    ((log level event details).bind k).Meets (Counting spared) clearly post (m, n) :=
  meets_uncounted rfl rfl rfl fun _ => onward

theorem stat_uncounted {post : Except Fault Status → Machine × Tally → Prop}
    (looked : ∀ out, post out (m, n)) :
    (stat path).Meets (Counting spared) clearly post (m, n) :=
  meets_uncounted rfl rfl rfl fun r => meets_ofExcept.mpr (looked r)

/-- Setting the mask, where that is spared. -/
theorem umask_counted {post : Except Fault Int → Machine × Tally → Prop} {mask : Int}
    (safe : spared (.umask mask))
    (done : post (.ok m.mask) ({ m with mask := grantedBits mask 0o777 }, n)) :
    (umask mask).Meets (Counting spared) clearly post (m, n) := by
  refine meets_counted (fun bad => by cases bad) ?_ fun exposed => absurd safe exposed
  have same : ∀ r, n.note ⟨.umask mask, r⟩ = n := fun r => by
    simp [Tally.note, Exchange.refusesOwner, Call.isMkdir, givesAway]
  rw [same]
  exact meets_ofExcept.mpr done

theorem createDirectory_counted (clear : m.mask = 0) :
    (createDirectory path mode).Meets (Counting spared) clearly
      (fun out s' => (out = .ok none ∧ ∃ m', m.mkdir path mode = .ok m' ∧
          s' = (m', { n with made := n.made + 1 })) ∨
        (out ≠ .ok none ∧ s' = (m, { n with made := n.made + 1 }))) (m, n) := by
  have same : ∀ r, n.note ⟨.mkdir path mode, r⟩ = { n with made := n.made + 1 } := fun r => by
    simp [Tally.note, Exchange.refusesOwner, Call.isMkdir, givesAway]
  have tried : (mkdir path mode).Meets (Counting spared) clearly
      (fun out s' => (∃ m', out = .ok () ∧ m.mkdir path mode = .ok m' ∧
          s' = (m', { n with made := n.made + 1 })) ∨
        (∃ f, out = .error f ∧ s' = (m, { n with made := n.made + 1 }))) (m, n) := by
    refine meets_counted (fun _ => clear) ?_ fun _ r fails => ?_
    · rw [same]
      simp only [reply]
      cases done : m.mkdir path mode with
      | ok m' => exact .inl ⟨m', rfl, rfl, rfl⟩
      | error f => exact .inr ⟨f, rfl, rfl⟩
    · rw [same]
      cases r with
      | ok _ => cases fails
      | error f => exact .inr ⟨f, rfl, rfl⟩
  refine Meets.attempt tried (fun a s' reached => ?_) (fun e s' reached => ?_)
    fun f s' _ reached => ?_
  · rcases reached with ⟨m', _, made, rfl⟩ | ⟨_, bad, _⟩
    · exact .inl ⟨rfl, m', made, rfl⟩
    · cases bad
  · rcases reached with ⟨_, bad, _⟩ | ⟨_, _, rfl⟩
    · cases bad
    dsimp only
    split
    · exact log_uncounted (.inr ⟨fun bad => (by cases bad), rfl⟩)
    · exact log_uncounted (.inr ⟨fun bad => (by cases bad), rfl⟩)
  · rcases reached with ⟨_, bad, _⟩ | ⟨_, _, rfl⟩
    · cases bad
    · exact .inr ⟨fun bad => (by cases bad), rfl⟩

theorem chown_counted {s : Tree.Spot} (text : checkText path = .ok ())
    (made : CreatedDirectory m path mode s) :
    (chown path uid gid).Meets (Counting spared) clearly
      (fun _ s' => ∃ refused, s' = (m.withDirectory s.directory s.name
          (handedOver refused uid gid (m.newDirectory s.directory mode)), ⟨1, refused⟩) ∧
        (spared (.chown path uid gid) → checkId false uid = .ok () → checkId true gid = .ok () →
          (refused = true ↔ m.effectiveUid ≠ 0)))
      (m.withDirectory s.directory s.name (m.newDirectory s.directory mode), ⟨1, false⟩) := by
  have counted : ∀ r : Except Fault Unit, (⟨1, false⟩ : Tally).note ⟨.chown path uid gid, r⟩ =
      ⟨1, (faultOf r).isSome⟩ := fun r => by
    simp [Tally.note, Exchange.refusesOwner, Call.isMkdir, givesAway, Call.fault?]
  refine meets_counted (fun bad => by cases bad) ?_ fun exposed r fails => ?_
  · rw [counted]
    simp only [reply]
    rw [made.chown text]
    -- either argument may be improper, and then only the administrator gives anything away
    cases user : checkId false uid with
    | error f => exact ⟨true, rfl, fun _ proper => by cases proper⟩
    | ok _ =>
      cases group : checkId true gid with
      | error f => exact ⟨true, rfl, fun _ _ proper => by cases proper⟩
      | ok _ =>
        by_cases other : m.effectiveUid ≠ 0
        · rw [if_pos other]
          exact ⟨true, rfl, fun _ _ _ => iff_of_true rfl other⟩
        · rw [if_neg other]
          exact ⟨false, rfl, fun _ _ _ => iff_of_false Bool.false_ne_true other⟩
  · rw [counted]
    refine meets_ofExcept.mpr ⟨true, ?_, fun safe => absurd safe exposed⟩
    rw [show (faultOf r).isSome = true from fails]
    rfl

section

variable (safe : ∀ mask, spared (.umask mask)) (fits : m.mask < 0o1000)
include safe fits

/-- The mask is put back however a directory comes to be created or not. -/
theorem withClearMask_counted :
    (withClearMask (createDirectory path mode)).Meets (Counting spared) clearly
      (fun out s' => (out = .ok none ∧ checkText path = .ok () ∧ ∃ s, CreatedDirectory m path mode s ∧
          s' = (m.withDirectory s.directory s.name (m.newDirectory s.directory mode),
            { n with made := n.made + 1 })) ∨
        (out ≠ .ok none ∧ s' = (m, { n with made := n.made + 1 }))) (m, n) := by
  refine Meets.bind (q := fun out s' => out = .ok (m.mask : Int) ∧ s' = ({ m with mask := 0 }, n))
    (umask_counted (safe 0) ⟨rfl, rfl⟩) (fun mask s' reached => ?_) fun f s' bad => by cases bad.1
  obtain ⟨same, rfl⟩ := reached
  cases same
  refine Meets.ensuring (createDirectory_counted rfl) fun r s' reached => ?_
  obtain ⟨m', n'⟩ := s'
  refine Meets.bind (q := fun out s'' => out.isOk = true ∧ s'' = ({ m' with mask := m.mask }, n'))
    (umask_counted (safe _) ⟨rfl, by rw [Holding.grantedBits_mask fits]⟩) (fun _ s'' restored => ?_)
    fun f s' bad => by cases bad.1
  obtain ⟨_, rfl⟩ := restored
  rcases reached with ⟨done, m'', made, same⟩ | ⟨other, same⟩
  · cases same
    obtain ⟨text, s, created, same⟩ := mkdir_unmasked made
    exact .inl ⟨done, text, s, created, by rw [same]⟩
  · cases same
    exact .inr ⟨other, rfl⟩

theorem makeDirectory_counted (none : n = {}) :
    (makeDirectory path uid gid mode).Meets (Counting spared) clearly
      (AllOrNothing spared m path uid gid mode) (m, n) := by
  subst none
  refine (withClearMask_counted safe fits).bind (fun made s' reached => ?_) fun f s' reached => ?_
  · rcases reached with ⟨done, text, s, created, rfl⟩ | ⟨other, rfl⟩
    · cases done
      have ends : ∀ (refused : Bool), (spared (.chown path uid gid) → checkId false uid = .ok () →
            checkId true gid = .ok () → (refused = true ↔ m.effectiveUid ≠ 0)) →
          (log .debug "Directory created"
              [("path", .text path), ("mode", .text (Number.paddedOctal mode))] >>=
            fun _ => pure (StepResult.ok (some path))).Meets (Counting spared) clearly
            (AllOrNothing spared m path uid gid mode)
            (m.withDirectory s.directory s.name
              (handedOver refused uid gid (m.newDirectory s.directory mode)), ⟨1, refused⟩) :=
        fun refused told => log_uncounted (.all text created (fun _ same => by cases same; rfl) told)
      refine Meets.attempt (chown_counted text created) (fun _ s' reached => ?_)
        (fun e s' reached => ?_) fun f s' _ reached => ?_
      · obtain ⟨refused, rfl, told⟩ := reached
        exact ends refused told
      · obtain ⟨refused, rfl, told⟩ := reached
        exact log_uncounted (ends refused told)
      · obtain ⟨refused, rfl, told⟩ := reached
        exact .all text created (fun _ bad => by cases bad) told
    · cases made with
      | none => exact absurd rfl other
      | some result => exact .nothing _ (Nat.le_refl 1)
  · rcases reached with ⟨bad, _⟩ | ⟨_, rfl⟩
    · cases bad
    · exact .nothing _ (Nat.le_refl 1)

/-- Making sure of a directory does all of it or nothing. -/
theorem ensureDirectory_counted :
    (ensureDirectory path uid gid mode).Meets (Counting spared) clearly
      (AllOrNothing spared m path uid gid mode) (m, {}) := by
  have few : ({} : Tally).made ≤ 1 := Nat.zero_le 1
  refine Meets.attempt (stat_uncounted fun out => (rfl : (m, ({} : Tally)) = _))
    (fun status s' reached => ?_) (fun e s' reached => ?_) fun f s' _ reached => ?_
  · subst reached
    exact log_uncounted (.nothing _ few)
  · subst reached
    dsimp only
    split
    · exact makeDirectory_counted safe fits rfl
    · exact log_uncounted (.nothing _ few)
  · subst reached
    exact .nothing _ few

end

/-! ## The decision -/

/-- Whether the calls of a part have decided what is to be said of a directory. -/
def Decides (path : String) (result : StepResult) (t : List Exchange) : Prop :=
  t.findSome? (Exchange.decision? path) = some result

section

variable {result : StepResult} {t t' : List Exchange}

/-- What is done after a decision does not change it. -/
theorem Decides.append (h : Decides path result t) : Decides path result (t ++ t') := by
  unfold Decides
  rw [List.findSome?_append, h]
  rfl

theorem Decides.cons {x : Exchange} (idle : x.decision? path = none) (h : Decides path result t) :
    Decides path result (x :: t) := by
  unfold Decides
  rw [List.findSome?_cons, idle]
  exact h

theorem Decides.log {α : Type} {level : Level} {event : String} {details : List (String × Detail)}
    {a : α} {post : Except Fault α → List Exchange → Prop} (h : Decides path result t)
    (ends : ∀ t', Decides path result (t ++ t') → post (.ok a) t') :
    ((Program.log level event details).bind fun _ => .done a).Yields Orderly post :=
  fun _ _ => ends _ h.append

end

theorem createDirectory_decides (path : String) (mode : Int) :
    (createDirectory path mode).Yields Orderly fun out t =>
      ∃ made, out = .ok made ∧ Decides path (made.getD (.ok (some path))) t := by
  have tried : (mkdir path mode).Yields Orderly fun out t =>
      FailsOrderly out ∧ t = [⟨.mkdir path mode, out⟩] :=
    fun r ok => yields_ofExcept.mpr ⟨ok, rfl⟩
  refine tried.attempt (fun _ t reached => ?_) (fun e t reached => ?_) fun f t other reached => ?_
  · obtain ⟨_, rfl⟩ := reached
    exact ⟨none, rfl, rfl⟩
  · obtain ⟨_, rfl⟩ := reached
    have decided : Decides path (if e.code? = some .alreadyExists then .ok (some path)
        else .failure .create path e.message) [⟨.mkdir path mode, .error (.system e)⟩] := rfl
    dsimp only
    split
    · next taken =>
      rw [if_pos taken] at decided
      exact decided.log fun _ decided => ⟨_, rfl, decided⟩
    · next other =>
      rw [if_neg other] at decided
      exact decided.log fun _ decided => ⟨_, rfl, decided⟩
  · obtain ⟨e, same⟩ := reached.1 f rfl
    exact absurd same (other e)

theorem withClearMask_decides (path : String) (mode : Int) :
    (withClearMask (createDirectory path mode)).Yields Orderly fun out t =>
      ∃ made, out = .ok made ∧ Decides path (made.getD (.ok (some path))) t := by
  intro r ok
  obtain ⟨mask, rfl⟩ := ok
  refine Yields.ensuring (createDirectory_decides path mode) fun out t reached => ?_
  obtain ⟨made, same, decided⟩ := reached
  intro r ok
  obtain ⟨_, rfl⟩ := ok
  exact ⟨made, same, Decides.cons rfl decided.append⟩

theorem makeDirectory_decides (path : String) (uid gid mode : Int) :
    (makeDirectory path uid gid mode).Yields Orderly fun out t =>
      ∃ result, out = .ok result ∧ Decides path result t := by
  refine (withClearMask_decides path mode).bind (fun made t reached => ?_) fun f t reached => ?_
  · obtain ⟨_, same, decided⟩ := reached
    cases same
    cases made with
    | some result => exact ⟨result, rfl, decided.append⟩
    | none =>
      have given : (chown path uid gid).Yields Orderly fun out _ => FailsOrderly out :=
        fun r ok => yields_ofExcept.mpr ok
      refine given.attempt (fun _ t' _ => ?_) (fun e t' _ => ?_) fun f t' other reached => ?_
      · exact fun _ _ => ⟨_, rfl, decided.append⟩
      · exact fun _ _ _ _ => ⟨_, rfl, decided.append⟩
      · obtain ⟨e, same⟩ := reached f rfl
        exact absurd same (other e)
  · obtain ⟨_, bad, _⟩ := reached
    cases bad

/-- The result of making sure of a directory is what its calls decide, the first of them. -/
theorem ensureDirectory_decides (path : String) (uid gid mode : Int) :
    (ensureDirectory path uid gid mode).Yields Orderly fun out t =>
      ∃ result, out = .ok result ∧ Decides path result t := by
  have looked : (stat path).Yields Orderly fun out t =>
      FailsOrderly out ∧ t = [⟨.stat path, out⟩] :=
    fun r ok => yields_ofExcept.mpr ⟨ok.1, rfl⟩
  refine looked.attempt (fun status t reached => ?_) (fun e t reached => ?_)
    fun f t other reached => ?_
  · obtain ⟨_, rfl⟩ := reached
    have decided : Decides path (.ok (some path)) [⟨.stat path, .ok status⟩] := rfl
    exact decided.log fun _ decided => ⟨_, rfl, decided⟩
  · obtain ⟨_, rfl⟩ := reached
    dsimp only
    split
    · next missing =>
      have idle : Exchange.decision? path ⟨.stat path, .error (.system e)⟩ = none := if_pos missing
      exact (makeDirectory_decides path uid gid mode).mono fun _ _ ends =>
        ends.imp fun _ told => ⟨told.1, told.2.cons idle⟩
    · next other =>
      have decided : Decides path (.failure .stat path e.message)
          [⟨.stat path, .error (.system e)⟩] := by
        unfold Decides
        rw [List.findSome?_cons, Exchange.decision?, if_neg other]
      exact decided.log fun _ decided => ⟨_, rfl, decided⟩
  · obtain ⟨e, same⟩ := reached.1 f rfl
    exact absurd same (other e)

/-! ## Runs -/

/-- A contract about a machine and a count is one about the machine. -/
theorem Meets.uncounted {p : Program α} {post : Except Fault α → Machine × Tally → Prop}
    (h : p.Meets (Counting spared) clearly post (m, n)) :
    p.Meets (Faltering spared) (fun c m => c.isMkdir = true → m.mask = 0)
      (fun out m' => ∃ n', post out (m', n')) m := by
  induction p generalizing m n with
  | done a => exact ⟨n, h⟩
  | raise f => exact ⟨n, h⟩
  | call c next ih => exact ⟨h.1, fun r m' step => ih r (h.2 r (m', _) ⟨⟨step, trivial⟩, rfl⟩)⟩

/-- Each directory that was created in a run has taken a place. -/
theorem makes_counted {σ : Type} {world : Layer σ} {view : σ → Machine}
    (keeps : world.KeepsTo (Faltering spared) view) (p : Program α) (s : σ) :
    (view s).tree.nextPlace + (p.trace world s).countP Exchange.makes ≤
      (view (p.run world s).2).tree.nextPlace := by
  induction p generalizing s with
  | done a => exact Nat.le_refl _
  | raise f => exact Nat.le_refl _
  | call c next ih =>
    have first := (keeps c s).makes
    have rest := ih (world.reply c s).1 (world.reply c s).2
    change (view s).tree.nextPlace +
      List.countP Exchange.makes (⟨c, (world.reply c s).1⟩ :: _) ≤ _
    rw [List.countP_cons]
    change _ ≤ (view ((next (world.reply c s).1).run world (world.reply c s).2).2).tree.nextPlace
    omega

/-- What is there is left as it is. -/
theorem ensureDirectory_found (found : m.Present path) (uid gid mode : Int) :
    (ensureDirectory path uid gid mode).run layer m = (.ok (.ok (some path)), m) := by
  obtain ⟨status, looked⟩ := found
  have ran : (stat path).run layer m = (.ok status, m) := by
    change (ofExcept (m.statusOf true path)).run layer m = _
    rw [looked]
    rfl
  have tried : (attempt (stat path)).run layer m = (.ok (.ok status), m) := by
    rw [run_attempt, ran]
  exact run_bind_ok tried

/-- Making sure of a directory is all or nothing, whatever fails except for the mask. -/
theorem ensureDirectory_whole {σ : Type} {world : Layer σ} {view : σ → Machine}
    (keeps : world.KeepsTo (Faltering fun c => c.isUmask = true) view) {s : σ}
    (fits : (view s).mask < 0o1000) (path : String) (uid gid mode : Int) :
    let program := ensureDirectory path uid gid mode
    let before := view s
    let ends := program.run world s
    let calls := program.trace world s
    let after := view ends.2
    (calls.countP (·.call.isMkdir) ≤ 1 ∧
      ∀ step ∈ program.steps world s, step.1.isMkdir = true → (view step.2).mask = 0) ∧
    after.mask = before.mask ∧
    (∀ result, ends.1 = .ok result → result.success = false → after = before) ∧
    ((after = before ∧ calls.any Exchange.makes = false) ∨
      ∃ spot, before.tree.spot before.current path = .ok spot ∧
      before.tree.child? spot.directory spot.name = none ∧
      let new := handedOver (calls.any Exchange.refusesOwner) uid gid
        (before.newDirectory spot.directory mode)
      after = before.withDirectory spot.directory spot.name new ∧
        after.find true path = .ok (before.tree.nextPlace, new)) ∧
    (∀ found uid gid mode, after.Present found →
      (ensureDirectory found uid gid mode).run layer after = (.ok (.ok (some found)), after)) ∧
    ((∀ x ∈ calls, Orderly x.call x.reply) → ∃ result, ends.1 = .ok result ∧
      calls.findSome? (Exchange.decision? path) = some result) := by
  intro program before ends calls after
  have contract : program.Meets (Counting fun c => c.isUmask = true) clearly
      (AllOrNothing (fun c => c.isUmask = true) before path uid gid mode) (before, {}) :=
    ensureDirectory_counted (fun _ => rfl) fits
  have outcome := contract.watched keeps fun _ _ => trivial
  have counted : (program.history world view s).foldl (fun n x => n.note x.toExchange)
      ({} : Tally) = ⟨calls.countP fun x => x.call.isMkdir, calls.any Exchange.refusesOwner⟩ := by
    rw [← List.foldl_map, history_trace, Tally.foldl_note]
    simp [calls, program]
  rw [counted] at outcome
  obtain ⟨few, mask, failed, whole⟩ := outcome.ends
  have taken : before.tree.nextPlace + calls.countP Exchange.makes ≤ after.tree.nextPlace :=
    makes_counted keeps program s
  refine ⟨⟨few, contract.uncounted.steps keeps⟩, mask, failed, whole.imp_left fun same => ?_,
    fun found uid gid mode there => ensureDirectory_found there uid gid mode, fun orderly =>
    Yields.run_of_trace orderly (ensureDirectory_decides path uid gid mode)⟩
  -- what was created would have its place
  refine ⟨same, ?_⟩
  rw [show after = before from same] at taken
  have none : calls.countP Exchange.makes = 0 := by omega
  exact List.any_eq_false.mpr (List.countP_eq_zero.mp none)

/-- Where owners are refused the new directory is whole and stays the process's own. -/
theorem ensureDirectory_whole_refused :
    let unowned := failing fun c _ =>
      if givesAway c then some (refusedDescriptor .notPermitted) else none
    let ends := (ensureDirectory "/home/alice" 7 7 0o1750).run unowned sample
    ends.1 = .ok (.ok (some "/home/alice")) ∧ ends.2.mask = 0o022 ∧
      ends.2 = sample.withDirectory 5 "alice" { Tree.plainDirectory 1 7 with mode := 0o1750 } := by
  intro unowned ends
  have keeps : unowned.KeepsTo (Faltering fun c => c.isUmask = true) id :=
    failing_falters fun c _ _ struck safe => by
      cases c <;> cases safe
      cases struck
  obtain ⟨_, mask, _, whole, _, told⟩ :=
    ensureDirectory_whole keeps (s := sample) (by decide) "/home/alice" 7 7 0o1750
  obtain ⟨result, ended, decided⟩ := told (by decide +kernel)
  have own : ((ensureDirectory "/home/alice" 7 7 0o1750).trace unowned sample).findSome?
      (Exchange.decision? "/home/alice") = some (.ok (some "/home/alice")) := by decide +kernel
  cases own.symm.trans decided
  refine ⟨ended, mask, ?_⟩
  have changed : ends.2 ≠ sample := by decide +kernel
  obtain ⟨spot, found, _, same, _⟩ := whole.resolve_left fun same => changed same.1
  have refused : ((ensureDirectory "/home/alice" 7 7 0o1750).trace unowned sample).any
      Exchange.refusesOwner = true := by decide +kernel
  have place : sample.tree.spot sample.current "/home/alice" = .ok ⟨5, "alice"⟩ := by decide +kernel
  refine same.trans ?_
  cases place.symm.trans found
  rw [refused]
  rfl

end Program

end HomeProvision
