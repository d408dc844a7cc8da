import HomeProvision.Proofs.Orderly
import HomeProvision.Proofs.Places

/-!
# Where the hook should get control

The hook is how a caller stays in control of work that may take long, so it matters at which points
it gets control, and that none is left out. This module says of traces what these points are. On the
way to a home they come after every segment (`Walked`). In a clone they come before every name that a
listing came back with, and after every piece of a file that was written in full (`Visit` for one
entry, `Tour` for the names of a directory).

So the number of calls of the hook is known (`Walked.count`, `Visit.count`), and between two of them
one entry is handled and one write is made at most (`Visit.beats`, `Beats.between`). A run that ends
with a fault is a first part of such a trace (`CutFrom`).
-/

namespace HomeProvision

/-! ## Pauses, pieces and names -/

/-- Whether a call writes to a file. -/
def Call.writes : Call → Bool
  | .write _ _ => true
  | _ => false

/-- Whether an exchange has written a piece of a file in full. -/
def Exchange.isPiece : Exchange → Bool
  | ⟨.write _ bytes, .ok written⟩ => decide (written = bytes.length)
  | _ => false

/-- How often the hook got control. -/
def pauses (t : List Exchange) : Nat :=
  t.countP fun x => x.call.isPause

/-- How many pieces of files were written in full. -/
def pieces (t : List Exchange) : Nat :=
  t.countP Exchange.isPiece

/-- All names that listings came back with. -/
def allNamesListed (t : List Exchange) : List String :=
  (t.filterMap Exchange.listing?).flatMap Prod.snd

/-- The replies of a world whose hook does not fail. -/
def Patient (c : Call) : c.Reply → Prop :=
  match c with
  | .pause => fun r => r = .ok ()
  | _ => fun _ => True

theorem pauses_append (t t' : List Exchange) : pauses (t ++ t') = pauses t + pauses t' :=
  List.countP_append

theorem pieces_append (t t' : List Exchange) : pieces (t ++ t') = pieces t + pieces t' :=
  List.countP_append

theorem pauses_cons {x : Exchange} (t : List Exchange) (own : x.call.isPause = false) :
    pauses (x :: t) = pauses t :=
  List.countP_cons_of_neg (by simp [own])

theorem pauses_pause (r : Except Fault Unit) (t : List Exchange) :
    pauses (⟨.pause, r⟩ :: t) = pauses t + 1 :=
  List.countP_cons_of_pos rfl

theorem pieces_cons {x : Exchange} (t : List Exchange) (other : x.isPiece = false) :
    pieces (x :: t) = pieces t :=
  List.countP_cons_of_neg (by simp [other])

theorem pieces_piece {x : Exchange} (t : List Exchange) (full : x.isPiece = true) :
    pieces (x :: t) = pieces t + 1 :=
  List.countP_cons_of_pos full

theorem allNamesListed_cons {x : Exchange} (t : List Exchange) (other : x.listing? = none) :
    allNamesListed (x :: t) = allNamesListed t := by
  unfold allNamesListed
  rw [List.filterMap_cons, other]

theorem allNamesListed_listed (path : String) (names : List String) (t : List Exchange) :
    allNamesListed (⟨.list path, .ok names⟩ :: t) = names ++ allNamesListed t :=
  rfl

theorem allNamesListed_append (t t' : List Exchange) :
    allNamesListed (t ++ t') = allNamesListed t ++ allNamesListed t' := by
  unfold allNamesListed
  rw [List.filterMap_append, List.flatMap_append]

theorem Exchange.listing?_eq_none {x : Exchange} (unlisted : x.call.isListing = false) :
    x.listing? = none := by
  obtain ⟨c, r⟩ := x
  cases c <;> first | rfl | cases unlisted

theorem Exchange.isPiece_eq_false {x : Exchange} (unwritten : x.call.writes = false) :
    x.isPiece = false := by
  obtain ⟨c, r⟩ := x
  cases c <;> first | rfl | cases unwritten

theorem Exchange.not_isPause_of_isPiece {x : Exchange} (full : x.isPiece = true) :
    x.call.isPause = false := by
  obtain ⟨c, r⟩ := x
  cases c <;> first | rfl | cases full

/-! ## Files -/

/-- Whether an exchange neither writes nor gives control to the hook. -/
def Exchange.IsStill (x : Exchange) : Prop :=
  x.call.isPause = false ∧ x.call.writes = false

/-- Whether the hook gets control right after every piece that was written in full, and at no other
time. After a write that was cut short there is no other. -/
inductive Streamed : List Exchange → Prop
  | nil : Streamed []
  | still {x : Exchange} {t : List Exchange} (still : x.IsStill) (rest : Streamed t) :
      Streamed (x :: t)
  | piece {x : Exchange} {t : List Exchange} (full : x.isPiece = true) (rest : Streamed t) :
      Streamed (x :: ⟨.pause, .ok ()⟩ :: t)
  | short {x : Exchange} {t : List Exchange} (own : x.call.isPause = false) (part : x.isPiece = false)
      (rest : ∀ y ∈ t, y.IsStill) : Streamed (x :: t)

namespace Streamed

variable {t t' : List Exchange}

theorem after (still : ∀ x ∈ t, x.IsStill) (h : Streamed t') : Streamed (t ++ t') := by
  induction t with
  | nil => exact h
  | cons x rest ih =>
    obtain ⟨first, others⟩ := List.forall_mem_cons.mp still
    exact .still first (ih others)

theorem of_still (still : ∀ x ∈ t, x.IsStill) : Streamed t :=
  List.append_nil t ▸ after still .nil

theorem before (h : Streamed t) (still : ∀ x ∈ t', x.IsStill) : Streamed (t ++ t') := by
  induction h with
  | nil => exact of_still still
  | still first _ ih => exact .still first ih
  | piece full _ ih => exact .piece full ih
  | short own part rest => exact .short own part (List.forall_mem_append.mpr ⟨rest, still⟩)

theorem count_still (still : ∀ x ∈ t, x.IsStill) : pauses t = 0 ∧ pieces t = 0 := by
  constructor
  · exact List.countP_eq_zero.mpr fun x mem => by simp [(still x mem).1]
  · exact List.countP_eq_zero.mpr fun x mem => by simp [Exchange.isPiece_eq_false (still x mem).2]

/-- The hook gets control as often as a piece was written in full. -/
theorem count (h : Streamed t) : pauses t = pieces t := by
  induction h with
  | nil => rfl
  | still first _ ih =>
    rw [pauses_cons _ first.1, pieces_cons _ (Exchange.isPiece_eq_false first.2), ih]
  | piece full _ ih =>
    rw [pauses_cons _ (Exchange.not_isPause_of_isPiece full), pauses_pause, pieces_piece _ full,
      pieces_cons _ rfl, ih]
  | short own part rest =>
    obtain ⟨none, none'⟩ := count_still rest
    rw [pauses_cons _ own, pieces_cons _ part, none, none']

end Streamed

/-! ## Entries -/

/-- Whether a call that is made for an entry neither writes, nor lists, nor gives control to the
hook. -/
structure Call.Minds (source dest : String) (c : Call) : Prop where
  unpaused : c.isPause = false
  unwritten : c.writes = false
  unlisted : c.isListing = false
  touches : c.Touches source dest

/-- Whether some calls are made for one entry, with the hook in its places. No directory was listed. -/
structure Handled (source dest : String) (t : List Exchange) : Prop where
  streamed : Streamed t
  touches : ∀ x ∈ t, x.call.Touches source dest
  unlisted : ∀ x ∈ t, x.listing? = none

namespace Handled

variable {source dest : String} {t t' : List Exchange}

theorem still (minds : ∀ x ∈ t, x.call.Minds source dest) : ∀ x ∈ t, x.IsStill :=
  fun x mem => ⟨(minds x mem).unpaused, (minds x mem).unwritten⟩

theorem nil : Handled source dest [] :=
  ⟨.nil, fun _ mem => absurd mem List.not_mem_nil, fun _ mem => absurd mem List.not_mem_nil⟩

theorem of_minds (minds : ∀ x ∈ t, x.call.Minds source dest) : Handled source dest t where
  streamed := .of_still (still minds)
  touches := fun x mem => (minds x mem).touches
  unlisted := fun x mem => Exchange.listing?_eq_none (minds x mem).unlisted

theorem after (minds : ∀ x ∈ t, x.call.Minds source dest) (h : Handled source dest t') :
    Handled source dest (t ++ t') where
  streamed := h.streamed.after (still minds)
  touches := List.forall_mem_append.mpr ⟨(of_minds minds).touches, h.touches⟩
  unlisted := List.forall_mem_append.mpr ⟨(of_minds minds).unlisted, h.unlisted⟩

theorem before (h : Handled source dest t) (minds : ∀ x ∈ t', x.call.Minds source dest) :
    Handled source dest (t ++ t') where
  streamed := h.streamed.before (still minds)
  touches := List.forall_mem_append.mpr ⟨h.touches, (of_minds minds).touches⟩
  unlisted := List.forall_mem_append.mpr ⟨h.unlisted, (of_minds minds).unlisted⟩

theorem note (h : Handled source dest t) (event : LogEvent) :
    Handled source dest (t ++ [⟨.log event, ()⟩]) :=
  h.before (List.forall_mem_singleton.mpr ⟨rfl, rfl, rfl, Program.touches_none rfl⟩)

/-- A piece that was written in full, the hook, and what is done then. -/
theorem piece {number : Int} {bytes : List UInt8} (h : Handled source dest t) :
    Handled source dest
      (⟨.write number bytes, .ok (bytes.length : Int)⟩ :: ⟨.pause, .ok ()⟩ :: t) where
  streamed := .piece (decide_eq_true rfl) h.streamed
  touches := List.forall_mem_cons.mpr ⟨Program.touches_none rfl,
    List.forall_mem_cons.mpr ⟨Program.touches_none rfl, h.touches⟩⟩
  unlisted := List.forall_mem_cons.mpr ⟨rfl, List.forall_mem_cons.mpr ⟨rfl, h.unlisted⟩⟩

/-- A write that was cut short, or that failed. -/
theorem short {number : Int} {bytes : List UInt8} {r : Except Fault Int}
    (part : (⟨.write number bytes, r⟩ : Exchange).isPiece = false) :
    Handled source dest [⟨.write number bytes, r⟩] where
  streamed := .short rfl part fun _ mem => absurd mem List.not_mem_nil
  touches := List.forall_mem_singleton.mpr (Program.touches_none rfl)
  unlisted := List.forall_mem_singleton.mpr rfl

theorem allNamesListed (h : Handled source dest t) : allNamesListed t = [] := by
  unfold HomeProvision.allNamesListed
  rw [List.filterMap_eq_nil_iff.mpr h.unlisted, List.flatMap_nil]

end Handled

/-! ## Directories -/

/-- A walk through some names of a directory, with the hook in its places: it gets control once before
every name, whatever that is and whatever becomes of it. -/
inductive Tour : (source dest : String) → (names : List String) → List Exchange → Prop
  | nil {source dest : String} : Tour source dest [] []
  /-- The names of the directory and its parent are passed over. -/
  | dots {source dest name : String} {names : List String} {t : List Exchange}
      (dots : (name = "." || name = "..") = true) (rest : Tour source dest names t) :
      Tour source dest (name :: names) (⟨.pause, .ok ()⟩ :: t)
  | entry {source dest name : String} {names : List String} {own t : List Exchange}
      (proper : ¬ (name = "." || name = "..") = true) (look : Except Fault Status)
      (handled : Handled (Path.join source name) (Path.join dest name) own)
      (rest : Tour source dest names t) :
      Tour source dest (name :: names)
        (⟨.pause, .ok ()⟩ :: ⟨.lstat (Path.join source name), look⟩ :: (own ++ t))
  /-- A directory whose listing came back is walked through as well. -/
  | directory {source dest name : String} {names inside : List String} {own below t : List Exchange}
      (proper : ¬ (name = "." || name = "..") = true) (look : Except Fault Status)
      (handled : Handled (Path.join source name) (Path.join dest name) own)
      (tour : Tour (Path.join source name) (Path.join dest name) inside below)
      (rest : Tour source dest names t) :
      Tour source dest (name :: names)
        (⟨.pause, .ok ()⟩ :: ⟨.lstat (Path.join source name), look⟩ ::
          (own ++ ⟨.list (Path.join source name), .ok inside⟩ :: below ++ t))

/-- What is done for one entry: some calls, and if a listing came back a walk through its names. -/
inductive Visit (source dest : String) : List Exchange → Prop
  | closed {own : List Exchange} (handled : Handled source dest own) : Visit source dest own
  | opened {own t : List Exchange} {names : List String} (handled : Handled source dest own)
      (tour : Tour source dest names t) :
      Visit source dest (own ++ ⟨.list source, .ok names⟩ :: t)

section

variable {source dest name : String} {names : List String} {own t t' : List Exchange}

/-- An entry and the entries after it. -/
theorem Tour.cons (rest : Tour source dest names t) (proper : ¬ (name = "." || name = "..") = true)
    (look : Except Fault Status) (visit : Visit (Path.join source name) (Path.join dest name) own) :
    Tour source dest (name :: names)
      (⟨.pause, .ok ()⟩ :: ⟨.lstat (Path.join source name), look⟩ :: (own ++ t)) := by
  cases visit with
  | closed handled => exact .entry proper look handled rest
  | opened handled tour => exact .directory proper look handled tour rest

/-- There are walks through all names. -/
theorem Tour.exists (source dest : String) (names : List String) :
    ∃ t, Tour source dest names t := by
  induction names with
  | nil => exact ⟨[], .nil⟩
  | cons name rest ih =>
    obtain ⟨t, tour⟩ := ih
    by_cases dots : (name = "." || name = "..") = true
    · exact ⟨_, .dots dots tour⟩
    · exact ⟨_, .entry dots (.error .limit) .nil tour⟩

theorem Visit.after (minds : ∀ x ∈ t, x.call.Minds source dest) (h : Visit source dest t') :
    Visit source dest (t ++ t') := by
  cases h with
  | closed handled => exact .closed (handled.after minds)
  | opened handled tour =>
    rw [← List.append_assoc]
    exact .opened (handled.after minds) tour

/-! ### Counting -/

/-- What is done for an entry in front of something else counts with its pieces only. -/
theorem Handled.count (h : Handled source dest own) (t : List Exchange) :
    pauses (own ++ t) = pieces own + pauses t ∧ pieces (own ++ t) = pieces own + pieces t ∧
      HomeProvision.allNamesListed (own ++ t) = HomeProvision.allNamesListed t := by
  rw [pauses_append, pieces_append, allNamesListed_append, h.streamed.count, h.allNamesListed]
  exact ⟨rfl, rfl, rfl⟩

/-- The hook gets control once for every name, here and below, and once for every piece. -/
theorem Tour.count (h : Tour source dest names t) :
    pauses t = names.length + (allNamesListed t).length + pieces t := by
  induction h with
  | nil => rfl
  | dots dots rest ih =>
    rw [pauses_pause, pieces_cons _ rfl, allNamesListed_cons _ rfl, ih, List.length_cons]
    omega
  | entry proper look handled rest ih =>
    obtain ⟨paused, written, named⟩ := handled.count _
    rw [pauses_pause, pieces_cons _ rfl, allNamesListed_cons _ rfl, pauses_cons _ rfl,
      pieces_cons _ rfl, allNamesListed_cons _ rfl, paused, written, named, ih, List.length_cons]
    omega
  | directory proper look handled tour rest ihBelow ih =>
    rw [List.append_assoc, List.cons_append]
    obtain ⟨paused, written, named⟩ := handled.count _
    rw [pauses_pause, pieces_cons _ rfl, allNamesListed_cons _ rfl, pauses_cons _ rfl,
      pieces_cons _ rfl, allNamesListed_cons _ rfl, paused, written, named, pauses_cons _ rfl,
      pieces_cons _ rfl, allNamesListed_listed, pauses_append, pieces_append, allNamesListed_append,
      ihBelow, ih, List.length_cons, List.length_append, List.length_append]
    omega

theorem Visit.count (h : Visit source dest t) :
    pauses t = (allNamesListed t).length + pieces t := by
  cases h with
  | closed handled =>
    rw [handled.allNamesListed, handled.streamed.count, List.length_nil, Nat.zero_add]
  | opened handled tour =>
    obtain ⟨paused, written, named⟩ := handled.count _
    rw [paused, written, named, pauses_cons _ rfl, pieces_cons _ rfl, allNamesListed_listed,
      tour.count, List.length_append]
    omega

/-! ### Between two calls of the hook -/

/-- A trace in beats: each begins with the hook, and then there are calls for one entry, of which one
writes at most. -/
inductive Beats : List Exchange → Prop
  | nil : Beats []
  | beat {source dest : String} {own t : List Exchange}
      (unpaused : ∀ x ∈ own, x.call.isPause = false)
      (touches : ∀ x ∈ own, x.call.Touches source dest)
      (few : own.countP (fun x => x.call.writes) ≤ 1) (rest : Beats t) :
      Beats (⟨.pause, .ok ()⟩ :: (own ++ t))

theorem Beats.append (h : Beats t) (h' : Beats t') : Beats (t ++ t') := by
  induction h with
  | nil => exact h'
  | beat unpaused touches few _ ih =>
    rw [List.cons_append, List.append_assoc]
    exact .beat unpaused touches few ih

/-- What is done for an entry goes in beats, with the first calls for it and what comes then. -/
theorem Streamed.beats {head : List Exchange} (h : Streamed own)
    (still : ∀ x ∈ head, x.IsStill) (touches : ∀ x ∈ head ++ own, x.call.Touches source dest)
    (rest : Beats t) : Beats (⟨.pause, .ok ()⟩ :: (head ++ own ++ t)) := by
  have unwritten {head : List Exchange} (still : ∀ x ∈ head, x.IsStill) :
      head.countP (fun x => x.call.writes) = 0 :=
    List.countP_eq_zero.mpr fun x mem => by simp [(still x mem).2]
  have one (x : Exchange) : [x].countP (fun x => x.call.writes) ≤ 1 := List.countP_le_length
  induction h generalizing head with
  | nil =>
    rw [List.append_nil] at touches ⊢
    refine .beat (fun x mem => (still x mem).1) touches ?_ rest
    rw [unwritten still]
    exact Nat.zero_le 1
  | @still x own first _ ih =>
    have moved : head ++ x :: own = head ++ [x] ++ own := by simp
    rw [moved] at touches ⊢
    refine ih (fun y mem => ?_) touches
    rcases List.mem_append.mp mem with mem | mem
    · exact still y mem
    · rw [List.mem_singleton.mp mem]
      exact first
  | @piece x own full _ ih =>
    obtain ⟨mine, others⟩ := List.forall_mem_append.mp touches
    obtain ⟨first, others⟩ := List.forall_mem_cons.mp others
    have moved : head ++ x :: ⟨.pause, .ok ()⟩ :: own ++ t =
        head ++ [x] ++ ⟨.pause, .ok ()⟩ :: ([] ++ own ++ t) := by simp
    rw [moved]
    refine .beat (List.forall_mem_append.mpr ⟨fun y mem => (still y mem).1, ?_⟩)
      (List.forall_mem_append.mpr ⟨mine, List.forall_mem_singleton.mpr first⟩) ?_
      (ih (fun _ mem => absurd mem List.not_mem_nil) (List.forall_mem_cons.mp others).2)
    · exact List.forall_mem_singleton.mpr (Exchange.not_isPause_of_isPiece full)
    · rw [List.countP_append, unwritten still, Nat.zero_add]
      exact one x
  | @short x own unpaused part quiet =>
    refine .beat (List.forall_mem_append.mpr ⟨fun y mem => (still y mem).1,
      List.forall_mem_cons.mpr ⟨unpaused, fun y mem => (quiet y mem).1⟩⟩) touches ?_ rest
    rw [List.countP_append, unwritten still, Nat.zero_add, ← List.singleton_append,
      List.countP_append, unwritten quiet]
    exact one x

theorem Handled.beats (h : Handled source dest own) (head : List Exchange)
    (minds : ∀ x ∈ head, x.call.Minds source dest) (rest : Beats t) :
    Beats (⟨.pause, .ok ()⟩ :: (head ++ own ++ t)) :=
  h.streamed.beats (Handled.still minds) (h.after minds).touches rest

theorem Handled.beats_listed (h : Handled source dest own) (head : List Exchange)
    (minds : ∀ x ∈ head, x.call.Minds source dest) (names : List String) (rest : Beats t) :
    Beats (⟨.pause, .ok ()⟩ :: (head ++ own ++ ⟨.list source, .ok names⟩ :: t)) := by
  have listed : ∀ x ∈ [(⟨.list source, .ok names⟩ : Exchange)], x.IsStill :=
    List.forall_mem_singleton.mpr ⟨rfl, rfl⟩
  have touches : ∀ x ∈ own ++ [(⟨.list source, .ok names⟩ : Exchange)], x.call.Touches source dest :=
    List.forall_mem_append.mpr ⟨h.touches,
      List.forall_mem_singleton.mpr (Program.touches_source rfl rfl)⟩
  have beats := (h.streamed.before listed).beats (Handled.still minds)
    (List.forall_mem_append.mpr ⟨(Handled.of_minds minds).touches, touches⟩) rest
  simpa using beats

theorem Call.minds_lstat (source dest : String) : (Call.lstat source).Minds source dest :=
  ⟨rfl, rfl, rfl, Program.touches_source rfl rfl⟩

theorem Tour.beats (h : Tour source dest names t) : Beats t := by
  induction h with
  | nil => exact .nil
  | @dots source dest _ _ _ dots rest ih =>
    have nothing : Handled source dest [] := .nil
    exact nothing.beats [] (fun _ mem => absurd mem List.not_mem_nil) ih
  | entry proper look handled rest ih =>
    exact handled.beats [_] (List.forall_mem_singleton.mpr (Call.minds_lstat _ _)) ih
  | @directory _ _ _ _ inside _ _ _ proper look handled tour rest ihBelow ih =>
    have beats := handled.beats_listed [⟨.lstat _, look⟩]
      (List.forall_mem_singleton.mpr (Call.minds_lstat _ _)) inside (ihBelow.append ih)
    simpa using beats

/-- What is done for an entry goes in beats from the time on that the hook gets control for it. -/
theorem Visit.beats (h : Visit source dest t) (head : List Exchange)
    (minds : ∀ x ∈ head, x.call.Minds source dest) : Beats (⟨.pause, .ok ()⟩ :: (head ++ t)) := by
  cases h with
  | closed handled =>
    have beats := handled.beats head minds .nil
    rwa [List.append_nil] at beats
  | @opened _ _ names handled tour =>
    have beats := handled.beats_listed head minds names tour.beats
    rwa [List.append_assoc] at beats

/-- A part of a trace without the hook that begins with a beat belongs to that. -/
theorem Beats.prefix_of_unpaused {during after : List Exchange} (h : Beats t)
    (same : own ++ t = during ++ after) (unpaused : ∀ x ∈ during, x.call.isPause = false) :
    during <+: own := by
  rcases List.append_eq_append_iff.mp same with ⟨more, rfl, rest⟩ | ⟨more, rfl, _⟩
  · cases more with
    | nil => simp
    | cons x more =>
      cases h with
      | nil => cases rest
      | beat =>
        obtain ⟨rfl, _⟩ := List.cons.inj rest
        cases unpaused _ (List.mem_append_right _ List.mem_cons_self)
  · exact List.prefix_append during more

/-- From one call of the hook to the next, one entry is handled and one piece is written at most. -/
theorem Beats.between (h : Beats t) (before : List Exchange) {during after : List Exchange}
    {r : Except Fault Unit} (same : t = before ++ ⟨.pause, r⟩ :: (during ++ after))
    (unpaused : ∀ x ∈ during, x.call.isPause = false) :
    (∃ source dest, ∀ x ∈ during, x.call.Touches source dest) ∧
      during.countP (fun x => x.call.writes) ≤ 1 := by
  induction h generalizing before with
  | nil => simp at same
  | @beat source dest own t quiet touches few rest ih =>
    cases before with
    | nil =>
      have inside := rest.prefix_of_unpaused (List.cons.inj same).2 unpaused
      exact ⟨⟨source, dest, fun x mem => touches x (inside.subset mem)⟩,
        Nat.le_trans inside.sublist.countP_le few⟩
    | cons x before =>
      rcases List.append_eq_append_iff.mp (List.cons.inj same).2 with
        ⟨more, _, split⟩ | ⟨more, rfl, split⟩
      · exact ih more split
      · cases more with
        | nil => exact ih [] split.symm
        | cons y more =>
          obtain ⟨rfl, _⟩ := List.cons.inj split
          cases quiet _ (List.mem_append_right _ List.mem_cons_self)

end

/-! ## The way to a home -/

/-- Whether a call that is made on a way does not give control to the hook and has no path but one. -/
structure Call.Stays (path : String) (c : Call) : Prop where
  unpaused : c.isPause = false
  covered : c.Covered (· = path)

/-- A walk along some segments. Each of them is looked at first, and the hook gets control once after
all calls for it. -/
inductive Stepped : (segments : List String) → List Exchange → Prop
  | nil : Stepped [] []
  | cons {segment : String} {segments : List String} {own t : List Exchange}
      (look : Except Fault Status) (stays : ∀ x ∈ own, x.call.Stays segment)
      (rest : Stepped segments t) :
      Stepped (segment :: segments) (⟨.stat segment, look⟩ :: (own ++ ⟨.pause, .ok ()⟩ :: t))

/-- The way to a home: if the path leads to something already, nothing else is done. Otherwise all of
its segments are walked along, and in the end the path may be looked at again. -/
inductive Walked (path : String) : List Exchange → Prop
  | there (status : Status) : Walked path [⟨.stat path, .ok status⟩]
  | missing {steps last : List Exchange} (f : Fault) (event : LogEvent)
      (stepped : Stepped (Path.ancestors path) steps) (stays : ∀ x ∈ last, x.call.Stays path) :
      Walked path (⟨.stat path, .error f⟩ :: ⟨.log event, ()⟩ :: (steps ++ last))

section

variable {path segment : String} {segments : List String} {own t : List Exchange}

theorem pauses_stays (stays : ∀ x ∈ own, x.call.Stays segment) : pauses own = 0 :=
  List.countP_eq_zero.mpr fun x mem => by simp [(stays x mem).unpaused]

theorem Stepped.count (h : Stepped segments t) : pauses t = segments.length := by
  induction h with
  | nil => rfl
  | cons look stays rest ih =>
    rw [pauses_cons _ rfl, pauses_append, pauses_stays stays, pauses_pause, ih, List.length_cons]
    omega

/-- There are walks along all segments. -/
theorem Stepped.exists (segments : List String) : ∃ t, Stepped segments t := by
  induction segments with
  | nil => exact ⟨[], .nil⟩
  | cons segment rest ih =>
    obtain ⟨t, stepped⟩ := ih
    have calls : ∀ x ∈ ([] : List Exchange), x.call.Stays segment :=
      fun _ mem => absurd mem List.not_mem_nil
    exact ⟨_, .cons (.error .limit) calls stepped⟩

/-- The way may end behind its segments. -/
theorem Walked.of_stepped (f : Fault) (event : LogEvent) (h : Stepped (Path.ancestors path) t) :
    Walked path (⟨.stat path, .error f⟩ :: ⟨.log event, ()⟩ :: t) := by
  have calls : ∀ x ∈ ([] : List Exchange), x.call.Stays path :=
    fun _ mem => absurd mem List.not_mem_nil
  have walked := Walked.missing f event h calls
  rwa [List.append_nil] at walked

theorem Walked.count (h : Walked path t) :
    ∃ look after, t = ⟨.stat path, look⟩ :: after ∧
      pauses t = if look.isOk then 0 else (Path.ancestors path).length := by
  cases h with
  | there status => exact ⟨.ok status, [], rfl, rfl⟩
  | missing f event stepped stays =>
    refine ⟨.error f, _, rfl, ?_⟩
    rw [pauses_cons _ rfl, pauses_cons _ rfl, pauses_append, stepped.count, pauses_stays stays]
    rfl

theorem Call.Minds.stays {c : Call} (minds : c.Minds path path) : c.Stays path where
  unpaused := minds.unpaused
  covered := fun p own => (minds.touches p own).elim id And.left

end

/-! ## Runs that are cut off -/

/-- Whether a trace is what it should be, or a first part of that if the run came to no result. -/
def CutFrom {α : Type} (whole : List Exchange → Prop) (out : Except Fault α) (t : List Exchange) :
    Prop :=
  ∃ rest, (∀ a, out = .ok a → rest = []) ∧ whole (t ++ rest)

namespace CutFrom

variable {α β : Type} {whole whole' : List Exchange → Prop} {out : Except Fault α}
  {t t' : List Exchange}

theorem of_whole (h : whole t) (out : Except Fault α) : CutFrom whole out t :=
  ⟨[], fun _ _ => rfl, by rwa [List.append_nil]⟩

theorem whole_of_ok {a : α} (h : CutFrom whole (.ok a) t) : whole t := by
  obtain ⟨rest, none, holds⟩ := h
  rwa [none a rfl, List.append_nil] at holds

/-- A run that came to no result is a first part of every longer one. -/
theorem of_error {f : Fault} (h : CutFrom whole (.error f : Except Fault α) t)
    (before : List Exchange) (longer : ∀ t, whole t → ∃ t', whole' (before ++ (t ++ t'))) :
    CutFrom whole' (.error f : Except Fault β) (before ++ t) := by
  obtain ⟨rest, _, holds⟩ := h
  obtain ⟨more, holds⟩ := longer _ holds
  exact ⟨rest ++ more, fun _ bad => (by cases bad), by simpa using holds⟩

theorem after (h : CutFrom whole out t') (onward : ∀ t', whole t' → whole' (t ++ t')) :
    CutFrom whole' out (t ++ t') := by
  obtain ⟨rest, none, holds⟩ := h
  exact ⟨rest, none, by rw [List.append_assoc]; exact onward _ holds⟩

end CutFrom

end HomeProvision
