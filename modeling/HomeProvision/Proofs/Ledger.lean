import HomeProvision.Proofs.Trace

/-!
# Descriptors on loan

A descriptor is on loan from the call that opens it to the call that closes it. `GivenBack` says of
a trace that every descriptor in it was given back: it is closed once, and from then on not used,
until the system may hand out the same number again.

The ledger of a trace is the list of the descriptors that are on loan after it. It cannot be kept if
a descriptor is used, closed or handed out out of turn. A trace whose ledger starts and ends empty
gives everything back (`givenBack_of_ledger`).
-/

namespace HomeProvision

/-! ## Loans in a trace -/

/-- What can be done with a descriptor. -/
inductive Handling where
  | opens (n : Int)
  | uses (n : Int)
  | closes (n : Int)
  deriving Repr, DecidableEq

/-- What an exchange does with a descriptor, if it does anything. -/
def Exchange.handling? : Exchange → Option Handling
  | ⟨.openRead _, .ok n⟩ => some (.opens n)
  | ⟨.openExclusive _ _, .ok n⟩ => some (.opens n)
  | ⟨.read n _, _⟩ => some (.uses n)
  | ⟨.write n _, _⟩ => some (.uses n)
  | ⟨.close n, _⟩ => some (.closes n)
  | _ => none

/-- Whether a descriptor is neither used nor closed unless it is opened before. -/
def Untouched (n : Int) (t : List Exchange) : Prop :=
  ∀ before x after, t = before ++ x :: after → (∀ y ∈ before, y.handling? ≠ some (.opens n)) →
    x.handling? ≠ some (.uses n) ∧ x.handling? ≠ some (.closes n)

/-- Whether a descriptor that is open at the start is closed once and not used after that. -/
def Returned (n : Int) (t : List Exchange) : Prop :=
  ∃ use closing rest, t = use ++ closing :: rest ∧
    (∀ x ∈ use, x.handling? ≠ some (.opens n) ∧ x.handling? ≠ some (.closes n)) ∧
    closing.handling? = some (.closes n) ∧ Untouched n rest

/-- Whether every descriptor that is opened is closed once and not used after that. -/
def GivenBack (t : List Exchange) : Prop :=
  ∀ before x after n, t = before ++ x :: after → x.handling? = some (.opens n) → Returned n after

/-! ## The ledger -/

/-- The descriptors on loan after one exchange, if it keeps to those that it may use. -/
def lend (loans : List Int) (x : Exchange) : Option (List Int) :=
  match x.handling? with
  | some (.opens n) => if n ∈ loans then none else some (n :: loans)
  | some (.uses n) => if n ∈ loans then some loans else none
  | some (.closes n) => if n ∈ loans then some (loans.filter (· ≠ n)) else none
  | none => some loans

/-- The descriptors on loan after a trace, if it keeps to those that it may use. -/
def ledger (book : Option (List Int)) (t : List Exchange) : Option (List Int) :=
  t.foldl (fun book x => book.bind (lend · x)) book

variable {n : Int} {loans loans' : List Int} {x : Exchange} {t : List Exchange}

theorem ledger_none (t : List Exchange) : ledger none t = none := by
  induction t with
  | nil => rfl
  | cons x rest ih => exact ih

theorem ledger_append (book : Option (List Int)) (t t' : List Exchange) :
    ledger book (t ++ t') = ledger (ledger book t) t' :=
  List.foldl_append

/-- A ledger that is kept over some exchanges is kept over the first of them. -/
theorem ledger_cons (kept : ledger (some loans) (x :: t) = some loans') :
    ∃ next, lend loans x = some next ∧ ledger (some next) t = some loans' := by
  change ledger (lend loans x) t = some loans' at kept
  cases first : lend loans x with
  | none => rw [first, ledger_none] at kept; cases kept
  | some next => exact ⟨next, rfl, first ▸ kept⟩

theorem lend_opens (opens : x.handling? = some (.opens n)) (free : n ∉ loans) :
    lend loans x = some (n :: loans) := by
  simp only [lend, opens, if_neg free]

theorem lend_uses (uses : x.handling? = some (.uses n)) (held : n ∈ loans) :
    lend loans x = some loans := by
  simp only [lend, uses, if_pos held]

theorem lend_closes (closes : x.handling? = some (.closes n)) (free : n ∉ loans) :
    lend (n :: loans) x = some loans := by
  have others : loans.filter (· ≠ n) = loans :=
    List.filter_eq_self.mpr fun k mem => decide_eq_true fun same => free (same ▸ mem)
  simp only [lend, closes, List.mem_cons_self, if_true, ne_eq, not_true_eq_false, decide_false,
    Bool.false_eq_true, not_false_eq_true, List.filter_cons_of_neg]
  exact congrArg some others

theorem lend_other (other : x.handling? = none) : lend loans x = some loans := by
  simp only [lend, other]

/-- A descriptor that is not on loan is neither used nor closed, and stays so unless it is
opened. -/
theorem lend_of_not_mem (kept : lend loans x = some loans') (free : n ∉ loans) :
    x.handling? ≠ some (.uses n) ∧ x.handling? ≠ some (.closes n) ∧
      (x.handling? ≠ some (.opens n) → n ∉ loans') := by
  unfold lend at kept
  split at kept
  · next m opens =>
    split at kept <;> cases kept
    rw [opens]
    refine ⟨by simp, by simp, fun differs => ?_⟩
    simpa [free] using fun same : n = m => differs (congrArg _ (congrArg _ same.symm))
  · next m uses =>
    split at kept <;> cases kept
    next held =>
    rw [uses]
    exact ⟨fun same => by cases same; exact free held, by simp, fun _ => free⟩
  · next m closes =>
    split at kept <;> cases kept
    next held =>
    rw [closes]
    exact ⟨by simp, fun same => by cases same; exact free held,
      fun _ mem => free (List.mem_filter.mp mem).1⟩
  · next other =>
    cases kept
    rw [other]
    exact ⟨by simp, by simp, fun _ => free⟩

/-- A descriptor that is on loan is not opened again, and it stays on loan until it is closed. -/
theorem lend_of_mem (kept : lend loans x = some loans') (held : n ∈ loans) :
    x.handling? ≠ some (.opens n) ∧ (x.handling? ≠ some (.closes n) → n ∈ loans') ∧
      (x.handling? = some (.closes n) → n ∉ loans') := by
  unfold lend at kept
  split at kept
  · next m opens =>
    split at kept <;> cases kept
    next free =>
    rw [opens]
    exact ⟨fun same => by cases same; exact free held, fun _ => List.mem_cons_of_mem _ held,
      by simp⟩
  · next m uses =>
    split at kept <;> cases kept
    rw [uses]
    exact ⟨by simp, fun _ => held, by simp⟩
  · next m closes =>
    split at kept <;> cases kept
    rw [closes]
    refine ⟨by simp, fun differs => List.mem_filter.mpr ⟨held, ?_⟩, fun same mem => ?_⟩
    · exact decide_eq_true fun same => differs (congrArg _ (congrArg _ same.symm))
    · cases same
      simp at mem
  · next other =>
    cases kept
    rw [other]
    exact ⟨by simp, fun _ => held, by simp⟩

/-! ## What a kept ledger says -/

theorem untouched_of_ledger (free : n ∉ loans) (kept : ledger (some loans) t = some loans') :
    Untouched n t := by
  induction t generalizing loans with
  | nil => exact fun before x after split _ => absurd split (by simp)
  | cons first rest ih =>
    obtain ⟨next, lent, kept⟩ := ledger_cons kept
    obtain ⟨unused, unclosed, still⟩ := lend_of_not_mem lent free
    intro before x after split fresh
    cases before with
    | nil =>
      cases split
      exact ⟨unused, unclosed⟩
    | cons y before =>
      cases split
      exact ih (still (fresh _ List.mem_cons_self)) kept before x after rfl
        fun z mem => fresh z (List.mem_cons_of_mem _ mem)

theorem returned_of_ledger (held : n ∈ loans) (kept : ledger (some loans) t = some loans')
    (ended : n ∉ loans') : Returned n t := by
  induction t generalizing loans with
  | nil =>
    cases kept
    exact absurd held ended
  | cons first rest ih =>
    obtain ⟨next, lent, kept⟩ := ledger_cons kept
    obtain ⟨fresh, still, gone⟩ := lend_of_mem lent held
    by_cases closes : first.handling? = some (.closes n)
    · exact ⟨[], first, rest, rfl, fun _ mem => absurd mem List.not_mem_nil, closes,
        untouched_of_ledger (gone closes) kept⟩
    · obtain ⟨use, closing, after, split, spared, closed, idle⟩ := ih (still closes) kept
      exact ⟨first :: use, closing, after, congrArg (List.cons first) split,
        List.forall_mem_cons.mpr ⟨⟨fresh, closes⟩, spared⟩, closed, idle⟩

/-- Where the ledger is empty before and after, everything that was opened is given back. -/
theorem givenBack_of_ledger (kept : ledger (some []) t = some []) : GivenBack t := by
  intro before x after n split opens
  rw [split, ledger_append] at kept
  cases start : ledger (some []) before with
  | none => rw [start, ledger_none] at kept; cases kept
  | some loans =>
    rw [start] at kept
    obtain ⟨next, lent, kept⟩ := ledger_cons kept
    have now : n ∈ next := by
      unfold lend at lent
      rw [opens] at lent
      dsimp only at lent
      split at lent <;> cases lent
      exact List.mem_cons_self
    exact returned_of_ledger now kept List.not_mem_nil

end HomeProvision
