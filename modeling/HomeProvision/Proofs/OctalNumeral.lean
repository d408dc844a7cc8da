import HomeProvision.Proofs.Numerals

/-!
# How numerals in base eight are written

A numeral in base eight is written with blanks around it, a sign, the mark of the base and digits, of
which only the digits are required (`SpellsOctal`). What is read as a number is written in this way,
and what is written in this way is read as that number (`octal?_eq_some_iff`).

The reader replaces the digits of all scripts by ASCII ones before it looks at a numeral. No other
character is taken for a part of a numeral by that (`plainDigit_eq_iff`).
-/

namespace HomeProvision.Number

open HomeProvision.Text

/-! ## Spellings -/

/-- What is written for digits of base eight, in any script and with single underscores between them,
and the digits. -/
inductive SpellsDigits : (written : List Char) → (digits : List Nat) → Prop
  | last {c : Char} {d : Nat} (digit : digitValue? c = some d) (small : d < 8) :
      SpellsDigits [c] [d]
  | next {c : Char} {d : Nat} {w : List Char} {ds : List Nat} (digit : digitValue? c = some d)
      (small : d < 8) (rest : SpellsDigits w ds) : SpellsDigits (c :: w) (d :: ds)
  | parted {c : Char} {d : Nat} {w : List Char} {ds : List Nat} (digit : digitValue? c = some d)
      (small : d < 8) (rest : SpellsDigits w ds) : SpellsDigits (c :: '_' :: w) (d :: ds)

/-- What is written for a sign, true for minus. -/
inductive SpellsSign : (written : List Char) → (negative : Bool) → Prop
  | none : SpellsSign [] false
  | plus : SpellsSign ['+'] false
  | minus : SpellsSign ['-'] true

/-- What is written for the mark of base eight, which may be missing. Its zero is one of any script. -/
inductive SpellsMark : (written : List Char) → Prop
  | none : SpellsMark []
  | letter {z m : Char} (zero : digitValue? z = some 0) (mark : m = 'o' ∨ m = 'O') :
      SpellsMark [z, m]
  | parted {z m : Char} (zero : digitValue? z = some 0) (mark : m = 'o' ∨ m = 'O') :
      SpellsMark [z, m, '_']

/-- What is written for a number in base eight. -/
inductive SpellsOctal : (written : List Char) → Int → Prop
  | mk {before sign mark digits after : List Char} {negative : Bool} {ds : List Nat}
      (blank : ∀ c ∈ before, isNumeralBlank c = true) (blank' : ∀ c ∈ after, isNumeralBlank c = true)
      (signed : SpellsSign sign negative) (marked : SpellsMark mark)
      (spells : SpellsDigits digits ds) :
      SpellsOctal (before ++ (sign ++ (mark ++ digits)) ++ after)
        (withSign negative (ofDigits 8 ds))

/-! ## Characters -/

section

variable {c m : Char} {d : Nat}

theorem digitValue?_lt (digit : digitValue? c = some d) : d < 10 := by
  unfold digitValue? at digit
  split at digit
  · split at digit
    · next decimal =>
      have high : c.toNat ≤ 57 := (Char.isDigit_iff_toNat.mp decimal).2
      cases digit
      change c.toNat - 48 < 10
      omega
    · cases digit
  · obtain ⟨first, found, rfl⟩ := Option.map_eq_some_iff.mp digit
    have inside := List.find?_some found
    simp only [Bool.and_eq_true, decide_eq_true_eq] at inside
    omega

theorem digitValue?_ascii (ascii : m.toNat < 0x80) (other : m.isDigit = false) :
    digitValue? m = none := by
  unfold digitValue?
  rw [if_pos ascii, other]
  rfl

/-- The ASCII digits are digits below ten and nothing else of a numeral. -/
theorem hexDigit_isDigit : ∀ d < 10, (hexDigit d).isDigit = true ∧
    digitBelow? 8 (hexDigit d) = (if d < 8 then some d else none) ∧
    (hexDigit d = '0' → d = 0) := by
  decide

/-- The reader takes no other character for one that is no digit. -/
theorem plainDigit_eq_iff (ascii : m.toNat < 0x80) (other : m.isDigit = false) :
    plainDigit c = m ↔ c = m := by
  unfold plainDigit
  constructor
  · intro same
    split at same
    · next d digit =>
      have decimal := (hexDigit_isDigit d (digitValue?_lt digit)).1
      rw [same, other] at decimal
      cases decimal
    · exact same
  · rintro rfl
    rw [digitValue?_ascii ascii other]

theorem plainDigit_eq_zero : plainDigit c = '0' ↔ digitValue? c = some 0 := by
  unfold plainDigit
  constructor
  · intro same
    split at same
    · next d digit => rwa [(hexDigit_isDigit d (digitValue?_lt digit)).2.2 same] at digit
    · next none =>
      subst same
      cases none
  · intro zero
    rw [zero]
    rfl

theorem digitBelow?_plainDigit :
    digitBelow? 8 (plainDigit c) = some d ↔ digitValue? c = some d ∧ d < 8 := by
  unfold plainDigit
  split
  · next e digit =>
    rw [(hexDigit_isDigit e (digitValue?_lt digit)).2.1, digit]
    split <;> simp <;> omega
  · next none =>
    have other : c.isDigit = false := by
      cases decimal : c.isDigit with
      | false => rfl
      | true =>
        have high : c.toNat ≤ 57 := (Char.isDigit_iff_toNat.mp decimal).2
        have ascii : c.toNat < 0x80 := by omega
        rw [digitValue?, if_pos ascii, decimal] at none
        cases none
    simp [digitBelow?, other, none]

/-- No blank is a digit. -/
theorem digitValue?_blank (blank : isNumeralBlank c = true) : digitValue? c = none := by
  have spaces : ∀ first ∈ scriptZeros, first + 10 ≤ 0x2000 ∨ 0x200a < first := by decide
  simp only [isNumeralBlank, isPlainBlank, isWideBlank, Bool.or_eq_true, Bool.and_eq_true,
    decide_eq_true_eq] at blank
  rcases blank with (rfl | ⟨low, high⟩) | ((((((((rfl | rfl) | rfl) | ⟨low, high⟩) | rfl) | rfl) |
    rfl) | rfl) | rfl)
  case inl.inr =>
    have low : 9 ≤ c.toNat := low
    have high : c.toNat ≤ 13 := high
    refine digitValue?_ascii (by omega) ?_
    cases decimal : c.isDigit with
    | false => rfl
    | true =>
      have low' : 48 ≤ c.toNat := (Char.isDigit_iff_toNat.mp decimal).1
      omega
  case inr.inl.inl.inl.inl.inl.inr =>
    have low : 0x2000 ≤ c.toNat := low
    have high : c.toNat ≤ 0x200a := high
    rw [digitValue?, if_neg (by omega), Option.map_eq_none_iff, List.find?_eq_none]
    intro first mem
    have := spaces first mem
    simp only [Bool.and_eq_true, decide_eq_true_eq]
    omega
  all_goals decide

end

/-! ## Digits -/

section

variable {base : Nat} {c e : Char} {cs : List Char} {ds : List Nat}

theorem groupedDigits?_parted : groupedDigits? base (c :: '_' :: cs) = some ds ↔
    ∃ d rest, digitBelow? base c = some d ∧ groupedDigits? base cs = some rest ∧ ds = d :: rest := by
  rw [groupedDigits?]
  cases digitBelow? base c <;> cases groupedDigits? base cs <;> simp [eq_comm]

theorem groupedDigits?_next (digit : e ≠ '_') : groupedDigits? base (c :: e :: cs) = some ds ↔
    ∃ d rest, digitBelow? base c = some d ∧ groupedDigits? base (e :: cs) = some rest ∧
      ds = d :: rest := by
  rw [groupedDigits?.eq_4 base c (e :: cs) (by simp) fun rest same => digit (List.cons.inj same).1]
  cases digitBelow? base c <;> cases groupedDigits? base (e :: cs) <;> simp [eq_comm]

theorem SpellsDigits.head {w : List Char} (spells : SpellsDigits (c :: w) ds) :
    ∃ d, digitValue? c = some d := by
  cases spells with
  | last digit | next digit | parted digit => exact ⟨_, digit⟩

theorem plainDigit_eq_underscore : plainDigit c = '_' ↔ c = '_' :=
  plainDigit_eq_iff (by decide) rfl

/-- Digits are read as they are written. -/
theorem SpellsDigits.read {w : List Char} (spells : SpellsDigits w ds) :
    groupedDigits? 8 (w.map plainDigit) = some ds := by
  induction spells with
  | last digit small =>
    rw [List.map_singleton, groupedDigits?, digitBelow?_plainDigit.mpr ⟨digit, small⟩]
    rfl
  | @next c d w ds digit small rest ih =>
    cases w with
    | nil => cases rest
    | cons e w =>
      -- a digit follows, so nothing parts the two
      have solid : plainDigit e ≠ '_' := by
        intro same
        obtain ⟨_, digit⟩ := rest.head
        rw [plainDigit_eq_underscore.mp same] at digit
        cases digit
      exact (groupedDigits?_next solid).mpr
        ⟨d, ds, digitBelow?_plainDigit.mpr ⟨digit, small⟩, ih, rfl⟩
  | parted digit small _ ih =>
    rw [List.map_cons, List.map_cons, plainDigit_eq_underscore.mpr rfl]
    exact groupedDigits?_parted.mpr ⟨_, _, digitBelow?_plainDigit.mpr ⟨digit, small⟩, ih, rfl⟩

/-- What is read as digits is written as them. -/
theorem spells_of_groupedDigits? : (w : List Char) → (ds : List Nat) →
    groupedDigits? 8 (w.map plainDigit) = some ds → SpellsDigits w ds
  | [], ds, read => by cases read
  | [c], ds, read => by
    rw [List.map_singleton, groupedDigits?, Option.map_eq_some_iff] at read
    obtain ⟨d, digit, rfl⟩ := read
    obtain ⟨digit, small⟩ := digitBelow?_plainDigit.mp digit
    exact .last digit small
  | c :: e :: rest, ds, read => by
    by_cases group : e = '_'
    · rw [List.map_cons, List.map_cons, plainDigit_eq_underscore.mpr group] at read
      obtain ⟨d, ds, digit, others, rfl⟩ := groupedDigits?_parted.mp read
      obtain ⟨digit, small⟩ := digitBelow?_plainDigit.mp digit
      rw [group]
      exact .parted digit small (spells_of_groupedDigits? rest ds others)
    · have solid : plainDigit e ≠ '_' := fun same => group (plainDigit_eq_underscore.mp same)
      obtain ⟨d, ds, digit, others, rfl⟩ := (groupedDigits?_next solid).mp read
      obtain ⟨digit, small⟩ := digitBelow?_plainDigit.mp digit
      exact .next digit small (spells_of_groupedDigits? (e :: rest) ds others)

end

/-! ## Signs and marks -/

section

variable {w sign mark digits cs : List Char} {ds : List Nat} {negative : Bool} {c : Char}

theorem splitSign_spells (cs : List Char) :
    ∃ sign, SpellsSign sign (splitSign cs).1 ∧ cs = sign ++ (splitSign cs).2 := by
  unfold splitSign
  split
  · exact ⟨['-'], .minus, rfl⟩
  · exact ⟨['+'], .plus, rfl⟩
  · exact ⟨[], .none, rfl⟩

theorem splitSign_append (signed : SpellsSign sign negative)
    (unsigned : ∀ rest, cs ≠ '-' :: rest ∧ cs ≠ '+' :: rest) :
    splitSign (sign ++ cs) = (negative, cs) := by
  cases signed with
  | plus | minus => rfl
  | none =>
    rw [List.nil_append]
    unfold splitSign
    split
    · exact absurd rfl (unsigned _).1
    · exact absurd rfl (unsigned _).2
    · rfl

/-- The first digit as the reader sees it is no other part of a numeral. -/
theorem SpellsDigits.map_plainDigit (spells : SpellsDigits w ds) :
    ∃ c rest, w.map plainDigit = c :: rest ∧ c ≠ '-' ∧ c ≠ '+' ∧ c ≠ '_' ∧ c ≠ 'o' ∧ c ≠ 'O' := by
  cases w with
  | nil => cases spells
  | cons c w =>
    obtain ⟨d, digit⟩ := spells.head
    refine ⟨_, _, rfl, ?_⟩
    have other : ∀ m : Char, m.toNat < 0x80 → m.isDigit = false → plainDigit c ≠ m := by
      intro m ascii other same
      rw [(plainDigit_eq_iff ascii other).mp same, digitValue?_ascii ascii other] at digit
      cases digit
    exact ⟨other _ (by decide) rfl, other _ (by decide) rfl, other _ (by decide) rfl,
      other _ (by decide) rfl, other _ (by decide) rfl⟩

theorem dropOctalMark_letter {m : Char} (mark : m = 'o' ∨ m = 'O') (other : ∀ rest, cs ≠ '_' :: rest) :
    dropOctalMark ('0' :: m :: cs) = cs := by
  rw [dropOctalMark, if_pos (by simpa using mark)]
  exact other

theorem dropOctalMark_parted {m : Char} (mark : m = 'o' ∨ m = 'O') :
    dropOctalMark ('0' :: m :: '_' :: cs) = cs := by
  rw [dropOctalMark, if_pos (by simpa using mark)]

theorem dropOctalMark_none (other : ∀ m rest, cs = '0' :: m :: rest → ¬ (m = 'o' ∨ m = 'O')) :
    dropOctalMark cs = cs := by
  unfold dropOctalMark
  split
  · exact if_neg (by simpa using other _ _ rfl)
  · rfl

theorem plainDigit_mark {m : Char} : plainDigit m = 'o' ∨ plainDigit m = 'O' ↔ m = 'o' ∨ m = 'O' := by
  rw [plainDigit_eq_iff (by decide) rfl, plainDigit_eq_iff (by decide) rfl]

/-- What the reader drops is a mark. -/
theorem dropOctalMark_spells (w : List Char) : ∃ mark digits, SpellsMark mark ∧ w = mark ++ digits ∧
    dropOctalMark (w.map plainDigit) = digits.map plainDigit := by
  by_cases marked : ∃ z m rest, w = z :: m :: rest ∧ digitValue? z = some 0 ∧ (m = 'o' ∨ m = 'O')
  · obtain ⟨z, m, rest, rfl, zero, mark⟩ := marked
    rw [List.map_cons, List.map_cons, plainDigit_eq_zero.mpr zero]
    by_cases parted : ∃ rest', rest = '_' :: rest'
    · obtain ⟨rest, rfl⟩ := parted
      exact ⟨_, rest, .parted zero mark, rfl, dropOctalMark_parted (plainDigit_mark.mpr mark)⟩
    · refine ⟨_, rest, .letter zero mark, rfl, dropOctalMark_letter (plainDigit_mark.mpr mark) ?_⟩
      intro rest' same
      obtain ⟨c, rest, rfl, underscore, -⟩ := List.map_eq_cons_iff.mp same
      exact parted ⟨rest, by rw [(plainDigit_eq_iff (by decide) rfl).mp underscore]⟩
  · refine ⟨[], w, .none, rfl, dropOctalMark_none fun m rest same mark => marked ?_⟩
    obtain ⟨z, w, rfl, zero, same⟩ := List.map_eq_cons_iff.mp same
    obtain ⟨m, rest, rfl, rfl, -⟩ := List.map_eq_cons_iff.mp same
    exact ⟨z, m, rest, rfl, plainDigit_eq_zero.mp zero, plainDigit_mark.mp mark⟩

/-- A mark and digits begin with no sign. -/
theorem SpellsMark.starts (marked : SpellsMark mark) (spells : SpellsDigits digits ds) :
    ∃ c rest, (mark ++ digits).map plainDigit = c :: rest ∧ c ≠ '-' ∧ c ≠ '+' := by
  cases marked with
  | none =>
    obtain ⟨c, rest, starts, minus, plus, -⟩ := spells.map_plainDigit
    exact ⟨c, rest, starts, minus, plus⟩
  | letter zero | parted zero =>
    exact ⟨_, _, by rw [List.cons_append, List.map_cons, plainDigit_eq_zero.mpr zero], by decide,
      by decide⟩

/-- A mark is dropped. -/
theorem dropOctalMark_append (marked : SpellsMark mark) (spells : SpellsDigits digits ds) :
    dropOctalMark ((mark ++ digits).map plainDigit) = digits.map plainDigit := by
  obtain ⟨c, rest, starts, -, -, underscore, -⟩ := spells.map_plainDigit
  cases marked with
  | letter zero mark =>
    rw [List.map_append, List.map_cons, List.map_singleton, plainDigit_eq_zero.mpr zero]
    refine dropOctalMark_letter (plainDigit_mark.mpr mark) fun rest' same => underscore ?_
    exact (List.cons.inj (starts.symm.trans same)).1
  | parted zero mark =>
    rw [List.map_append, List.map_cons, plainDigit_eq_zero.mpr zero]
    exact dropOctalMark_parted (plainDigit_mark.mpr mark)
  | none =>
    refine dropOctalMark_none fun m rest same mark => ?_
    -- the second character is a digit or an underscore
    cases spells with
    | last => cases (List.cons.inj same).2
    | next _ _ spells =>
      obtain ⟨c, rest, starts, -, -, -, low, high⟩ := spells.map_plainDigit
      obtain ⟨rfl, -⟩ := List.cons.inj (starts.symm.trans (List.cons.inj same).2)
      exact mark.elim low high
    | parted =>
      obtain ⟨rfl, -⟩ := List.cons.inj (List.cons.inj same).2
      exact absurd mark (by decide)

end

/-! ## Blanks -/

theorem not_blank_of_digit {c : Char} {d : Nat} (digit : digitValue? c = some d) :
    isNumeralBlank c = false := by
  cases blank : isNumeralBlank c with
  | false => rfl
  | true => rw [digitValue?_blank blank] at digit; cases digit

theorem SpellsDigits.solid {w : List Char} {ds : List Nat} (spells : SpellsDigits w ds) :
    ∀ c ∈ w, isNumeralBlank c = false := by
  induction spells with
  | last digit => simpa using not_blank_of_digit digit
  | next digit _ _ ih => exact List.forall_mem_cons.mpr ⟨not_blank_of_digit digit, ih⟩
  | parted digit _ _ ih =>
    exact List.forall_mem_cons.mpr
      ⟨not_blank_of_digit digit, List.forall_mem_cons.mpr ⟨by decide, ih⟩⟩

theorem SpellsSign.solid {w : List Char} {negative : Bool} (signed : SpellsSign w negative) :
    ∀ c ∈ w, isNumeralBlank c = false := by
  cases signed with
  | none => exact fun _ mem => absurd mem List.not_mem_nil
  | plus | minus => exact List.forall_mem_singleton.mpr (by decide)

theorem SpellsMark.solid {w : List Char} (marked : SpellsMark w) :
    ∀ c ∈ w, isNumeralBlank c = false := by
  cases marked with
  | none => exact fun _ mem => absurd mem List.not_mem_nil
  | letter zero mark | parted zero mark =>
    rcases mark with rfl | rfl <;> simp [not_blank_of_digit zero] <;> decide

/-! ## Numerals -/

/-- What is read as a number spells it. -/
theorem spells_of_octal? {s : String} {n : Int} (read : octal? s = some n) :
    SpellsOctal s.toList n := by
  obtain ⟨before, after, blank, blank', whole⟩ := exists_trimBoth isNumeralBlank s.toList
  obtain ⟨sign, signed, body⟩ := splitSign_spells (numeralBody s.toList)
  unfold octal? at read
  generalize splitSign (numeralBody s.toList) = parts at read signed body
  obtain ⟨negative, unsigned⟩ := parts
  obtain ⟨ds, grouped, rfl⟩ := Option.map_eq_some_iff.mp read
  obtain ⟨sign', rest, core, same, rfl⟩ := List.map_eq_append_iff.mp body
  -- the sign is the same before the digits are replaced
  obtain rfl : sign' = sign := by
    cases signed with
    | none => exact List.map_eq_nil_iff.mp same
    | plus | minus =>
      obtain ⟨c, rfl, plain⟩ := List.map_eq_singleton_iff.mp same
      rw [(plainDigit_eq_iff (by decide) rfl).mp plain]
  obtain ⟨mark, digits, marked, rfl, dropped⟩ := dropOctalMark_spells rest
  rw [dropped] at grouped
  rw [core] at whole
  rw [whole]
  exact .mk blank blank' signed marked (spells_of_groupedDigits? digits ds grouped)

/-- What spells a number is read as it. -/
theorem SpellsOctal.read {s : String} {n : Int} (spells : SpellsOctal s.toList n) :
    octal? s = some n := by
  generalize whole : s.toList = cs at spells
  cases spells with
  | @mk before sign mark digits after negative ds blank blank' signed marked spells =>
    have solid : ∀ c ∈ sign ++ (mark ++ digits), isNumeralBlank c = false :=
      List.forall_mem_append.mpr
        ⟨signed.solid, List.forall_mem_append.mpr ⟨marked.solid, spells.solid⟩⟩
    have same : sign.map plainDigit = sign := by cases signed <;> rfl
    have body : numeralBody s.toList = sign ++ (mark ++ digits).map plainDigit := by
      rw [numeralBody, whole, trimBoth_append blank blank'
        (fun c here => solid c (List.mem_of_mem_head? here))
        (fun c here => solid c (List.mem_of_getLast? here)), List.map_append, same]
    obtain ⟨c, rest, starts, minus, plus⟩ := marked.starts spells
    have unsigned : ∀ rest, (mark ++ digits).map plainDigit ≠ '-' :: rest ∧
        (mark ++ digits).map plainDigit ≠ '+' :: rest := by
      intro rest
      rw [starts]
      exact ⟨fun same => minus (List.cons.inj same).1, fun same => plus (List.cons.inj same).1⟩
    unfold octal?
    rw [body, splitSign_append signed unsigned]
    dsimp only
    rw [dropOctalMark_append marked spells, spells.read]
    rfl

/-- A text is read as a number in base eight exactly where it spells it. -/
theorem octal?_eq_some_iff {s : String} {n : Int} : octal? s = some n ↔ SpellsOctal s.toList n :=
  ⟨spells_of_octal?, SpellsOctal.read⟩

end HomeProvision.Number
