import HomeProvision.Number.Numeral
import HomeProvision.Number.Octal
import Mathlib.Data.List.TakeWhile

/-!
# Numerals in base eight

What is written in base eight is read back as the same number (`octal?_octalDigits`), whatever zeros
stand in front (`octal?_map_hexDigit`). A text is no numeral if it begins with a character that is
neither a blank nor a sign nor a digit (`octal?_eq_none`).
-/

namespace HomeProvision.Number

open HomeProvision.Text

/-! ## Trimming -/

section

variable {blank : Char → Bool} {c : Char} {cs before core after : List Char}

/-- Nothing in front of a character that stays is trimmed at the end. -/
theorem trimEnd_cons (kept : blank c = false) :
    trimEnd blank (c :: cs) = c :: trimEnd blank cs := by
  unfold trimEnd
  rw [List.reverse_cons, List.dropWhile_append]
  split
  · next empty => simp [kept, List.isEmpty_iff.mp empty]
  · simp

theorem trimBoth_cons (kept : blank c = false) :
    trimBoth blank (c :: cs) = c :: trimEnd blank cs := by
  unfold trimBoth
  rw [List.dropWhile_cons_of_neg (by simp [kept]), trimEnd_cons kept]

/-- A text that does not end in a blank is all that is left without the blanks after it. -/
theorem trimEnd_append (blanks : ∀ c ∈ after, blank c = true)
    (last : ∀ c, core.getLast? = some c → blank c = false) : trimEnd blank (core ++ after) = core := by
  unfold trimEnd
  rw [List.reverse_append, List.dropWhile_append_of_pos fun c mem => blanks c (List.mem_reverse.mp mem)]
  cases ended : core.reverse with
  | nil => rw [List.reverse_eq_nil_iff.mp ended]; rfl
  | cons c rest =>
    have kept : blank c = false := last c (by rw [List.getLast?_eq_head?_reverse, ended]; rfl)
    rw [List.dropWhile_cons_of_neg (by simp [kept]), ← ended, List.reverse_reverse]

theorem trimBoth_append (blanks : ∀ c ∈ before, blank c = true)
    (blanks' : ∀ c ∈ after, blank c = true) (first : ∀ c, core.head? = some c → blank c = false)
    (last : ∀ c, core.getLast? = some c → blank c = false) :
    trimBoth blank (before ++ core ++ after) = core := by
  unfold trimBoth
  rw [List.append_assoc, List.dropWhile_append_of_pos blanks]
  cases core with
  | nil =>
    rw [List.nil_append, List.dropWhile_eq_nil_iff.mpr blanks']
    rfl
  | cons c core =>
    rw [List.cons_append, List.dropWhile_cons_of_neg (by simp [first c rfl]), ← List.cons_append]
    exact trimEnd_append blanks' last

theorem trimBoth_eq_self (kept : ∀ c ∈ cs, blank c = false) : trimBoth blank cs = cs := by
  have bare : trimBoth blank ([] ++ cs ++ []) = cs :=
    trimBoth_append (by simp) (by simp) (fun c here => kept c (List.mem_of_mem_head? here))
      fun c here => kept c (List.mem_of_getLast? here)
  simpa using bare

/-- What is trimmed is blank. -/
theorem exists_trimBoth (blank : Char → Bool) (cs : List Char) : ∃ before after,
    (∀ c ∈ before, blank c = true) ∧ (∀ c ∈ after, blank c = true) ∧
      cs = before ++ trimBoth blank cs ++ after := by
  refine ⟨cs.takeWhile blank, ((cs.dropWhile blank).reverse.takeWhile blank).reverse,
    fun c mem => List.mem_takeWhile_imp mem,
    fun c mem => List.mem_takeWhile_imp (List.mem_reverse.mp mem), ?_⟩
  unfold trimBoth trimEnd
  rw [List.append_assoc, ← List.reverse_append, List.takeWhile_append_dropWhile, List.reverse_reverse,
    List.takeWhile_append_dropWhile]

end

/-! ## Digits -/

/-- What the reader does to each digit of base eight: none of it is taken for anything else. -/
theorem hexDigit_reads : ∀ d < 8, isNumeralBlank (hexDigit d) = false ∧
    plainDigit (hexDigit d) = hexDigit d ∧ digitBelow? 8 (hexDigit d) = some d ∧
    hexDigit d ≠ '_' ∧ hexDigit d ≠ '-' ∧ hexDigit d ≠ '+' ∧ hexDigit d ≠ 'o' ∧
    hexDigit d ≠ 'O' := by
  decide

/-- A number as the digits that are written for it. -/
theorem octalDigits_eq (n : Nat) : ∃ ds, ds ≠ [] ∧ octalDigits n = ds.map hexDigit ∧
    (∀ d ∈ ds, d < 8) ∧ ofDigits 8 ds = n := by
  induction n using octalDigits.induct with
  | case1 n small =>
    refine ⟨[n], by simp, ?_, by simpa using small, by simp [ofDigits]⟩
    rw [octalDigits, if_pos small, List.map_singleton]
  | case2 n large ih =>
    obtain ⟨ds, _, digits, small, value⟩ := ih
    refine ⟨ds ++ [n % 8], by simp, ?_, fun d mem => ?_, ?_⟩
    · rw [octalDigits, if_neg large, digits, List.map_append, List.map_singleton]
    · rcases List.mem_append.mp mem with mem | mem
      · exact small d mem
      · rw [List.mem_singleton.mp mem]
        omega
    · unfold ofDigits at value ⊢
      rw [List.foldl_append, value]
      exact Nat.div_add_mod' n 8

/-- Digits without an underscore among them are read one by one. -/
theorem groupedDigits?_map_hexDigit {ds : List Nat} (full : ds ≠ []) (small : ∀ d ∈ ds, d < 8) :
    groupedDigits? 8 (ds.map hexDigit) = some ds := by
  induction ds with
  | nil => exact absurd rfl full
  | cons d rest ih =>
    obtain ⟨-, -, first, -⟩ := hexDigit_reads d (small d List.mem_cons_self)
    cases rest with
    | nil => simp [groupedDigits?, first]
    | cons e more =>
      have small' : ∀ d ∈ e :: more, d < 8 := fun d mem => small d (List.mem_cons_of_mem _ mem)
      obtain ⟨-, -, -, other, -⟩ := hexDigit_reads e (small' e List.mem_cons_self)
      have rest := ih (List.cons_ne_nil _ _) small'
      rw [List.map_cons] at rest
      rw [List.map_cons, List.map_cons, groupedDigits?, first, rest]
      · exact fun bad => by cases bad
      · exact fun cs bad => other (List.cons.inj bad).1

/-- A text that starts with no digit is no numeral without a sign. -/
theorem groupedDigits?_eq_none {base : Nat} {c : Char} (other : digitBelow? base c = none)
    (cs : List Char) : groupedDigits? base (c :: cs) = none := by
  unfold groupedDigits?
  split <;> simp_all

/-! ## Numerals -/

/-- Digits of base eight are read as the number that they denote. -/
theorem octal?_map_hexDigit {ds : List Nat} (full : ds ≠ []) (small : ∀ d ∈ ds, d < 8) :
    octal? (String.ofList (ds.map hexDigit)) = some ((ofDigits 8 ds : Nat) : Int) := by
  have body : numeralBody (ds.map hexDigit) = ds.map hexDigit := by
    have kept : ∀ c ∈ ds.map hexDigit, isNumeralBlank c = false := by
      intro c mem
      obtain ⟨d, here, rfl⟩ := List.mem_map.mp mem
      exact (hexDigit_reads d (small d here)).1
    unfold numeralBody
    rw [trimBoth_eq_self kept, List.map_map]
    exact List.map_congr_left fun d mem => (hexDigit_reads d (small d mem)).2.1
  have plain : splitSign (ds.map hexDigit) = (false, ds.map hexDigit) := by
    cases ds with
    | nil => rfl
    | cons d rest =>
      obtain ⟨-, -, -, -, minus, plus, -⟩ := hexDigit_reads d (small d List.mem_cons_self)
      unfold splitSign
      split <;> simp_all
  have unmarked : dropOctalMark (ds.map hexDigit) = ds.map hexDigit := by
    rcases ds with _ | ⟨d, _ | ⟨e, rest⟩⟩
    · rfl
    · simp [dropOctalMark]
    · obtain ⟨-, -, -, -, -, -, low, high⟩ := hexDigit_reads e (small e (by simp))
      unfold dropOctalMark
      split <;> simp_all
  unfold octal?
  rw [String.toList_ofList, body, plain]
  simp only [unmarked, groupedDigits?_map_hexDigit full small]
  rfl

/-- A number that is written in base eight is read back. -/
theorem octal?_octalDigits (n : Nat) : octal? (String.ofList (octalDigits n)) = some (n : Int) := by
  obtain ⟨ds, full, digits, small, value⟩ := octalDigits_eq n
  rw [digits, octal?_map_hexDigit full small, value]

theorem octalDigits_ne_nil (n : Nat) : octalDigits n ≠ [] := by
  obtain ⟨ds, full, digits, -⟩ := octalDigits_eq n
  rw [digits]
  simpa using full

/-- A text whose first character has no place at the start of a numeral. -/
theorem octal?_eq_none {s : String} {c : Char} {cs : List Char} (starts : s.toList = c :: cs)
    (solid : isNumeralBlank c = false) (plain : plainDigit c = c) (unsigned : c ≠ '-' ∧ c ≠ '+')
    (other : digitBelow? 8 c = none) : octal? s = none := by
  have body : ∃ rest, numeralBody s.toList = c :: rest := by
    unfold numeralBody
    rw [starts, trimBoth_cons solid, List.map_cons, plain]
    exact ⟨_, rfl⟩
  obtain ⟨rest, body⟩ := body
  have sign : splitSign (c :: rest) = (false, c :: rest) := by
    unfold splitSign
    split <;> simp_all
  have mark : dropOctalMark (c :: rest) = c :: rest := by
    have zero : c ≠ '0' := fun same => by rw [same] at other; cases other
    unfold dropOctalMark
    split <;> simp_all
  unfold octal?
  rw [body, sign]
  simp only [mark, groupedDigits?_eq_none other, Option.map_none]

end HomeProvision.Number
