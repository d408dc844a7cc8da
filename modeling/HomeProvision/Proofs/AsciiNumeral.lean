import HomeProvision.Proofs.Grammar
import Mathlib.Data.Nat.Digits.Lemmas

/-!
# Modes in ASCII

A mode is mostly typed in ASCII. There each number has its ways to be written in base eight: the
digits with any zeros before them and with single underscores between them, a mark of the base or
none, a sign that fits, and blanks around the whole (`WritesOctal`). Each of them is read as the
number, and nothing else in ASCII is read as a mode (`readModeValue_numerals`).

The grammar of numerals in general, `SpellsOctal`, has digits and blanks of all scripts. In ASCII
these are the ten digits and the six plain blanks.
-/

namespace HomeProvision.Number

open HomeProvision.Text

/-! ## Writings -/

/-- What is written in ASCII for digits of base eight, with single underscores between some of
them. -/
inductive WritesDigits : (written : List Char) → (digits : List Nat) → Prop
  | last {d : Nat} (small : d < 8) : WritesDigits [hexDigit d] [d]
  | next {d : Nat} {w : List Char} {ds : List Nat} (small : d < 8) (rest : WritesDigits w ds) :
      WritesDigits (hexDigit d :: w) (d :: ds)
  | parted {d : Nat} {w : List Char} {ds : List Nat} (small : d < 8) (rest : WritesDigits w ds) :
      WritesDigits (hexDigit d :: '_' :: w) (d :: ds)

/-- The marks of base eight in ASCII, the missing one first. -/
def octalMarks : List (List Char) :=
  [[], ['0', 'o'], ['0', 'O'], ['0', 'o', '_'], ['0', 'O', '_']]

/-- What is written in ASCII for a sign, true for minus, and digits of base eight. -/
inductive WritesOctal : (written : List Char) → (negative : Bool) → (digits : List Nat) → Prop
  | mk {before sign mark digits after : List Char} {negative : Bool} {ds : List Nat}
      (blank : ∀ c ∈ before, isPlainBlank c = true) (blank' : ∀ c ∈ after, isPlainBlank c = true)
      (signed : SpellsSign sign negative) (marked : mark ∈ octalMarks)
      (writes : WritesDigits digits ds) :
      WritesOctal (before ++ (sign ++ (mark ++ digits)) ++ after) negative ds

/-- Whether a sign, true for minus, can stand before a number. Both can stand before zero. -/
def SignFits (negative : Bool) (n : Int) : Prop :=
  if negative then n ≤ 0 else 0 ≤ n

/-! ## Values -/

/-- Digits denote the sum of their values, each times the power of the base for its place. -/
theorem ofDigits_eq (base : Nat) (ds : List Nat) : ofDigits base ds = Nat.ofDigits base ds.reverse := by
  rw [Nat.ofDigits_eq_foldr, List.foldr_reverse]
  unfold ofDigits
  congr
  funext n d
  rw [Nat.cast_id, Nat.mul_comm, Nat.add_comm]

/-- Zeros before the digits of a number make no difference. -/
theorem ofDigits_padded (zeros n : Nat) :
    ofDigits 8 (List.replicate zeros 0 ++ (Nat.digits 8 n).reverse) = n := by
  rw [ofDigits_eq, List.reverse_append, List.reverse_reverse, List.reverse_replicate,
    Nat.ofDigits_append_replicate_zero, Nat.ofDigits_digits]

theorem withSign_natAbs {negative : Bool} {n : Int} (fits : SignFits negative n) :
    withSign negative n.natAbs = n := by
  cases negative with
  | true =>
    have fits : n ≤ 0 := fits
    change -(n.natAbs : Int) = n
    omega
  | false => exact Int.natAbs_of_nonneg fits

/-! ## Characters -/

section

variable {c : Char} {d : Nat} {w mark : List Char} {ds : List Nat}

theorem digitValue?_hexDigit (small : d < 8) : digitValue? (hexDigit d) = some d := by
  have read : ∀ d < 8, digitValue? (hexDigit d) = some d := by decide
  exact read d small

/-- In ASCII, a digit is what is written for its value. -/
theorem eq_hexDigit (ascii : c.toNat < 0x80) (digit : digitValue? c = some d) : c = hexDigit d := by
  unfold digitValue? at digit
  rw [if_pos ascii] at digit
  split at digit
  · next decimal =>
    obtain ⟨low, high⟩ : 48 ≤ c.toNat ∧ c.toNat ≤ 57 := Char.isDigit_iff_toNat.mp decimal
    cases digit
    have zero : '0'.toNat = 48 := rfl
    unfold hexDigit
    rw [if_pos (by omega), Nat.add_sub_cancel' (by omega), Char.ofNat_toNat]
  · cases digit

theorem isWideBlank_wide (wide : isWideBlank c = true) : 0x80 ≤ c.toNat := by
  simp only [isWideBlank, Bool.or_eq_true, Bool.and_eq_true, decide_eq_true_eq] at wide
  rcases wide with (((((((rfl | rfl) | rfl) | ⟨low, -⟩) | rfl) | rfl) | rfl) | rfl) | rfl
  case inl.inl.inl.inl.inl.inr =>
    have low : 0x2000 ≤ c.toNat := low
    omega
  all_goals decide

/-- In ASCII, the blanks around a numeral are the plain ones. -/
theorem isPlainBlank_of_ascii (ascii : c.toNat < 0x80) (blank : isNumeralBlank c = true) :
    isPlainBlank c = true := by
  unfold isNumeralBlank at blank
  rcases Bool.or_eq_true_iff.mp blank with plain | wide
  · exact plain
  · have := isWideBlank_wide wide
    omega

/-! ## Writings spell and are spelled -/

theorem WritesDigits.spells (writes : WritesDigits w ds) : SpellsDigits w ds := by
  induction writes with
  | last small => exact .last (digitValue?_hexDigit small) small
  | next small _ ih => exact .next (digitValue?_hexDigit small) small ih
  | parted small _ ih => exact .parted (digitValue?_hexDigit small) small ih

theorem SpellsDigits.writes (ascii : IsAscii w) (spells : SpellsDigits w ds) : WritesDigits w ds := by
  induction spells with
  | last digit small =>
    rw [eq_hexDigit (ascii _ List.mem_cons_self) digit]
    exact .last small
  | next digit small _ ih =>
    obtain ⟨first, rest⟩ := List.forall_mem_cons.mp ascii
    rw [eq_hexDigit first digit]
    exact .next small (ih rest)
  | parted digit small _ ih =>
    obtain ⟨first, rest⟩ := List.forall_mem_cons.mp ascii
    rw [eq_hexDigit first digit]
    exact .parted small (ih (List.forall_mem_cons.mp rest).2)

theorem spellsMark_of_mem (marked : mark ∈ octalMarks) : SpellsMark mark := by
  have zero : digitValue? '0' = some 0 := by decide
  simp only [octalMarks, List.mem_cons, List.not_mem_nil, or_false] at marked
  rcases marked with rfl | rfl | rfl | rfl | rfl
  · exact .none
  · exact .letter zero (.inl rfl)
  · exact .letter zero (.inr rfl)
  · exact .parted zero (.inl rfl)
  · exact .parted zero (.inr rfl)

theorem SpellsMark.mem (ascii : IsAscii mark) (marked : SpellsMark mark) : mark ∈ octalMarks := by
  cases marked with
  | none => decide
  | letter zero letter | parted zero letter =>
    rw [eq_hexDigit (ascii _ List.mem_cons_self) zero]
    rcases letter with rfl | rfl <;> decide

theorem WritesOctal.spells {negative : Bool} (writes : WritesOctal w negative ds) :
    SpellsOctal w (withSign negative (ofDigits 8 ds)) := by
  have plain : ∀ c, isPlainBlank c = true → isNumeralBlank c = true :=
    fun c blank => by rw [isNumeralBlank, blank, Bool.true_or]
  obtain ⟨blank, blank', signed, marked, digits⟩ := writes
  exact .mk (fun c mem => plain c (blank c mem)) (fun c mem => plain c (blank' c mem)) signed
    (spellsMark_of_mem marked) digits.spells

theorem SpellsOctal.writes {n : Int} (ascii : IsAscii w) (spells : SpellsOctal w n) :
    ∃ negative ds, WritesOctal w negative ds ∧ n = withSign negative (ofDigits 8 ds) := by
  obtain ⟨blank, blank', signed, marked, digits⟩ := spells
  obtain ⟨front, behind⟩ := List.forall_mem_append.mp ascii
  obtain ⟨ahead, body⟩ := List.forall_mem_append.mp front
  obtain ⟨-, body⟩ := List.forall_mem_append.mp body
  obtain ⟨first, rest⟩ := List.forall_mem_append.mp body
  exact ⟨_, _, .mk (fun c mem => isPlainBlank_of_ascii (ahead c mem) (blank c mem))
    (fun c mem => isPlainBlank_of_ascii (behind c mem) (blank' c mem)) signed (marked.mem first)
    (digits.writes rest), rfl⟩

end

end HomeProvision.Number

namespace HomeProvision.Directive

open HomeProvision.Data HomeProvision.Text HomeProvision.Number

theorem readModeValue_text_eq_ok_iff {s : String} {n : Int} :
    readModeValue (.text s) = .ok n ↔ SpellsOctal s.toList n :=
  readOctal_eq_ok_iff

/-- Modes and their texts. Every way to write a number of any size in base eight is read as that
number, also with zeros before its digits; zero alone has no digits but these zeros. A text in ASCII
that is read as a number is written in one of these ways, and the number is the value of its digits
with its sign. All others in ASCII are refused as bad modes. -/
theorem readModeValue_numerals (s : String) :
    (∀ (n : Int) (negative : Bool) (zeros : Nat), SignFits negative n →
      WritesOctal s.toList negative (List.replicate zeros 0 ++ (Nat.digits 8 n.natAbs).reverse) →
      readModeValue (.text s) = .ok n) ∧
    (IsAscii s.toList →
      (∀ n, readModeValue (.text s) = .ok n →
        ∃ negative ds, WritesOctal s.toList negative ds ∧
          n = withSign negative (Nat.ofDigits 8 ds.reverse)) ∧
      ((∀ negative ds, ¬ WritesOctal s.toList negative ds) →
        readModeValue (.text s) = .error (.badMode (quoted s)))) ∧
    (SettingsError.badMode (quoted s)).errorClass = .value := by
  refine ⟨fun n negative zeros fits writes => ?_, fun ascii => ⟨fun n read => ?_, fun other => ?_⟩, rfl⟩
  · have spells := writes.spells
    rw [ofDigits_padded, withSign_natAbs fits] at spells
    exact readModeValue_text_eq_ok_iff.mpr spells
  · obtain ⟨negative, ds, writes, rfl⟩ := (readModeValue_text_eq_ok_iff.mp read).writes ascii
    exact ⟨negative, ds, writes, by rw [ofDigits_eq]⟩
  · cases read : octal? s with
    | none =>
      change readOctal (.ofText s) = _
      unfold readOctal Word.ofText
      rw [read]
    | some n =>
      obtain ⟨negative, ds, writes, -⟩ := (octal?_eq_some_iff.mp read).writes ascii
      exact absurd writes (other negative ds)

/-- All the optional parts at once. -/
example : readModeValue (.text " \t-0O_00_7_55\n") = .ok (-0o755) := by
  decide

end HomeProvision.Directive
