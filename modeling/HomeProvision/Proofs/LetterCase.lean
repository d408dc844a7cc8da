import HomeProvision.Text.CaseFold
import HomeProvision.Text.LowerCase

/-!
# Words in any case

A text is compared with a word of ASCII characters by its lower case. For that comparison it is enough
to map the letters whose lower case is ASCII (`anyCase_iff`): the lower case of every other letter has
a character above ASCII in it, and of the letters above ASCII only the Kelvin sign is not such a one.
-/

namespace HomeProvision.Text

/-- Whether a text is a word in any case. -/
def AnyCase (word text : String) : Prop :=
  CodePoint.lower (CodePoint.ofChars text.toList) = CodePoint.ofChars word.toList

/-- Whether all characters are ASCII. -/
def IsAscii (cs : List Char) : Prop :=
  ∀ c ∈ cs, c.toNat < 0x80

instance (cs : List Char) : Decidable (IsAscii cs) :=
  decidable_of_iff (cs.all fun c => decide (c.toNat < 0x80)) (by simp [IsAscii])

/-! ## Letters -/

/-- The lower case of the letters above ASCII, apart from the Kelvin sign, is above ASCII. -/
theorem capitalRuns_wide : ∀ run ∈ capitalRuns,
    run.first ≤ 0x212a ∧ 0x212a ≤ run.last ∧ run.last ≤ run.first ∨
    0x80 ≤ run.first + run.shift ∧
      (run.last + run.shift < 0xd800 ∨ 0xe000 ≤ run.first + run.shift ∧
        run.last + run.shift < 0x110000) := by
  decide +kernel

theorem toLower_ascii {c : Char} (ascii : c.toNat < 0x80) : c.toLower.toNat < 0x80 := by
  unfold Char.toLower
  split
  · next capital =>
    have high : c.val.toNat ≤ 90 := UInt32.le_iff_toNat_le.mp capital.2
    change (c.val + 32).toNat < 0x80
    rw [UInt32.toNat_add]
    change (c.val.toNat + 32) % 2 ^ 32 < 0x80
    omega
  · exact ascii

theorem toLower_wide {c : Char} (wide : 0x80 ≤ c.toNat) : c.toLower = c := by
  unfold Char.toLower
  rw [dif_neg]
  intro capital
  have high : c.val.toNat ≤ 90 := UInt32.le_iff_toNat_le.mp capital.2
  have : c.toNat = c.val.toNat := rfl
  omega

theorem lowerChar_wide {c : Char} (wide : 0x80 ≤ c.toNat) (kelvin : c ≠ '\u212a') :
    lowerChar c = c := by
  unfold lowerChar
  rw [if_neg kelvin, toLower_wide wide]

/-- The lower case of a character is one ASCII character, and then it is found without the tables, or
there is a character above ASCII in it. -/
theorem lowerLetter_cases (c : Char) :
    (∃ a, a.toNat < 0x80 ∧ lowerLetter c = [a] ∧ lowerChar c = a) ∨
      (∃ a ∈ lowerLetter c, 0x80 ≤ a.toNat) ∧ 0x80 ≤ (lowerChar c).toNat := by
  by_cases kelvin : c = '\u212a'
  · subst kelvin
    exact .inl ⟨'k', by decide, by decide +kernel, rfl⟩
  by_cases ascii : c.toNat < 0x80
  · refine .inl ⟨c.toLower, toLower_ascii ascii, ?_, ?_⟩
    · rw [lowerLetter, if_pos ascii]
    · rw [lowerChar, if_neg kelvin]
  · have wide : 0x80 ≤ c.toNat := by omega
    refine .inr ⟨?_, by rwa [lowerChar_wide wide kelvin]⟩
    unfold lowerLetter
    rw [if_neg ascii]
    by_cases dotted : c = '\u0130'
    · rw [if_pos dotted]
      exact ⟨'\u0307', by simp, by decide⟩
    rw [if_neg dotted]
    dsimp only
    split
    · next run found =>
      obtain ⟨⟨low, high⟩, -⟩ : (run.first ≤ c.toNat ∧ c.toNat ≤ run.last) ∧
          (c.toNat - run.first) % run.step = 0 := by simpa using List.find?_some found
      refine ⟨_, List.mem_singleton_self _, ?_⟩
      rcases capitalRuns_wide run (List.mem_of_find?_eq_some found) with ⟨_, _, _⟩ | ⟨first, valid⟩
      · have same : c.toNat = 0x212a := by omega
        rw [Char.toNat, ← show (0x212a : UInt32).toNat = 0x212a from rfl] at same
        exact absurd (Char.ext (UInt32.toNat_inj.mp same)) kelvin
      · have scalar : (c.toNat + run.shift).toNat.isValidChar := by
          unfold Nat.isValidChar
          omega
        rw [Char.ofNat, dif_pos scalar]
        change 0x80 ≤ (c.toNat + run.shift).toNat
        omega
    · exact ⟨c, List.mem_singleton_self c, wide⟩

/-! ## Texts -/

namespace CodePoint

theorem char_mem_ofChars {a : Char} {cs : List Char} : char a ∈ ofChars cs ↔ a ∈ cs := by
  simp [ofChars]

theorem ofChars_inj {cs ds : List Char} : ofChars cs = ofChars ds ↔ cs = ds :=
  List.map_inj_right fun _ _ same => CodePoint.char.inj same

/-- The same for a character in a text, where a sigma at the end of a word is one of its own. -/
theorem lowerFrom_cases (before : List CodePoint) (c : Char) (rest : List CodePoint) :
    (∃ a, a.toNat < 0x80 ∧ lowerChar c = a ∧
        lowerFrom before (char c :: rest) = char a :: lowerFrom (char c :: before) rest) ∨
      (∃ a, 0x80 ≤ a.toNat ∧ char a ∈ lowerFrom before (char c :: rest)) ∧
        0x80 ≤ (lowerChar c).toNat := by
  rw [lowerFrom]
  by_cases sigma : c = '\u03a3'
  · subst sigma
    refine .inr ⟨?_, by decide⟩
    rw [if_pos rfl]
    split
    · exact ⟨'\u03c2', by decide, List.mem_cons_self⟩
    · exact ⟨'\u03c3', by decide, List.mem_cons_self⟩
  · rw [if_neg sigma]
    rcases lowerLetter_cases c with ⟨a, ascii, lower, same⟩ | ⟨⟨a, mem, wide⟩, other⟩
    · exact .inl ⟨a, ascii, same, by rw [lower]; rfl⟩
    · exact .inr ⟨⟨a, wide, List.mem_append_left _ (char_mem_ofChars.mpr mem)⟩, other⟩

theorem lowerFrom_eq_iff {before : List CodePoint} {cs word : List Char} (ascii : IsAscii word) :
    lowerFrom before (ofChars cs) = ofChars word ↔ cs.map lowerChar = word := by
  induction cs generalizing before word with
  | nil => exact (ofChars_inj : ofChars [] = ofChars word ↔ [] = word)
  | cons c cs ih =>
    change lowerFrom before (char c :: ofChars cs) = _ ↔ lowerChar c :: cs.map lowerChar = _
    rcases lowerFrom_cases before c (ofChars cs) with ⟨a, -, same, lower⟩ | ⟨⟨a, wide, mem⟩, other⟩
    · rw [lower, same]
      cases word with
      | nil => simp [ofChars]
      | cons b word =>
        have onward : lowerFrom (char c :: before) (ofChars cs) = ofChars word ↔
            cs.map lowerChar = word :=
          ih fun d mem => ascii d (List.mem_cons_of_mem _ mem)
        simp only [ofChars, List.map_cons, List.cons.injEq, CodePoint.char.injEq] at onward ⊢
        rw [onward]
    · constructor <;> intro same
      · rw [same] at mem
        exact absurd (ascii a (char_mem_ofChars.mp mem)) (by omega)
      · exact absurd (ascii (lowerChar c) (same ▸ List.mem_cons_self)) (by omega)

end CodePoint

/-- A text is an ASCII word in any case where the lower case of its ASCII part is that word. -/
theorem anyCase_iff {word text : String} (ascii : IsAscii word.toList) :
    AnyCase word text ↔ lowerCase text = word := by
  unfold AnyCase CodePoint.lower lowerCase
  rw [CodePoint.lowerFrom_eq_iff ascii]
  constructor <;> intro same
  · rw [same, String.ofList_toList]
  · rw [← same, String.toList_ofList]

end HomeProvision.Text
