import HomeProvision.Text.Blank
import HomeProvision.Text.Utf8

/-!
# Text files

The bytes of a text in UTF-8 are read back as the text, whatever its characters are, but for the ends
of its lines, which become line feeds (`readText_toUTF8`). Its lines are the same as before
(`splitLines_unifyLineEnds`).

`String.utf8EncodeChar` writes a character as one to four bytes, by the size of its number. There is
one lemma for each of these lengths, in which `v` is the number and the bytes are given by their
values.
-/

namespace HomeProvision.Text

/-! ## Bytes -/

section

variable {b b₁ b₂ b₃ lead : UInt8} {n v position : Nat} {rest : List UInt8}

theorem encodedLength?_eq (lead : UInt8) : encodedLength? lead =
    if lead.toNat < 0x80 then some 1
    else if 0xc2 ≤ lead.toNat ∧ lead.toNat < 0xe0 then some 2
    else if 0xe0 ≤ lead.toNat ∧ lead.toNat < 0xf0 then some 3
    else if 0xf0 ≤ lead.toNat ∧ lead.toNat < 0xf5 then some 4
    else none := by
  simp [encodedLength?, UInt8.lt_iff_toNat_lt, UInt8.le_iff_toNat_le]

theorem isContinuation_iff : isContinuation b = true ↔ 0x80 ≤ b.toNat ∧ b.toNat < 0xc0 := by
  simp [isContinuation, UInt8.lt_iff_toNat_lt, UInt8.le_iff_toNat_le]

theorem isSecond_iff : isSecond lead b = true ↔ (0x80 ≤ b.toNat ∧ b.toNat < 0xc0) ∧
    (lead.toNat = 0xe0 → 0xa0 ≤ b.toNat) ∧ (lead.toNat = 0xed → b.toNat < 0xa0) ∧
    (lead.toNat = 0xf0 → 0x90 ≤ b.toNat) ∧ (lead.toNat = 0xf4 → b.toNat < 0x90) := by
  unfold isSecond
  rw [Bool.and_eq_true, isContinuation_iff]
  refine and_congr_right fun _ => ?_
  simp only [← UInt8.toNat_inj, UInt8.le_iff_toNat_le, UInt8.lt_iff_toNat_lt, UInt8.reduceToNat]
  repeat' split
  all_goals simp_all

/-! ## Characters -/

theorem decodeUtf8From_one (first : lead.toNat = v) (small : v ≤ 0x7f) :
    decodeUtf8From position (lead :: rest) =
      (decodeUtf8From (position + 1) rest).map (Char.ofNat v :: ·) := by
  have length : encodedLength? lead = some 1 := by
    rw [encodedLength?_eq, first, if_pos (by omega)]
  simp only [decodeUtf8From, length, first]

theorem decodeUtf8From_two (first : lead.toNat = v / 64 % 32 + 192)
    (second : b₁.toNat = v % 64 + 128) (above : 0x7f < v) (small : v ≤ 0x7ff) :
    decodeUtf8From position (lead :: b₁ :: rest) =
      (decodeUtf8From (position + 2) rest).map (Char.ofNat v :: ·) := by
  have length : encodedLength? lead = some 2 := by
    rw [encodedLength?_eq, first, if_neg (by omega), if_pos (by omega)]
  have fits : isSecond lead b₁ = true := by
    rw [isSecond_iff]
    omega
  have whole : lead.toNat % 32 * 64 + payload b₁ = v := by
    unfold payload
    omega
  simp [decodeUtf8From, length, fits, whole]

/-- Three bytes hold no half of a surrogate pair, which is what `isSecond` sees to after the byte
`0xed`. -/
theorem decodeUtf8From_three (first : lead.toNat = v / 4096 % 16 + 224)
    (second : b₁.toNat = v / 64 % 64 + 128) (third : b₂.toNat = v % 64 + 128) (above : 0x7ff < v)
    (small : v ≤ 0xffff) (scalar : v < 0xd800 ∨ 0xdfff < v) :
    decodeUtf8From position (lead :: b₁ :: b₂ :: rest) =
      (decodeUtf8From (position + 3) rest).map (Char.ofNat v :: ·) := by
  have length : encodedLength? lead = some 3 := by
    rw [encodedLength?_eq, first, if_neg (by omega), if_neg (by omega), if_pos (by omega)]
  have fits : isSecond lead b₁ = true := by
    rw [isSecond_iff]
    omega
  have onward : isContinuation b₂ = true := by
    rw [isContinuation_iff]
    omega
  have whole : (lead.toNat % 16 * 64 + payload b₁) * 64 + payload b₂ = v := by
    unfold payload
    omega
  simp [decodeUtf8From, length, fits, onward, whole]

theorem decodeUtf8From_four (first : lead.toNat = v / 262144 % 8 + 240)
    (second : b₁.toNat = v / 4096 % 64 + 128) (third : b₂.toNat = v / 64 % 64 + 128)
    (fourth : b₃.toNat = v % 64 + 128) (above : 0xffff < v) (small : v < 0x110000) :
    decodeUtf8From position (lead :: b₁ :: b₂ :: b₃ :: rest) =
      (decodeUtf8From (position + 4) rest).map (Char.ofNat v :: ·) := by
  have length : encodedLength? lead = some 4 := by
    rw [encodedLength?_eq, first, if_neg (by omega), if_neg (by omega), if_neg (by omega),
      if_pos (by omega)]
  have fits : isSecond lead b₁ = true := by
    rw [isSecond_iff]
    omega
  have onward : isContinuation b₂ = true ∧ isContinuation b₃ = true := by
    rw [isContinuation_iff, isContinuation_iff]
    omega
  have whole : ((lead.toNat % 8 * 64 + payload b₁) * 64 + payload b₂) * 64 + payload b₃ = v := by
    unfold payload
    omega
  simp [decodeUtf8From, length, fits, onward, whole]

/-- What a character is encoded as is decoded as the character. -/
theorem decodeUtf8From_char (c : Char) (rest : List UInt8) (position : Nat) :
    ∃ size, decodeUtf8From position (String.utf8EncodeChar c ++ rest) =
      (decodeUtf8From (position + size) rest).map (c :: ·) := by
  have byte : ∀ n < 256, (UInt8.ofNat n).toNat = n := fun _ => UInt8.toNat_ofNat_of_lt'
  have scalar : c.val.toNat < 0xd800 ∨ 0xdfff < c.val.toNat ∧ c.val.toNat < 0x110000 := c.valid
  have shown : Char.ofNat c.val.toNat = c := Char.ofNat_toNat c
  unfold String.utf8EncodeChar
  generalize c.val.toNat = v at scalar shown ⊢
  subst shown
  dsimp only
  split
  · next small => exact ⟨1, decodeUtf8From_one (byte _ (by omega)) small⟩
  split
  · next above small =>
    exact ⟨2, decodeUtf8From_two (byte _ (by omega)) (byte _ (by omega)) (by omega) small⟩
  split
  · next above small =>
    exact ⟨3, decodeUtf8From_three (byte _ (by omega)) (byte _ (by omega))
      (byte _ (by omega)) (by omega) small (by omega)⟩
  · exact ⟨4, decodeUtf8From_four (byte _ (by omega)) (byte _ (by omega))
      (byte _ (by omega)) (byte _ (by omega)) (by omega) (by omega)⟩

end

/-! ## Texts -/

theorem toList_toUTF8 (s : String) :
    s.toUTF8.data.toList = s.toList.flatMap String.utf8EncodeChar := by
  rw [String.toUTF8_eq_toByteArray, ← String.utf8Encode_toList, List.utf8Encode,
    List.data_toByteArray]

theorem decodeUtf8From_encoded (cs : List Char) (position : Nat) :
    decodeUtf8From position (cs.flatMap String.utf8EncodeChar) = .ok cs := by
  induction cs generalizing position with
  | nil => rfl
  | cons c cs ih =>
    obtain ⟨size, decoded⟩ := decodeUtf8From_char c (cs.flatMap String.utf8EncodeChar) position
    rw [List.flatMap_cons, decoded, ih]
    rfl

/-- The file that a text makes is read as the text, with the ends of its lines unified. -/
theorem readText_toUTF8 (s : String) :
    readText s.toUTF8.data.toList = .ok (unifyLineEnds s.toList) := by
  rw [readText, decodeUtf8, toList_toUTF8, decodeUtf8From_encoded]
  rfl

/-! ## Lines -/

section

variable {c : Char} {cs line tail : List Char} {more : List (List Char)}

theorem splitLines_break (ends : isLineBreak c = true) (alone : ∀ rest, c = '\r' → cs ≠ '\n' :: rest) :
    splitLines (c :: cs) = [] :: splitLines cs := by
  rw [splitLines, if_pos ends]
  exact alone

theorem splitLines_cons (goesOn : isLineBreak c = false) :
    splitLines (c :: cs) =
      match splitLines cs with
      | [] => [[c]]
      | line :: lines => (c :: line) :: lines := by
  rw [splitLines]
  · exact if_neg (by simp [goesOn])
  · rintro rest rfl
    cases goesOn

/-- Unifying the ends of lines leaves the lines as they are. -/
theorem splitLines_unifyLineEnds (cs : List Char) :
    splitLines (unifyLineEnds cs) = splitLines cs := by
  fun_induction unifyLineEnds cs with
  | case1 => rfl
  | case2 rest ih =>
    rw [splitLines_break (by decide) (by simp), ih]
    rfl
  | case3 rest other ih =>
    rw [splitLines_break (by decide) (by simp), ih,
      splitLines_break (by decide) fun rest' _ same => other rest' same]
  | case4 c rest other other' ih =>
    have plain : ∀ cs : List Char, ∀ rest', c = '\r' → cs ≠ '\n' :: rest' :=
      fun _ _ same => absurd same other'
    cases ends : isLineBreak c with
    | true => rw [splitLines_break ends (plain _), splitLines_break ends (plain _), ih]
    | false => rw [splitLines_cons ends, splitLines_cons ends, ih]

/-- A line that is ended by what follows it is the first line. -/
theorem splitLines_append (solid : ∀ c ∈ line, isLineBreak c = false)
    (ended : splitLines tail = [] :: more) : splitLines (line ++ tail) = line :: more := by
  induction line with
  | nil => exact ended
  | cons c line ih =>
    obtain ⟨first, others⟩ := List.forall_mem_cons.mp solid
    rw [List.cons_append, splitLines_cons first, ih others]

/-- A text without an end of a line is one line, unless it is empty. -/
theorem splitLines_solid (solid : ∀ c ∈ line, isLineBreak c = false) :
    splitLines line = if line = [] then [] else [line] := by
  induction line with
  | nil => rfl
  | cons c line ih =>
    obtain ⟨first, others⟩ := List.forall_mem_cons.mp solid
    rw [splitLines_cons first, ih others]
    cases line <;> rfl

end

end HomeProvision.Text
