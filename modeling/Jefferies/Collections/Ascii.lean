import Jefferies.Collections.Text

/-!
# ASCII strings

Where every byte of a string is below 128, its bytes are its characters. A check of the bytes that only such
bytes pass is a check of the characters.
-/

namespace Jefferies

/-! ## Bytes -/

@[simp] theorem bytes_append (s t : String) : bytes (s ++ t) = bytes s ++ bytes t := by
  simp [bytes, String.toByteArray_append]

theorem bytes_inj {s t : String} : bytes s = bytes t ↔ s = t := by
  constructor
  · intro h
    rw [← String.toByteArray_inj]
    simp only [bytes, String.toUTF8_eq_toByteArray] at h
    exact ByteArray.ext (Array.toList_inj.mp h)
  · rintro rfl
    rfl

theorem bytes_eq_flatMap (s : String) : bytes s = s.toList.flatMap String.utf8EncodeChar := by
  have h : s.toByteArray = s.toList.utf8Encode := String.utf8Encode_toList.symm
  simp [bytes, h, List.utf8Encode]

theorem bytes_ne_nil {s : String} : bytes s ≠ [] ↔ s ≠ "" := by
  rw [not_iff_not, ← bytes_inj]
  rfl

theorem utf8EncodeChar_ascii {c : Char} (h : c.toNat < 128) : String.utf8EncodeChar c = [c.toUInt8] := by
  have hc : c.val.toNat ≤ 127 := by
    have : c.val.toNat = c.toNat := rfl
    omega
  rw [String.utf8EncodeChar]
  simp only [if_pos hc]
  rfl

/-- A character outside of ASCII begins with a byte outside of ASCII. -/
theorem exists_utf8EncodeChar {c : Char} (h : ¬c.toNat < 128) : ∃ b ∈ String.utf8EncodeChar c, ¬b < 128 := by
  have hc : ¬c.val.toNat ≤ 127 := by
    have : c.val.toNat = c.toNat := rfl
    omega
  have hbyte : ∀ n : Nat, 128 ≤ n % 256 → ¬UInt8.ofNat n < 128 := by
    intro n hn hlt
    have hlt' := UInt8.lt_iff_toNat_lt.mp hlt
    simp at hlt'
    omega
  rw [String.utf8EncodeChar]
  simp only [if_neg hc]
  split
  · exact ⟨_, List.mem_cons_self, hbyte _ (by omega)⟩
  · split
    · exact ⟨_, List.mem_cons_self, hbyte _ (by omega)⟩
    · exact ⟨_, List.mem_cons_self, hbyte _ (by omega)⟩

/-! ## Characters -/

theorem toNat_toUInt8 {c : Char} (h : c.toNat < 128) : c.toUInt8.toNat = c.toNat := by
  have hc : c.toUInt8.toNat = c.toNat % 256 := rfl
  omega


def IsAscii (s : String) : Prop := ∀ c ∈ s.toList, c.toNat < 128

theorem IsAscii.bytes {s : String} (h : IsAscii s) : bytes s = s.toList.map Char.toUInt8 := by
  rw [bytes_eq_flatMap]
  have hone : ∀ c ∈ s.toList, String.utf8EncodeChar c = [c.toUInt8] := fun c hc => utf8EncodeChar_ascii (h c hc)
  rw [List.flatMap_congr hone, ← List.map_eq_flatMap]

theorem isAscii_of_bytes {s : String} (h : ∀ b ∈ Jefferies.bytes s, b < 128) : IsAscii s := by
  intro c hc
  by_contra hlt
  obtain ⟨b, hb, hge⟩ := exists_utf8EncodeChar hlt
  apply hge
  apply h
  rw [bytes_eq_flatMap]
  exact List.mem_flatMap.mpr ⟨c, hc, hb⟩

theorem IsAscii.length {s : String} (h : IsAscii s) : (Jefferies.bytes s).length = s.length := by
  rw [h.bytes, List.length_map, String.length_toList]

/-- Bytes below 128 are the bytes of a string. -/
theorem exists_bytes {l : List UInt8} (h : ∀ b ∈ l, b < 128) : ∃ s, bytes s = l := by
  have hchar : ∀ b ∈ l, (Char.ofNat b.toNat).toNat = b.toNat := by
    intro b hb
    have hlt := UInt8.lt_iff_toNat_lt.mp (h b hb)
    simp at hlt
    rw [Char.toNat_ofNat, if_pos (Or.inl (by omega))]
  refine ⟨String.ofList (l.map fun b => Char.ofNat b.toNat), ?_⟩
  have hascii : IsAscii (String.ofList (l.map fun b => Char.ofNat b.toNat)) := by
    intro c hc
    rw [String.toList_ofList] at hc
    obtain ⟨b, hb, rfl⟩ := List.mem_map.mp hc
    have hlt := UInt8.lt_iff_toNat_lt.mp (h b hb)
    simp at hlt
    rw [hchar b hb]
    omega
  rw [hascii.bytes, String.toList_ofList, List.map_map]
  conv_rhs => rw [← List.map_id l]
  apply List.map_congr_left
  intro b hb
  rw [Function.comp_apply, id_eq, ← UInt8.toNat_inj, toNat_toUInt8, hchar b hb]
  have hlt := UInt8.lt_iff_toNat_lt.mp (h b hb)
  simp at hlt
  rw [hchar b hb]
  omega

/-- Where only bytes below 128 pass a check, it is a check of the characters. -/
theorem all_bytes {p : UInt8 → Bool} (hp : ∀ b, p b = true → b < 128) {s : String} :
    (∀ b ∈ bytes s, p b = true) ↔ IsAscii s ∧ ∀ c ∈ s.toList, p c.toUInt8 = true := by
  constructor
  · intro h
    have hascii : IsAscii s := isAscii_of_bytes fun b hb => hp b (h b hb)
    refine ⟨hascii, fun c hc => h _ ?_⟩
    rw [hascii.bytes]
    exact List.mem_map_of_mem hc
  · rintro ⟨hascii, h⟩ b hb
    rw [hascii.bytes] at hb
    obtain ⟨c, hc, rfl⟩ := List.mem_map.mp hb
    exact h c hc

/-! ## Kinds of characters -/

theorem isAsciiDigit_lt {b : UInt8} (h : isAsciiDigit b = true) : b < 128 := by
  simp only [isAsciiDigit, Bool.and_eq_true, decide_eq_true_eq, UInt8.le_iff_toNat_le] at h
  rw [UInt8.lt_iff_toNat_lt]
  simp at h ⊢
  omega

section Kinds

variable {c : Char} (h : c.toNat < 128)

include h

theorem isAsciiDigit_toUInt8 : isAsciiDigit c.toUInt8 = c.isDigit := by
  have hc := toNat_toUInt8 h
  simp [isAsciiDigit, Char.isDigit, UInt8.le_iff_toNat_le, UInt32.le_iff_toNat_le, hc]

theorem isAsciiLowercase_toUInt8 : isAsciiLowercase c.toUInt8 = c.isLower := by
  have hc := toNat_toUInt8 h
  simp [isAsciiLowercase, Char.isLower, UInt8.le_iff_toNat_le, UInt32.le_iff_toNat_le, hc]

theorem isAsciiUppercase_toUInt8 : isAsciiUppercase c.toUInt8 = c.isUpper := by
  have hc := toNat_toUInt8 h
  simp [isAsciiUppercase, Char.isUpper, UInt8.le_iff_toNat_le, UInt32.le_iff_toNat_le, hc]

theorem isAsciiAlphabetic_toUInt8 : isAsciiAlphabetic c.toUInt8 = c.isAlpha := by
  rw [isAsciiAlphabetic, isAsciiLowercase_toUInt8 h, isAsciiUppercase_toUInt8 h, Char.isAlpha, Bool.or_comm]

theorem isAsciiAlphanumeric_toUInt8 : isAsciiAlphanumeric c.toUInt8 = c.isAlphanum := by
  rw [isAsciiAlphanumeric, isAsciiAlphabetic_toUInt8 h, isAsciiDigit_toUInt8 h, Char.isAlphanum]

theorem toUInt8_eq_iff {c' : Char} (h' : c'.toNat < 128) : c.toUInt8 = c'.toUInt8 ↔ c = c' := by
  rw [← UInt8.toNat_inj, toNat_toUInt8 h, toNat_toUInt8 h', Char.toNat_inj]

end Kinds

end Jefferies
