/-!
# Order by bytes

Texts are compared character by character, by code point.  Their bytes in UTF-8 are in the same
order: `lt_iff_bytes_lt`.  A character with fewer bytes than another has a smaller first byte, and
of two characters with equally many bytes the one with the smaller code point has the smaller byte
where they first differ (`encode_lt`); neither is the start of the other, so what follows them does
not matter.
-/

namespace ShapeContract.Text

/-- The bytes of a text in UTF-8. -/
def bytes (s : String) : List UInt8 := s.toByteArray.data.toList

theorem bytes_eq_flatMap (s : String) : bytes s = s.toList.flatMap String.utf8EncodeChar := by
  rw [bytes, ← String.utf8Encode_toList, List.utf8Encode, List.toList_data_toByteArray]

/-! ### One character -/

theorem codePoint_lt (c : Char) : c.val.toNat < 1114112 := by
  have h := c.valid
  simp only [UInt32.isValidChar, Nat.isValidChar] at h
  omega

theorem ofNat_cons_lt_cons {m n : Nat} (hm : m < 256) (hn : n < 256) {l r : List UInt8} :
    UInt8.ofNat m :: l < UInt8.ofNat n :: r ↔ m < n ∨ m = n ∧ l < r := by
  rw [List.cons_lt_cons_iff, UInt8.lt_iff_toNat_lt, ← UInt8.toNat_inj, UInt8.toNat_ofNat',
    UInt8.toNat_ofNat', Nat.mod_eq_of_lt hm, Nat.mod_eq_of_lt hn]

/-- The smaller of two characters has the smaller bytes, whatever follows. -/
theorem encode_lt {c d : Char} (h : c < d) (l r : List UInt8) :
    String.utf8EncodeChar c ++ l < String.utf8EncodeChar d ++ r := by
  have hcd : c.val.toNat < d.val.toNat := h
  have hd := codePoint_lt d
  dsimp only [String.utf8EncodeChar]
  generalize c.val.toNat = v at hcd
  generalize d.val.toNat = w at hcd hd
  -- by the number of bytes of the greater character, then of the smaller one
  by_cases h1 : w ≤ 127
  · rw [if_pos h1, if_pos (by omega)]
    exact (ofNat_cons_lt_cons (by omega) (by omega)).mpr (Or.inl hcd)
  rw [if_neg h1]
  by_cases h2 : w ≤ 2047
  · rw [if_pos h2]
    split
    · exact (ofNat_cons_lt_cons (by omega) (by omega)).mpr (Or.inl (by omega))
    · rw [if_pos (by omega)]
      simp (disch := omega) only [List.cons_append, ofNat_cons_lt_cons]
      omega
  rw [if_neg h2]
  by_cases h3 : w ≤ 65535
  · rw [if_pos h3]
    split
    · exact (ofNat_cons_lt_cons (by omega) (by omega)).mpr (Or.inl (by omega))
    split
    · exact (ofNat_cons_lt_cons (by omega) (by omega)).mpr (Or.inl (by omega))
    · rw [if_pos (by omega)]
      simp (disch := omega) only [List.cons_append, ofNat_cons_lt_cons]
      omega
  · rw [if_neg h3]
    split
    · exact (ofNat_cons_lt_cons (by omega) (by omega)).mpr (Or.inl (by omega))
    split
    · exact (ofNat_cons_lt_cons (by omega) (by omega)).mpr (Or.inl (by omega))
    split
    · exact (ofNat_cons_lt_cons (by omega) (by omega)).mpr (Or.inl (by omega))
    · -- nested quotients, so that each digit in base 64 is a remainder of the one before
      have hsq : ∀ n : Nat, n / 4096 = n / 64 / 64 := fun n => by omega
      have hcube : ∀ n : Nat, n / 262144 = n / 64 / 64 / 64 := fun n => by omega
      simp (disch := omega) only [List.cons_append, ofNat_cons_lt_cons, hsq, hcube]
      clear hsq hcube
      omega

/-! ### Texts -/

theorem flatMap_encode_lt {l m : List Char} (h : List.Lex (· < ·) l m) :
    l.flatMap String.utf8EncodeChar < m.flatMap String.utf8EncodeChar := by
  induction h with
  | @nil d m =>
    rw [List.flatMap_nil, List.flatMap_cons]
    cases hd : String.utf8EncodeChar d with
    | nil => exact absurd hd String.utf8EncodeChar_ne_nil
    | cons x xs => exact List.Lex.nil
  | rel hcd => exact encode_lt hcd _ _
  | cons _ ih =>
    rw [List.flatMap_cons, List.flatMap_cons]
    exact List.append_left_lt ih

/-- **Texts are in the order of their bytes in UTF-8.** -/
theorem lt_iff_bytes_lt {s t : String} : s < t ↔ bytes s < bytes t := by
  have mono : ∀ {a b : String}, a < b → bytes a < bytes b := by
    intro a b hab
    rw [bytes_eq_flatMap, bytes_eq_flatMap]
    exact flatMap_encode_lt hab
  refine ⟨mono, fun h => ?_⟩
  by_cases hst : s < t
  · exact hst
  by_cases hts : t < s
  · exact absurd (mono hts) (List.lt_asymm h)
  · have he : s = t := String.le_antisymm (String.not_lt.mp hts) (String.not_lt.mp hst)
    rw [he] at h
    exact absurd h (List.lt_irrefl _)

end ShapeContract.Text
