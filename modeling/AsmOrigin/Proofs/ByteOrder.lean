import Mathlib.Tactic

/-!
The order of texts is the order of their UTF-8 bytes.

The bytes of a smaller character compare below those of a greater one at some place within both, whatever
follows (`encode_lt_encode`), so comparing byte by byte and comparing character by character agree.
-/

namespace AsmOrigin

/-- The UTF-8 bytes of a text. -/
def utf8 (s : String) : List UInt8 := s.toUTF8.data.toList

theorem utf8_eq_flatMap (s : String) : utf8 s = s.toList.flatMap String.utf8EncodeChar := by
  unfold utf8
  rw [String.toUTF8_eq_toByteArray, ← String.utf8Encode_toList]
  simp [List.utf8Encode]

theorem utf8ByteSize_eq_sum (s : String) :
    s.utf8ByteSize = (s.toList.map fun c => (String.utf8EncodeChar c).length).sum := by
  rw [← List.length_flatMap, ← utf8_eq_flatMap]
  rfl

theorem toNat_lt_of_char (c : Char) : c.val.toNat < 0x110000 := by
  have := c.valid
  simp only [UInt32.isValidChar, Nat.isValidChar] at this
  omega

theorem encode_lt_encode {c d : Char} (h : c < d) (x y : List UInt8) :
    String.utf8EncodeChar c ++ x < String.utf8EncodeChar d ++ y := by
  have hlt : c.val.toNat < d.val.toNat := h
  have hd := toNat_lt_of_char d
  -- no byte wraps round
  have h64 : ∀ k : Nat, (k % 64 + 128) % 256 = k % 64 + 128 := by omega
  have h32 : ∀ k : Nat, (k % 32 + 192) % 256 = k % 32 + 192 := by omega
  have h16 : ∀ k : Nat, (k % 16 + 224) % 256 = k % 16 + 224 := by omega
  have h8 : ∀ k : Nat, (k % 8 + 240) % 256 = k % 8 + 240 := by omega
  unfold String.utf8EncodeChar
  generalize c.val.toNat = m at hlt
  generalize d.val.toNat = n at hlt hd
  -- digits to the base 64
  have h₂ : ∀ k : Nat, k / 4096 = k / 64 / 64 := by omega
  have h₃ : ∀ k : Nat, k / 262144 = k / 64 / 64 / 64 := by omega
  dsimp only
  split_ifs <;>
    simp only [List.cons_append, List.cons_lt_cons_iff, UInt8.lt_iff_toNat_lt, ← UInt8.toNat_inj,
      UInt8.toNat_ofNat', Nat.reducePow, h64, h32, h16, h8, h₂, h₃] <;>
    omega

theorem encode_ne_nil (c : Char) : String.utf8EncodeChar c ≠ [] := by
  unfold String.utf8EncodeChar
  dsimp only
  split_ifs <;> exact List.cons_ne_nil _ _

/-- Every character has a byte at least. -/
theorem length_toList_le_utf8 (s : String) : s.toList.length ≤ (utf8 s).length := by
  rw [utf8_eq_flatMap]
  induction s.toList with
  | nil => exact le_rfl
  | cons c r ih =>
    have hc : 0 < (String.utf8EncodeChar c).length := List.length_pos_iff.2 (encode_ne_nil c)
    rw [List.flatMap_cons, List.length_append, List.length_cons]
    omega

theorem flatMap_encode_lt {l m : List Char} (h : l < m) :
    l.flatMap String.utf8EncodeChar < m.flatMap String.utf8EncodeChar := by
  induction l generalizing m with
  | nil =>
    cases m with
    | nil => exact absurd h (List.lt_irrefl [])
    | cons d m =>
      obtain ⟨b, r, hb⟩ := List.exists_cons_of_ne_nil (encode_ne_nil d)
      rw [List.flatMap_nil, List.flatMap_cons, hb]
      exact List.nil_lt_cons _ _
  | cons c l ih =>
    cases m with
    | nil => exact absurd h (List.not_lt_nil _)
    | cons d m =>
      rw [List.flatMap_cons, List.flatMap_cons]
      rcases List.cons_lt_cons_iff.1 h with hcd | ⟨rfl, hlm⟩
      · exact encode_lt_encode hcd _ _
      · exact List.append_left_lt (ih hlm)

/-- Texts and their bytes compare alike. -/
theorem utf8_lt_utf8_iff {s t : String} : utf8 s < utf8 t ↔ s < t := by
  have hmono : ∀ {s t : String}, s < t → utf8 s < utf8 t := by
    intro s t h
    rw [utf8_eq_flatMap, utf8_eq_flatMap]
    exact flatMap_encode_lt (String.lt_iff.1 h)
  refine ⟨fun h => ?_, hmono⟩
  by_contra hst
  by_cases hts : t < s
  · exact List.lt_irrefl _ (List.lt_trans h (hmono hts))
  · obtain rfl : s = t := String.le_antisymm (String.not_lt.1 hts) (String.not_lt.1 hst)
    exact List.lt_irrefl _ h

end AsmOrigin
