import Mathlib

/-!
Packing and unpacking of 64-bit floats.

What a float unpacks to is canonical: its mantissa has 53 digits, or it is smaller and the exponent is
the least one.  A canonical number comes back from its packed form unless its exponent is too great, in
which case the packed form is an infinity (`unpack_pack`).  The other way round every float comes back
from its unpacked form, also the one that is not a number (`pack_unpack`).
-/

namespace AsmOrigin.Binary64

open Float.Model Float.Model.UnpackedFloat

/-- Mantissa and exponent as a 64-bit float can hold them, but for the greatest exponent. -/
structure Canonical (m : Nat) (e : Int) : Prop where
  lt : m < 2 ^ 53
  least : -1074 ≤ e
  normal : 2 ^ 52 ≤ m ∨ e = -1074

def IsCanonical : UnpackedFloat → Prop
  | .finite _ m e _ => Canonical m e
  | _ => True

/-- A number whose exponent is too great becomes an infinity. -/
def clamped : UnpackedFloat → UnpackedFloat
  | .finite s m e h => if 971 < e then .infinity s else .finite s m e h
  | u => u

/-! ## Fields -/

theorem ofBitVec_unpackSign {format : Format} (s : Sign) (exponent : BitVec format.exponentBits)
    (mantissa : BitVec format.mantissaBitsWithoutImplicit) :
    Sign.ofBitVec (unpackSign (packComponents format s exponent mantissa)) = s := by
  have h : unpackSign (packComponents format s exponent mantissa) = s.toBitVec := by
    apply BitVec.eq_of_getLsbD_eq
    intro i hi
    obtain rfl : i = 0 := by omega
    simp [unpackSign, packComponents, BitVec.getLsbD_append, BitVec.getElem_append]
  rw [h]
  cases s <;> rfl

/-- The implicit leading digit counts 2⁵². -/
theorem toNat_one_append (v : BitVec 52) : (1#1 ++ v).toNat = 2 ^ 52 + v.toNat := by
  have h := Nat.two_pow_add_eq_or_of_lt v.isLt 1
  rw [BitVec.toNat_append]
  simpa using h.symm

theorem finite_congr {s : Sign} {m n : Nat} {e f : Int} {hm : 0 < m} {hn : 0 < n} (h₁ : m = n)
    (h₂ : e = f) : UnpackedFloat.finite s m e hm = .finite s n f hn := by
  subst h₁ h₂
  rfl

/-- What sign, exponent and mantissa stand for. -/
def ofFields (s : Sign) (exponent : BitVec 11) (mantissa : BitVec 52) : UnpackedFloat :=
  if exponent = -1#11 then
    if mantissa = 0#52 then .infinity s else .notANumber
  else if exponent = 0#11 then
    if h : mantissa = 0#52 then .zero s
    else .finite s mantissa.toNat ((exponent.toNat : Int) - (1023 + 52) + 1)
      (by simpa [BitVec.toNat_pos, BitVec.pos_iff_ne_zero])
  else .finite s (1#1 ++ mantissa).toNat ((exponent.toNat : Int) - (1023 + 52))
    (by rw [toNat_one_append]; omega)

theorem unpack_eq_ofFields (b : BitVec 64) :
    UnpackedFloat.unpack Format.binary64 b =
      ofFields (Sign.ofBitVec (@unpackSign Format.binary64 b)) (@unpackExponent Format.binary64 b)
        (@unpackMantissa Format.binary64 b) := by
  rfl

theorem unpack_packComponents (s : Sign) (exponent : BitVec 11) (mantissa : BitVec 52) :
    UnpackedFloat.unpack Format.binary64 (packComponents Format.binary64 s exponent mantissa) =
      ofFields s exponent mantissa := by
  rw [unpack_eq_ofFields, unpackMantissa_packComponents, unpackExponent_packComponents,
    ofBitVec_unpackSign]

/-! ## Unpacking -/

theorem isCanonical_ofFields (s : Sign) (exponent : BitVec 11) (mantissa : BitVec 52) :
    IsCanonical (ofFields s exponent mantissa) := by
  have hm := mantissa.isLt
  unfold ofFields
  split
  · split <;> trivial
  · split
    · split
      · trivial
      · rename_i hzero _
        exact ⟨by omega, by omega, .inr (by rw [hzero]; rfl)⟩
    · rename_i hzero
      have hpos : exponent.toNat ≠ 0 := fun h => hzero (BitVec.eq_of_toNat_eq h)
      have hM := toNat_one_append mantissa
      exact ⟨by omega, by omega, .inl (by omega)⟩

theorem clamped_ofFields (s : Sign) (exponent : BitVec 11) (mantissa : BitVec 52) :
    clamped (ofFields s exponent mantissa) = ofFields s exponent mantissa := by
  unfold ofFields
  split
  · split <;> rfl
  · rename_i hinf
    split
    · rename_i hzero
      split
      · rfl
      · exact if_neg (by rw [hzero]; decide)
    · have he := exponent.isLt
      have hne : exponent.toNat ≠ 2047 := fun h => hinf (BitVec.eq_of_toNat_eq h)
      exact if_neg (by omega)

theorem isCanonical_unpack (x : Float.Model) : IsCanonical x.unpack := by
  unfold Float.Model.unpack
  rw [unpack_eq_ofFields]
  exact isCanonical_ofFields _ _ _

theorem clamped_unpack (x : Float.Model) : clamped x.unpack = x.unpack := by
  unfold Float.Model.unpack
  rw [unpack_eq_ofFields]
  exact clamped_ofFields _ _ _

/-! ## Packing -/

theorem unpack_packedInfinity (s : Sign) :
    UnpackedFloat.unpack Format.binary64 (packedInfinity Format.binary64 s) = .infinity s :=
  unpack_packComponents s (-1#11) 0#52

theorem unpack_packedZero (s : Sign) :
    UnpackedFloat.unpack Format.binary64 (packedZero Format.binary64 s) = .zero s :=
  unpack_packComponents s 0#11 0#52

theorem unpack_packedNaN :
    UnpackedFloat.unpack Format.binary64 (packedNaN Format.binary64) = .notANumber :=
  unpack_packComponents .positive (-1#11) (1#52 <<< 51)

theorem pack_finite {s : Sign} {m : Nat} {e : Int} {hm : 0 < m} :
    UnpackedFloat.pack Format.binary64 (.finite s m e hm) =
      if 2048 ≤ (e + 1023 + 52).toNat + 1 then packedInfinity Format.binary64 s
      else if m.log2 + 1 = 53 then
        packComponents Format.binary64 s (BitVec.ofNat 11 (e + 1023 + 52).toNat) (BitVec.ofNat 52 m)
      else packComponents Format.binary64 s 0#11 (BitVec.ofNat 52 m) := by
  rfl

theorem unpack_pack_finite {s : Sign} {m : Nat} {e : Int} (hm : 0 < m) (hc : Canonical m e)
    (he : e ≤ 971) : UnpackedFloat.unpack Format.binary64
      (UnpackedFloat.pack Format.binary64 (.finite s m e hm)) = .finite s m e hm := by
  obtain ⟨hlt, hleast, hnormal⟩ := hc
  rw [pack_finite, if_neg (by omega)]
  by_cases h52 : 2 ^ 52 ≤ m
  · have hlog : m.log2 = 52 := (Nat.log2_eq_iff (by omega)).2 ⟨h52, hlt⟩
    have hE : (BitVec.ofNat 11 (e + 1023 + 52).toNat).toNat = (e + 1023 + 52).toNat := by
      rw [BitVec.toNat_ofNat]
      omega
    have hinf : BitVec.ofNat 11 (e + 1023 + 52).toNat ≠ -1#11 := by
      intro h
      rw [h, show (-1#11).toNat = 2047 from by decide] at hE
      omega
    have hzero : BitVec.ofNat 11 (e + 1023 + 52).toNat ≠ 0#11 := by
      intro h
      rw [h, show (0#11).toNat = 0 from rfl] at hE
      omega
    rw [if_pos (by omega), unpack_packComponents, ofFields, if_neg hinf, if_neg hzero]
    refine finite_congr ?_ ?_
    · rw [toNat_one_append, BitVec.toNat_ofNat]
      omega
    · omega
  · have hlog : m.log2 < 52 := (Nat.log2_lt (by omega)).2 (by omega)
    have hM : (BitVec.ofNat 52 m).toNat = m := by
      rw [BitVec.toNat_ofNat]
      omega
    have hzero : BitVec.ofNat 52 m ≠ 0#52 := by
      intro h
      rw [h, show (0#52).toNat = 0 from rfl] at hM
      omega
    rw [if_neg (by omega), unpack_packComponents, ofFields, if_neg (by decide), if_pos rfl,
      dif_neg hzero]
    exact finite_congr hM (by rw [show (0#11).toNat = 0 from rfl]; omega)

/-- A canonical number comes back from its packed form, clamped. -/
theorem unpack_pack {u : UnpackedFloat} (h : IsCanonical u) :
    (Float.Model.pack u).unpack = clamped u := by
  show UnpackedFloat.unpack Format.binary64 (UnpackedFloat.pack Format.binary64 u) = clamped u
  cases u with
  | notANumber => exact unpack_packedNaN
  | infinity s => exact unpack_packedInfinity s
  | zero s => exact unpack_packedZero s
  | finite s m e hm =>
    show _ = if 971 < e then UnpackedFloat.infinity s else .finite s m e hm
    by_cases he : 971 < e
    · rw [if_pos he, pack_finite, if_pos (by omega)]
      exact unpack_packedInfinity s
    · rw [if_neg he]
      exact unpack_pack_finite hm h (by omega)

/-! ## Repacking -/

theorem toBitVec_ofBitVec : ∀ v : BitVec 1, (Sign.ofBitVec v).toBitVec = v := by decide

/-- A word is put together from its fields. -/
theorem packComponents_fields (b : BitVec 64) :
    packComponents Format.binary64 (Sign.ofBitVec (@unpackSign Format.binary64 b))
      (@unpackExponent Format.binary64 b) (@unpackMantissa Format.binary64 b) = b := by
  unfold packComponents
  rw [toBitVec_ofBitVec]
  show ((b.extractLsb 63 63 ++ b.extractLsb 62 52 : BitVec 12) ++ b.extractLsb 51 0 : BitVec 64) = b
  apply BitVec.eq_of_getLsbD_eq
  intro i hi
  simp only [BitVec.getLsbD_append, BitVec.getLsbD_extractLsb]
  by_cases h52 : i < 52
  · simp [h52]
  · by_cases h63 : i - 52 < 11
    · simp [h52, h63, show 52 + (i - 52) = i by omega]
    · obtain rfl : i = 63 := by omega
      simp

/-- What fields other than those of a NaN stand for is packed into the same fields. -/
theorem pack_ofFields {s : Sign} {exponent : BitVec 11} {mantissa : BitVec 52}
    (h : (ofFields s exponent mantissa).isNaN = false) :
    UnpackedFloat.pack Format.binary64 (ofFields s exponent mantissa) =
      packComponents Format.binary64 s exponent mantissa := by
  have hm := mantissa.isLt
  have he := exponent.isLt
  unfold ofFields at h ⊢
  split at h
  · rename_i hinf
    split at h
    · rename_i hzero
      rw [if_pos hinf, if_pos hzero, hinf, hzero]
      rfl
    · cases h
  · rename_i hinf
    rw [if_neg hinf]
    split
    · rename_i hsub
      split
      · rename_i hzero
        rw [hsub, hzero]
        rfl
      · rename_i hzero
        have hpos : mantissa.toNat ≠ 0 := fun h => hzero (BitVec.eq_of_toNat_eq h)
        have hlog : mantissa.toNat.log2 < 52 := (Nat.log2_lt hpos).2 hm
        rw [pack_finite, hsub, if_neg (by decide), if_neg (by omega), BitVec.ofNat_toNat,
          BitVec.setWidth_eq]
    · have hM := toNat_one_append mantissa
      have hne : exponent.toNat ≠ 2047 := fun h => hinf (BitVec.eq_of_toNat_eq h)
      have hlog : (1#1 ++ mantissa).toNat.log2 = 52 :=
        (Nat.log2_eq_iff (by omega)).2 ⟨by omega, by omega⟩
      rw [pack_finite, if_neg (by omega), if_pos (by omega)]
      congr 1
      · rw [show ((exponent.toNat : Int) - (1023 + 52) + 1023 + 52).toNat = exponent.toNat by omega,
          BitVec.ofNat_toNat, BitVec.setWidth_eq]
      · apply BitVec.eq_of_toNat_eq
        rw [BitVec.toNat_ofNat]
        omega

theorem isNaN_ofFields_iff {s : Sign} {exponent : BitVec 11} {mantissa : BitVec 52} :
    (ofFields s exponent mantissa).isNaN = true ↔ exponent = -1#11 ∧ mantissa ≠ 0#52 := by
  unfold ofFields
  split_ifs <;> simp_all [UnpackedFloat.isNaN]

theorem eq_notANumber_of_isNaN {u : UnpackedFloat} (h : u.isNaN = true) : u = .notANumber := by
  cases u <;> first | rfl | cases h

/-- A float is what it unpacks to, packed again, also where it is not a number. -/
theorem pack_unpack (x : Float.Model) : Float.Model.pack x.unpack = x := by
  obtain ⟨⟨b⟩, hvalid⟩ := x
  have hb : UnpackedFloat.pack Format.binary64 (UnpackedFloat.unpack Format.binary64 b) = b := by
    rw [unpack_eq_ofFields]
    cases hn : (ofFields (Sign.ofBitVec (@unpackSign Format.binary64 b))
      (@unpackExponent Format.binary64 b) (@unpackMantissa Format.binary64 b)).isNaN with
    | false => rw [pack_ofFields hn, packComponents_fields b]
    | true =>
      obtain ⟨he, hm⟩ := isNaN_ofFields_iff.1 hn
      rw [eq_notANumber_of_isNaN hn]
      exact (hvalid.eq_packedNaN he hm).symm
  unfold Float.Model.pack
  congr 1
  exact congrArg UInt64.ofBitVec hb

end AsmOrigin.Binary64
