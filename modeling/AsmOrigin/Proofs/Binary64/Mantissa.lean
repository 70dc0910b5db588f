import AsmOrigin.Proofs.Binary64.Packing
import AsmOrigin.Proofs.Binary64.Rounding

/-!
Rounding of mantissas: the float model's shifts compute `nearest`.

A mantissa with its round bit and its sticky bit tells in which half of which unit a real number lies
(`Describes`).  Shifting it to the right keeps that (`describes_shiftRightOne`), so what is rounded at the
target exponent is the exact number.  `IsRounding u x` says that the unpacked float `u` is the number `x`
after rounding.
-/

namespace AsmOrigin.Binary64

open Float.Model Float.Model.UnpackedFloat

/-! ## Shifting -/

theorem describes_shiftRightOne {y : ℝ} {em : ExtendedMantissa} (h : Describes y em) :
    Describes (y / 2) em.shiftRightOne := by
  obtain ⟨m, r, s⟩ := em
  -- the new round bit is the last digit of the old mantissa
  have hb : ((m / 2 : Nat) : ℝ) + (if m % 2 != 0 then 1 / 2 else 0) = m / 2 := by
    rcases Nat.mod_two_eq_zero_or_one m with hm | hm
    · have : (m : ℝ) = 2 * (m / 2 : Nat) := by exact_mod_cast (by omega : m = 2 * (m / 2))
      simp only [hm, bne_self_eq_false, Bool.false_eq_true, if_false]
      linarith
    · have : (m : ℝ) = 2 * (m / 2 : Nat) + 1 := by exact_mod_cast (by omega : m = 2 * (m / 2) + 1)
      simp only [hm, show (1 != 0) = true from rfl, if_true]
      linarith
  show Describes (y / 2) ⟨m / 2, m % 2 != 0, r || s⟩
  simp only [Describes] at h ⊢
  rw [hb]
  cases r <;> cases s
  · simp at h ⊢
    linarith
  · simp at h ⊢
    constructor <;> linarith
  · simp at h ⊢
    constructor <;> linarith
  · simp at h ⊢
    constructor <;> linarith

theorem describes_shiftRight {y : ℝ} {em : ExtendedMantissa} (h : Describes y em) (n : Nat) :
    Describes (y / 2 ^ n) (em >>> n) := by
  induction n with
  | zero =>
    rw [pow_zero, div_one]
    exact h
  | succ n ih =>
    rw [pow_succ, ← div_div]
    exact describes_shiftRightOne ih

theorem le_of_describes {y : ℝ} {em : ExtendedMantissa} (h : Describes y em) :
    (em.mantissa : ℝ) ≤ y := by
  obtain ⟨m, r, s⟩ := em
  cases r <;> cases s <;> simp [Describes] at h ⊢ <;> linarith

theorem lt_of_describes {y : ℝ} {em : ExtendedMantissa} (h : Describes y em) :
    y < em.mantissa + 1 := by
  obtain ⟨m, r, s⟩ := em
  cases r <;> cases s <;> simp [Describes] at h ⊢ <;> linarith

theorem roundedMantissa_eq {y : ℝ} {em : ExtendedMantissa} (h : Describes y em) :
    (em.roundedMantissa : ℤ) = nearestInt y := by
  obtain ⟨m, r, s⟩ := em
  cases r <;> cases s <;> simp only [Describes, if_true, if_false, Bool.false_eq_true, add_zero] at h
  · rw [h, ← Int.cast_natCast (R := ℝ), nearestInt_intCast]
    rfl
  · rw [nearestInt_eq_of_lt_half (n := m) (by exact_mod_cast h.1.le) (by exact_mod_cast h.2)]
    rfl
  · rw [h, ← Int.cast_natCast (R := ℝ), nearestInt_half]
    exact Int.natCast_add m (m % 2)
  · rw [nearestInt_eq_of_half_lt (n := m) (by exact_mod_cast h.1) (by push_cast; linarith [h.2])]
    exact Int.natCast_add m 1

theorem describes_exact (m : Nat) :
    Describes m (ExtendedMantissa.ofMantissaAndAccuracy m .exact) := by
  simp [Describes, ExtendedMantissa.ofMantissaAndAccuracy]

/-! ## Target exponents -/

theorem targetExponent_binary64 (e : Int) :
    Format.binary64.targetExponent e = max (e - 53) (-1074) := by
  have hbits : (Format.binary64.mantissaBits : Int) = 53 := by decide
  have hmin : Format.binary64.minExponent = -1074 := by decide
  unfold Format.targetExponent
  rw [hbits, hmin]

theorem targetExponent_eq (m : Nat) (e : Int) :
    Format.binary64.targetExponent (totalExponent m e) = max ((m.log2 : Int) + e - 52) (-1074) := by
  rw [targetExponent_binary64]
  unfold totalExponent
  omega

/-- The target exponent of a mantissa of 53 digits is not below its own. -/
theorem le_targetExponent {m : Nat} {t : Int} (h : 2 ^ 52 ≤ m ∨ t ≤ -1074) :
    t ≤ Format.binary64.targetExponent (totalExponent m t) := by
  rw [targetExponent_eq]
  rcases h with hm | ht
  · have := (Nat.le_log2 (by omega)).2 hm
    omega
  · omega

/-- Places of a mantissa and size of the number it describes. -/
theorem targetExponent_eq_lastPlace {x : ℝ} (hx : 0 < x) {m : Nat} {e : Int} {a : Accuracy}
    (hd : Describes (x / 2 ^ e) (ExtendedMantissa.ofMantissaAndAccuracy m a))
    (he : e ≤ Format.binary64.targetExponent (totalExponent m e)) :
    Format.binary64.targetExponent (totalExponent m e) = lastPlace x := by
  have hp : (0 : ℝ) < 2 ^ e := by positivity
  have hmant : (ExtendedMantissa.ofMantissaAndAccuracy m a).mantissa = m := by
    match a with
    | .exact => rfl
    | .inexact .lt => rfl
    | .inexact .eq => rfl
    | .inexact .gt => rfl
  have hlo := le_of_describes hd
  have hhi := lt_of_describes hd
  rw [hmant, le_div_iff₀ hp] at hlo
  rw [hmant, div_lt_iff₀ hp] at hhi
  rw [targetExponent_eq] at he ⊢
  unfold lastPlace
  rw [abs_of_pos hx]
  rcases Nat.eq_zero_or_pos m with rfl | hm
  · have hlog : Int.log 2 x < e := by
      refine (Int.lt_zpow_iff_log_lt (b := 2) (by norm_num) hx).1 ?_
      simpa using hhi
    simp only [Nat.log2_zero] at he ⊢
    omega
  · have h₁ : (m.log2 : ℤ) + e ≤ Int.log 2 x := by
      refine (Int.zpow_le_iff_le_log (b := 2) (by norm_num) hx).1 ?_
      refine le_trans ?_ hlo
      push_cast
      rw [zpow_add₀ (by norm_num), zpow_natCast]
      exact mul_le_mul_of_nonneg_right (by exact_mod_cast Nat.log2_self_le hm.ne') hp.le
    have h₂ : Int.log 2 x < (m.log2 : ℤ) + 1 + e := by
      refine (Int.lt_zpow_iff_log_lt (b := 2) (by norm_num) hx).1 ?_
      refine lt_of_lt_of_le hhi ?_
      push_cast
      rw [zpow_add₀ (by norm_num), show ((m.log2 : ℤ) + 1) = ((m.log2 + 1 : ℕ) : ℤ) by push_cast; rfl,
        zpow_natCast]
      refine mul_le_mul_of_nonneg_right ?_ hp.le
      exact_mod_cast Nat.succ_le_of_lt (Nat.lt_log2_self (n := m))
    omega

theorem shiftToTargetExponent_of_le {m : Nat} {e : Int} {a : Accuracy}
    (he : e ≤ Format.binary64.targetExponent (totalExponent m e)) :
    shiftToTargetExponent Format.binary64 m e a =
      (ExtendedMantissa.ofMantissaAndAccuracy m a >>>
        (Format.binary64.targetExponent (totalExponent m e) - e).toNat,
        Format.binary64.targetExponent (totalExponent m e)) := by
  unfold shiftToTargetExponent shiftToExponent
  simp only [Prod.mk.injEq, true_and]
  omega

/-- A mantissa that has room is not shifted. -/
theorem shiftToTargetExponent_of_lt {m : Nat} {e : Int} (hm : m < 2 ^ 53) (he : -1074 ≤ e) :
    shiftToTargetExponent Format.binary64 m e .exact = (⟨m, false, false⟩, e) := by
  have hlog : m.log2 ≤ 52 := by
    rcases Nat.eq_zero_or_pos m with rfl | h0
    · simp
    · have := (Nat.log2_lt h0.ne').2 hm
      omega
  have hn : (Format.binary64.targetExponent (totalExponent m e) - e).toNat = 0 := by
    rw [targetExponent_eq]
    omega
  unfold shiftToTargetExponent shiftToExponent
  simp only [hn]
  exact Prod.ext rfl (by simp)

/-- A mantissa that rounding has made one digit too long. -/
theorem shiftToTargetExponent_overlong {e : Int} (he : -1074 ≤ e) :
    shiftToTargetExponent Format.binary64 (2 ^ 53) e .exact = (⟨2 ^ 52, false, false⟩, e + 1) := by
  have hn : (Format.binary64.targetExponent (totalExponent (2 ^ 53) e) - e).toNat = 1 := by
    rw [targetExponent_eq, Nat.log2_two_pow]
    omega
  unfold shiftToTargetExponent shiftToExponent
  simp only [hn]
  rfl

/-! ## Rounding -/

/-- The float is the number after rounding, but for the limit on exponents. -/
structure IsRounding (u : UnpackedFloat) (x : ℝ) : Prop where
  isFinite : u.isFinite = true
  isCanonical : IsCanonical u
  realOf_eq : realOf u = nearest x

theorem nearest_signed (s : Sign) (x : ℝ) : nearest (signed s x) = signed s (nearest x) := by
  cases s
  · exact nearest_neg x
  · rfl

theorem onGrid_signed {x : ℝ} (s : Sign) (h : OnGrid x) : OnGrid (signed s x) := by
  cases s
  · obtain ⟨m, e, hm, he, rfl⟩ := h
    exact ⟨-m, e, by rwa [abs_neg], he, by simp [signed]⟩
  · exact h

theorem onGrid_of_canonical {m : Nat} {e : Int} (h : Canonical m e) : OnGrid (m * 2 ^ e) :=
  ⟨m, e, by rw [Nat.abs_cast]; exact_mod_cast h.lt, h.least, by simp⟩

theorem onGrid_realOf {u : UnpackedFloat} (h : IsCanonical u) : OnGrid (realOf u) := by
  cases u with
  | finite s m e hm => exact onGrid_signed s (onGrid_of_canonical h)
  | _ => exact ⟨0, 0, by norm_num, by norm_num, by simp [realOf]⟩

/-- A float that is there already needs no rounding. -/
theorem isRounding_self {u : UnpackedFloat} (h : IsCanonical u) (hf : u.isFinite = true) :
    IsRounding u (realOf u) :=
  ⟨hf, h, (nearest_of_onGrid (onGrid_realOf h)).symm⟩

theorem isRounding_zero (s : Sign) : IsRounding (.zero s) 0 :=
  ⟨rfl, trivial, nearest_zero.symm⟩

theorem isRounding_of_eq {u : UnpackedFloat} {x y : ℝ} (h : IsRounding u x) (hxy : x = y) :
    IsRounding u y := hxy ▸ h

/-- Rounding at the target exponent gives a mantissa of at most 53 digits, or the next power of two. -/
theorem isRounding_of_nearestInt {s : Sign} {x : ℝ} {k : Nat} {t : Int}
    (ht : t = lastPlace x) (hk : (k : ℤ) = nearestInt (x / 2 ^ t)) (hle : k ≤ 2 ^ 53)
    (hnormal : 2 ^ 52 ≤ k ∨ t = -1074) (hleast : -1074 ≤ t) :
    IsRounding
      (let (em, e) := shiftToTargetExponent Format.binary64 k t .exact
       if h : em.mantissa = 0 then .zero s else .finite s em.mantissa e (Nat.pos_of_ne_zero h))
      (signed s x) := by
  have hnearest : nearest x = k * 2 ^ t := by
    unfold nearest nearestOn
    rw [← ht, ← hk]
    simp
  rcases hle.lt_or_eq with hlt | rfl
  · rw [shiftToTargetExponent_of_lt hlt hleast]
    by_cases h0 : k = 0
    · subst h0
      refine ⟨rfl, trivial, ?_⟩
      rw [nearest_signed, hnearest]
      cases s <;> simp [signed, realOf]
    · simp only [h0, dite_false]
      refine ⟨rfl, ⟨hlt, hleast, hnormal⟩, ?_⟩
      rw [nearest_signed, hnearest]
      rfl
  · rw [shiftToTargetExponent_overlong hleast]
    refine ⟨rfl, ⟨by norm_num, by omega, .inl le_rfl⟩, ?_⟩
    rw [nearest_signed, hnearest]
    show signed s (((2 ^ 52 : Nat) : ℝ) * 2 ^ (t + 1)) = _
    rw [zpow_add_one₀ (by norm_num)]
    congr 1
    push_cast
    ring

theorem isRounding_roundWithAccuracy {x : ℝ} (hx : 0 < x) (s : Sign) {m : Nat} {e : Int}
    {a : Accuracy} (hd : Describes (x / 2 ^ e) (ExtendedMantissa.ofMantissaAndAccuracy m a))
    (he : e ≤ Format.binary64.targetExponent (totalExponent m e)) :
    IsRounding (roundWithAccuracy Format.binary64 s m e a) (signed s x) := by
  have ht := targetExponent_eq_lastPlace hx hd he
  unfold roundWithAccuracy
  rw [shiftToTargetExponent_of_le he]
  generalize Format.binary64.targetExponent (totalExponent m e) = t at he ht ⊢
  -- the shifted mantissa describes the number in units of its last place
  have hshift : x / 2 ^ e / 2 ^ (t - e).toNat = x / 2 ^ t := by
    rw [div_div, ← zpow_natCast, ← zpow_add₀ (by norm_num)]
    congr 2
    omega
  have hk := roundedMantissa_eq (describes_shiftRight hd (t - e).toNat)
  rw [hshift] at hk
  have hle := nearestInt_div_le hx ht
  have hnormal := le_nearestInt_div hx ht
  refine isRounding_of_nearestInt ht hk (by omega) (by omega) ?_
  rw [ht, lastPlace]
  omega

theorem log2_shiftLeft {m : Nat} (hm : 0 < m) (n : Nat) : (m <<< n).log2 = m.log2 + n := by
  rw [Nat.shiftLeft_eq, Nat.log2_eq_iff (by positivity)]
  have h₁ := Nat.log2_self_le hm.ne'
  have h₂ := Nat.lt_log2_self (n := m)
  constructor
  · rw [pow_add]
    exact Nat.mul_le_mul_right _ h₁
  · rw [show m.log2 + n + 1 = m.log2 + 1 + n by omega, pow_add]
    exact Nat.mul_lt_mul_of_pos_right h₂ (by positivity)

theorem isRounding_round (s : Sign) {m : Nat} (hm : 0 < m) (e : Int) :
    IsRounding (UnpackedFloat.round Format.binary64 s m e) (signed s (m * 2 ^ e)) := by
  have ht := targetExponent_eq m e
  generalize hn : (e - Format.binary64.targetExponent (totalExponent m e)).toNat = n
  have hround : UnpackedFloat.round Format.binary64 s m e =
      roundWithAccuracy Format.binary64 s (m <<< n) (e - n) .exact := by
    rw [← hn]
    rfl
  have hmn : (m : ℝ) * 2 ^ e / 2 ^ (e - n : ℤ) = (m <<< n : Nat) := by
    rw [mul_div_assoc, ← zpow_sub₀ (by norm_num), sub_sub_cancel, zpow_natCast, Nat.shiftLeft_eq]
    push_cast
    rfl
  rw [hround]
  refine isRounding_roundWithAccuracy (by positivity) s ?_ ?_
  · rw [hmn]
    exact describes_exact _
  · rw [targetExponent_eq, log2_shiftLeft hm]
    omega

theorem isRounding_normalize (m : Int) (e : Int) (s : Sign) :
    IsRounding (UnpackedFloat.normalize Format.binary64 m e s) (m * 2 ^ e) := by
  unfold UnpackedFloat.normalize
  rcases lt_trichotomy m 0 with h | rfl | h
  · rw [Int.compare_eq_lt.2 h]
    refine isRounding_of_eq (isRounding_round .negative (m := (-m).toNat) (by omega) e) ?_
    have : (((-m).toNat : ℤ) : ℝ) = ((-m : ℤ) : ℝ) := by rw [Int.toNat_of_nonneg (by omega)]
    rw [Int.cast_natCast] at this
    rw [this]
    push_cast
    simp [signed]
  · refine isRounding_of_eq (isRounding_zero s) (by simp)
  · rw [Int.compare_eq_gt.2 h]
    refine isRounding_of_eq (isRounding_round .positive (m := m.toNat) (by omega) e) ?_
    have : ((m.toNat : ℤ) : ℝ) = (m : ℝ) := by rw [Int.toNat_of_nonneg (by omega)]
    rw [Int.cast_natCast] at this
    rw [this]
    rfl

end AsmOrigin.Binary64
