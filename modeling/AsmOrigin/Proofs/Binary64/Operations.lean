import AsmOrigin.Proofs.Binary64.Mantissa

/-!
Arithmetic of unpacked floats.

`extended u` is the extended real that an unpacked float stands for, and `Yields u z` says that `u` is
`z` once it is rounded and packed.  A sum, a difference, a product, a quotient or a root that is a number
yields the exact result (`yields_add` and its kin).
-/

namespace AsmOrigin.Binary64

open Float.Model Float.Model.UnpackedFloat

/-! ## Values -/

/-- The extended real that an unpacked float stands for; zero for what is not a number. -/
noncomputable def extended : UnpackedFloat → EReal
  | .infinity .positive => ⊤
  | .infinity .negative => ⊥
  | u => (realOf u : ℝ)

/-- Packed, the float is the extended real after rounding. -/
structure Yields (u : UnpackedFloat) (z : EReal) : Prop where
  isCanonical : IsCanonical u
  isNaN_eq : u.isNaN = false
  extended_eq : extended (clamped u) = rounded z

theorem extended_of_isFinite {u : UnpackedFloat} (h : u.isFinite = true) :
    extended u = (realOf u : ℝ) := by
  cases u with
  | infinity s => cases h
  | _ => rfl

@[simp] theorem extended_zero (s : Sign) : extended (.zero s) = 0 := by
  cases s <;> rfl

theorem abs_signed (s : Sign) (x : ℝ) : |signed s x| = |x| := by
  cases s
  · exact abs_neg x
  · rfl

/-- The exponent is too great exactly where the number reaches the limit. -/
theorem limit_le_iff {m : Nat} {e : Int} (h : Canonical m e) :
    limit ≤ (m : ℝ) * 2 ^ e ↔ 971 < e := by
  have hp : (0 : ℝ) < 2 ^ e := by positivity
  constructor
  · intro hle
    by_contra he
    have h₁ : (m : ℝ) * 2 ^ e < 2 ^ (53 : ℤ) * 2 ^ e :=
      mul_lt_mul_of_pos_right (by exact_mod_cast h.lt) hp
    rw [← zpow_add₀ (by norm_num)] at h₁
    have h₂ : (2 : ℝ) ^ (53 + e) ≤ limit := zpow_le_zpow_right₀ (by norm_num) (by omega)
    linarith
  · intro he
    have hm : 2 ^ 52 ≤ m := h.normal.resolve_right (by omega)
    have h₁ : (2 : ℝ) ^ (52 : ℤ) * 2 ^ e ≤ m * 2 ^ e :=
      mul_le_mul_of_nonneg_right (by exact_mod_cast hm) hp.le
    rw [← zpow_add₀ (by norm_num)] at h₁
    have h₂ : limit ≤ (2 : ℝ) ^ (52 + e) := zpow_le_zpow_right₀ (by norm_num) (by omega)
    linarith

theorem extended_clamped {u : UnpackedFloat} (hc : IsCanonical u) (hf : u.isFinite = true) :
    extended (clamped u) = saturated (realOf u) := by
  cases u with
  | infinity s => cases hf
  | notANumber => cases hf
  | zero s =>
    show ((0 : ℝ) : EReal) = saturated 0
    rw [saturated_of_abs_lt (by simpa using limit_pos)]
  | finite s m e hm =>
    have hpos : (0 : ℝ) < m * 2 ^ e := by positivity
    have hiff := limit_le_iff hc
    have hl := limit_pos
    unfold clamped saturated
    by_cases he : 971 < e
    · have hle := hiff.2 he
      simp only [he, if_true]
      cases s
      · show ⊥ = if limit ≤ -(m * 2 ^ e : ℝ) then ⊤ else if -(m * 2 ^ e : ℝ) ≤ -limit then ⊥ else _
        rw [if_neg (by linarith), if_pos (by linarith)]
      · show ⊤ = if limit ≤ (m * 2 ^ e : ℝ) then ⊤ else _
        rw [if_pos hle]
    · have hlt := lt_of_not_ge (mt hiff.1 he)
      simp only [he, if_false]
      have habs : |realOf (.finite s m e hm)| < limit := by
        show |signed s (m * 2 ^ e)| < limit
        rw [abs_signed, abs_of_pos hpos]
        exact hlt
      obtain ⟨h₁, h₂⟩ := abs_lt.1 habs
      rw [if_neg (by linarith), if_neg (by linarith)]
      rfl

theorem isNaN_of_isFinite {u : UnpackedFloat} (h : u.isFinite = true) : u.isNaN = false := by
  cases u <;> first | rfl | cases h

theorem yields_of_isRounding {u : UnpackedFloat} {x : ℝ} (h : IsRounding u x) : Yields u x :=
  ⟨h.isCanonical, isNaN_of_isFinite h.isFinite, by
    rw [extended_clamped h.isCanonical h.isFinite, h.realOf_eq, rounded_coe]⟩

theorem yields_self {u : UnpackedFloat} (hc : IsCanonical u) (hf : u.isFinite = true) :
    Yields u (extended u) := by
  rw [extended_of_isFinite hf]
  exact yields_of_isRounding (isRounding_self hc hf)

theorem yields_infinity (s : Sign) : Yields (.infinity s) (extended (.infinity s)) := by
  cases s <;> exact ⟨trivial, rfl, rfl⟩

theorem yields_zero (s : Sign) : Yields (.zero s) 0 := by
  simpa using yields_of_isRounding (isRounding_zero s)

theorem extended_unpack_pack {u : UnpackedFloat} {z : EReal} (h : Yields u z) :
    extended (Float.Model.pack u).unpack = rounded z := by
  rw [unpack_pack h.isCanonical, h.extended_eq]

theorem isNaN_clamped (u : UnpackedFloat) : (clamped u).isNaN = u.isNaN := by
  cases u with
  | finite s m e hm =>
    show (if 971 < e then UnpackedFloat.infinity s else .finite s m e hm).isNaN = false
    split_ifs <;> rfl
  | _ => rfl

theorem isNaN_unpack_pack {u : UnpackedFloat} (h : IsCanonical u) :
    (Float.Model.pack u).unpack.isNaN = u.isNaN := by
  rw [unpack_pack h, isNaN_clamped]

/-! ## Sums -/

theorem cast_sign_apply (s : Sign) (n : Nat) : ((s.apply (n : Int) : Int) : ℝ) = signed s n := by
  cases s
  · exact Int.cast_neg (n : Int)
  · rfl

theorem signed_mul (s : Sign) (x y : ℝ) : signed s (x * y) = signed s x * y := by
  cases s
  · exact (neg_mul x y).symm
  · rfl

theorem signed_neg (s : Sign) (x : ℝ) : signed (-s) x = -signed s x := by
  cases s
  · exact (neg_neg x).symm
  · rfl

/-- Decreasing the exponent keeps the number. -/
theorem shiftLeft_mul_zpow (m : Nat) {e t : Int} (h : t ≤ e) :
    ((m <<< (e - t).toNat : Nat) : ℝ) * 2 ^ t = m * 2 ^ e := by
  rw [Nat.shiftLeft_eq]
  push_cast
  rw [mul_assoc, ← zpow_natCast (2 : ℝ), ← zpow_add₀ (by norm_num)]
  congr 2
  omega

theorem isRounding_add {s₁ s₂ : Sign} {m₁ m₂ : Nat} {e₁ e₂ : Int} {h₁ : 0 < m₁} {h₂ : 0 < m₂} :
    IsRounding (UnpackedFloat.add Format.binary64 (.finite s₁ m₁ e₁ h₁) (.finite s₂ m₂ e₂ h₂))
      (realOf (.finite s₁ m₁ e₁ h₁) + realOf (.finite s₂ m₂ e₂ h₂)) := by
  refine isRounding_of_eq (isRounding_normalize _ (min e₁ e₂) .positive) ?_
  rw [Int.cast_add, cast_sign_apply, cast_sign_apply, add_mul, ← signed_mul, ← signed_mul,
    shiftLeft_mul_zpow m₁ (min_le_left e₁ e₂), shiftLeft_mul_zpow m₂ (min_le_right e₁ e₂)]
  rfl

theorem yields_add {u v : UnpackedFloat} (hu : IsCanonical u) (hv : IsCanonical v)
    (h : (UnpackedFloat.add Format.binary64 u v).isNaN = false) :
    Yields (UnpackedFloat.add Format.binary64 u v) (extended u + extended v) := by
  cases u with
  | notANumber => cases h
  | infinity s =>
    cases v with
    | notANumber => cases h
    | infinity t =>
      cases s <;> cases t
      · exact yields_infinity .negative
      · cases h
      · cases h
      · exact yields_infinity .positive
    | zero t =>
      rw [extended_zero, add_zero]
      exact yields_infinity s
    | finite t n f hn =>
      cases s
      · exact yields_infinity .negative
      · exact yields_infinity .positive
  | zero s =>
    rw [extended_zero, zero_add]
    cases v with
    | notANumber => cases h
    | infinity t => exact yields_infinity t
    | zero t =>
      rw [extended_zero]
      cases s <;> cases t <;> exact yields_zero _
    | finite t n f hn => exact yields_self hv rfl
  | finite s m e hm =>
    cases v with
    | notANumber => cases h
    | infinity t =>
      cases t
      · exact yields_infinity .negative
      · exact yields_infinity .positive
    | zero t =>
      rw [extended_zero, add_zero]
      exact yields_self hu rfl
    | finite t n f hn => exact yields_of_isRounding isRounding_add

/-! ## Differences -/

theorem sub_eq_add (format : Format) (u v : UnpackedFloat) :
    UnpackedFloat.sub format u v = UnpackedFloat.add format u v.neg := by
  cases u with
  | finite s m e hm =>
    cases v with
    | finite t n f hn =>
      have hs : ∀ k : Int, (-t).apply k = -t.apply k := by
        intro k
        cases t
        · exact (Int.neg_neg k).symm
        · rfl
      simp only [UnpackedFloat.sub, UnpackedFloat.add, UnpackedFloat.neg, hs, Int.sub_eq_add_neg]
    | _ => rfl
  | _ => cases v <;> rfl

theorem isCanonical_neg {u : UnpackedFloat} (h : IsCanonical u) : IsCanonical u.neg := by
  cases u <;> exact h

theorem isNaN_neg (u : UnpackedFloat) : u.neg.isNaN = u.isNaN := by
  cases u <;> rfl

theorem extended_neg (u : UnpackedFloat) : extended u.neg = -extended u := by
  cases u with
  | notANumber => simp [UnpackedFloat.neg, extended, realOf]
  | infinity s => cases s <;> rfl
  | zero s => simp [UnpackedFloat.neg]
  | finite s m e hm =>
    show ((signed (-s) (m * 2 ^ e) : ℝ) : EReal) = -((signed s (m * 2 ^ e) : ℝ) : EReal)
    rw [signed_neg, EReal.coe_neg]

theorem yields_sub {u v : UnpackedFloat} (hu : IsCanonical u) (hv : IsCanonical v)
    (h : (UnpackedFloat.sub Format.binary64 u v).isNaN = false) :
    Yields (UnpackedFloat.sub Format.binary64 u v) (extended u - extended v) := by
  rw [sub_eq_add] at h ⊢
  rw [sub_eq_add_neg, ← extended_neg]
  exact yields_add hu (isCanonical_neg hv) h

/-! ## Products -/

theorem signed_mul_signed (s t : Sign) (x y : ℝ) :
    signed s x * signed t y = signed (s * t) (x * y) := by
  cases s <;> cases t <;> simp [signed]

/-- The product of two mantissas has enough digits. -/
theorem le_targetExponent_mul {m₁ m₂ : Nat} {e₁ e₂ : Int} (h₁ : 0 < m₁) (h₂ : 0 < m₂)
    (hc₁ : Canonical m₁ e₁) (hc₂ : Canonical m₂ e₂) :
    e₁ + e₂ ≤ Format.binary64.targetExponent (totalExponent (m₁ * m₂) (e₁ + e₂)) := by
  refine le_targetExponent ?_
  rcases hc₁.normal with hm₁ | he₁
  · exact .inl (hm₁.trans (Nat.le_mul_of_pos_right _ h₂))
  · rcases hc₂.normal with hm₂ | he₂
    · exact .inl (hm₂.trans (Nat.le_mul_of_pos_left _ h₁))
    · right
      omega

theorem isRounding_mul {s₁ s₂ : Sign} {m₁ m₂ : Nat} {e₁ e₂ : Int} {h₁ : 0 < m₁} {h₂ : 0 < m₂}
    (hc₁ : Canonical m₁ e₁) (hc₂ : Canonical m₂ e₂) :
    IsRounding (UnpackedFloat.mul Format.binary64 (.finite s₁ m₁ e₁ h₁) (.finite s₂ m₂ e₂ h₂))
      (realOf (.finite s₁ m₁ e₁ h₁) * realOf (.finite s₂ m₂ e₂ h₂)) := by
  have hx : (m₁ : ℝ) * 2 ^ e₁ * (m₂ * 2 ^ e₂) = ((m₁ * m₂ : Nat) : ℝ) * 2 ^ (e₁ + e₂) := by
    rw [zpow_add₀ (by norm_num)]
    push_cast
    ring
  refine isRounding_of_eq (isRounding_roundWithAccuracy (x := m₁ * 2 ^ e₁ * (m₂ * 2 ^ e₂))
    (by positivity) (s₁ * s₂) ?_ (le_targetExponent_mul h₁ h₂ hc₁ hc₂)) ?_
  · rw [hx, mul_div_assoc, div_self (by positivity), mul_one]
    exact describes_exact _
  · exact (signed_mul_signed _ _ _ _).symm

theorem extended_infinity_mul (s : Sign) {t : Sign} {n : Nat} {f : Int} (hn : 0 < n) :
    extended (.infinity s) * extended (.finite t n f hn) = extended (.infinity (s * t)) := by
  have hpos : (0 : ℝ) < n * 2 ^ f := by positivity
  cases s <;> cases t
  · exact EReal.bot_mul_coe_of_neg (neg_lt_zero.2 hpos)
  · exact EReal.bot_mul_coe_of_pos hpos
  · exact EReal.top_mul_coe_of_neg (neg_lt_zero.2 hpos)
  · exact EReal.top_mul_coe_of_pos hpos

theorem yields_mul {u v : UnpackedFloat} (hu : IsCanonical u) (hv : IsCanonical v)
    (h : (UnpackedFloat.mul Format.binary64 u v).isNaN = false) :
    Yields (UnpackedFloat.mul Format.binary64 u v) (extended u * extended v) := by
  cases u with
  | notANumber => cases h
  | infinity s =>
    cases v with
    | notANumber => cases h
    | infinity t => cases s <;> cases t <;> exact yields_infinity _
    | zero t => cases h
    | finite t n f hn =>
      rw [extended_infinity_mul]
      exact yields_infinity _
  | zero s =>
    rw [extended_zero, zero_mul]
    cases v with
    | notANumber => cases h
    | infinity t => cases h
    | zero t => exact yields_zero _
    | finite t n f hn => exact yields_zero _
  | finite s m e hm =>
    cases v with
    | notANumber => cases h
    | infinity t =>
      rw [mul_comm, extended_infinity_mul]
      cases s <;> cases t <;> exact yields_infinity _
    | zero t =>
      rw [extended_zero, mul_zero]
      exact yields_zero _
    | finite t n f hn => exact yields_of_isRounding (isRounding_mul hu hv)

/-! ## Quotients -/

theorem signed_div_signed (s t : Sign) (x y : ℝ) :
    signed s x / signed t y = signed (s / t) (x / y) := by
  cases s <;> cases t
  · exact neg_div_neg_eq x y
  · exact neg_div y x
  · exact div_neg x
  · rfl

theorem describes_fraction (m n : Nat) (hn : 0 < n) :
    Describes (m / n) (ExtendedMantissa.ofMantissaAndAccuracy (m / n)
      (accuracyOfFraction (m % n) n)) := by
  have hp : (0 : ℝ) < n := by exact_mod_cast hn
  have hlt : (m % n : Nat) < (n : ℝ) := by exact_mod_cast Nat.mod_lt m hn
  have hx : (m : ℝ) / n = (m / n : Nat) + (m % n : Nat) / n := by
    rw [div_eq_iff hp.ne', add_mul, div_mul_cancel₀ _ hp.ne']
    exact_mod_cast (Nat.div_add_mod' m n).symm
  rw [hx]
  generalize (m / n : Nat) = q
  generalize (m % n : Nat) = r at hlt
  unfold accuracyOfFraction
  by_cases h0 : r = 0
  · simp [h0, Describes, ExtendedMantissa.ofMantissaAndAccuracy]
  · have hr : (0 : ℝ) < r := by exact_mod_cast Nat.pos_of_ne_zero h0
    have hpos : (0 : ℝ) < r / n := by positivity
    have hone : (r : ℝ) / n < 1 := (div_lt_one hp).2 hlt
    rw [if_neg h0]
    rcases lt_trichotomy (2 * r) n with hc | hc | hc
    · have : (r : ℝ) / n < 1 / 2 := by
        rw [div_lt_div_iff₀ hp (by norm_num)]
        exact_mod_cast (by omega : r * 2 < 1 * n)
      rw [Nat.compare_eq_lt.2 hc]
      simp only [Describes, ExtendedMantissa.ofMantissaAndAccuracy, if_true, if_false,
        Bool.false_eq_true, add_zero]
      constructor <;> linarith
    · have : (r : ℝ) / n = 1 / 2 := by
        rw [div_eq_div_iff hp.ne' (by norm_num)]
        exact_mod_cast (by omega : r * 2 = 1 * n)
      rw [Nat.compare_eq_eq.2 hc, this]
      simp [Describes, ExtendedMantissa.ofMantissaAndAccuracy]
    · have : 1 / 2 < (r : ℝ) / n := by
        rw [div_lt_div_iff₀ (by norm_num) hp]
        exact_mod_cast (by omega : 1 * n < r * 2)
      rw [Nat.compare_eq_gt.2 hc]
      simp only [Describes, ExtendedMantissa.ofMantissaAndAccuracy, if_true]
      constructor <;> linarith

/-- The quotient of two mantissas has enough digits. -/
theorem le_targetExponent_div {m₁ m₂ : Nat} (h₁ : 0 < m₁) (h₂ : 0 < m₂) {d t : Int}
    (hd : t ≤ d) (ht : t ≤ max ((m₁.log2 : Int) - m₂.log2 + d - 53) (-1074)) :
    t ≤ Format.binary64.targetExponent (totalExponent (m₁ <<< (d - t).toNat / m₂) t) := by
  by_cases hmin : t ≤ -1074
  · exact le_targetExponent (.inr hmin)
  · have hlog : m₂.log2 + 53 ≤ (m₁ <<< (d - t).toNat).log2 := by
      rw [log2_shiftLeft h₁]
      omega
    have hne : m₁ <<< (d - t).toNat ≠ 0 := by
      rw [Nat.shiftLeft_eq]
      positivity
    have hle : 2 ^ 52 * m₂ ≤ m₁ <<< (d - t).toNat := by
      calc 2 ^ 52 * m₂ ≤ 2 ^ 52 * 2 ^ (m₂.log2 + 1) :=
            Nat.mul_le_mul_left _ (Nat.lt_log2_self (n := m₂)).le
        _ = 2 ^ (m₂.log2 + 53) := by rw [← pow_add]; congr 1; omega
        _ ≤ m₁ <<< (d - t).toNat := (Nat.le_log2 hne).1 hlog
    exact le_targetExponent (.inl ((Nat.le_div_iff_mul_le h₂).2 hle))

theorem isRounding_div {s₁ s₂ : Sign} {m₁ m₂ : Nat} {e₁ e₂ : Int} {h₁ : 0 < m₁} {h₂ : 0 < m₂} :
    IsRounding (UnpackedFloat.div Format.binary64 (.finite s₁ m₁ e₁ h₁) (.finite s₂ m₂ e₂ h₂))
      (realOf (.finite s₁ m₁ e₁ h₁) / realOf (.finite s₂ m₂ e₂ h₂)) := by
  have htarget : Format.binary64.targetExponent (totalExponent m₁ e₁ - totalExponent m₂ e₂) =
      max ((m₁.log2 : Int) - m₂.log2 + (e₁ - e₂) - 53) (-1074) := by
    rw [targetExponent_binary64]
    unfold totalExponent
    omega
  generalize ht : min (e₁ - e₂) (Format.binary64.targetExponent
    (totalExponent m₁ e₁ - totalExponent m₂ e₂)) = t
  have hle : t ≤ e₁ - e₂ := ht ▸ min_le_left _ _
  have hle' : t ≤ max ((m₁.log2 : Int) - m₂.log2 + (e₁ - e₂) - 53) (-1074) := by
    rw [← htarget]
    exact ht ▸ min_le_right _ _
  have hdiv : UnpackedFloat.div Format.binary64 (.finite s₁ m₁ e₁ h₁) (.finite s₂ m₂ e₂ h₂) =
      roundWithAccuracy Format.binary64 (s₁ / s₂) (m₁ <<< (e₁ - e₂ - t).toNat / m₂) t
        (accuracyOfFraction (m₁ <<< (e₁ - e₂ - t).toNat % m₂) m₂) := by
    rw [← ht]
    rfl
  have hx : (m₁ : ℝ) * 2 ^ e₁ / (m₂ * 2 ^ e₂) / 2 ^ t =
      ((m₁ <<< (e₁ - e₂ - t).toNat : Nat) : ℝ) / m₂ := by
    have hm := shiftLeft_mul_zpow m₁ hle
    have hp : (2 : ℝ) ^ (e₁ - e₂) = 2 ^ e₁ / 2 ^ e₂ := zpow_sub₀ (by norm_num) _ _
    rw [hp] at hm
    have h₁ : (0 : ℝ) < 2 ^ t := by positivity
    have h₂ : (0 : ℝ) < 2 ^ e₂ := by positivity
    have h₃ : (0 : ℝ) < m₂ := by positivity
    rw [div_div, div_eq_div_iff (by positivity) h₃.ne']
    calc (m₁ : ℝ) * 2 ^ e₁ * m₂ = (m₁ * (2 ^ e₁ / 2 ^ e₂)) * (m₂ * 2 ^ e₂) := by field_simp
      _ = ((m₁ <<< (e₁ - e₂ - t).toNat : Nat) : ℝ) * (m₂ * 2 ^ e₂ * 2 ^ t) := by
        rw [← hm]
        ring
  rw [hdiv]
  refine isRounding_of_eq (isRounding_roundWithAccuracy (x := m₁ * 2 ^ e₁ / (m₂ * 2 ^ e₂))
    (by positivity) (s₁ / s₂) ?_ (le_targetExponent_div h₁ h₂ hle hle')) ?_
  · rw [hx]
    exact describes_fraction _ _ h₂
  · exact (signed_div_signed _ _ _ _).symm

theorem extended_infinity_div (s : Sign) {t : Sign} {n : Nat} {f : Int} (hn : 0 < n) :
    extended (.infinity s) / extended (.finite t n f hn) = extended (.infinity (s / t)) := by
  have hpos : (0 : ℝ) < n * 2 ^ f := by positivity
  cases s <;> cases t
  · exact EReal.bot_div_of_neg_ne_bot (EReal.coe_neg'.2 (neg_lt_zero.2 hpos)) (EReal.coe_ne_bot _)
  · exact EReal.bot_div_of_pos_ne_top (EReal.coe_pos.2 hpos) (EReal.coe_ne_top _)
  · exact EReal.top_div_of_neg_ne_bot (EReal.coe_neg'.2 (neg_lt_zero.2 hpos)) (EReal.coe_ne_bot _)
  · exact EReal.top_div_of_pos_ne_top (EReal.coe_pos.2 hpos) (EReal.coe_ne_top _)

theorem div_extended_infinity (z : EReal) (s : Sign) : z / extended (.infinity s) = 0 := by
  cases s
  · exact EReal.div_bot
  · exact EReal.div_top

theorem yields_div {u v : UnpackedFloat} (hu : IsCanonical u) (hv : IsCanonical v)
    (h : (UnpackedFloat.div Format.binary64 u v).isNaN = false) (h0 : extended v ≠ 0) :
    Yields (UnpackedFloat.div Format.binary64 u v) (extended u / extended v) := by
  cases v with
  | notANumber => cases u <;> cases h
  | zero t => exact absurd (extended_zero t) h0
  | infinity t =>
    rw [div_extended_infinity]
    cases u with
    | notANumber => cases h
    | infinity s => cases h
    | zero s => exact yields_zero _
    | finite s m e hm => exact yields_zero _
  | finite t n f hn =>
    cases u with
    | notANumber => cases h
    | infinity s =>
      rw [extended_infinity_div]
      exact yields_infinity _
    | zero s =>
      rw [extended_zero, EReal.zero_div]
      exact yields_zero _
    | finite s m e hm => exact yields_of_isRounding isRounding_div

/-! ## Roots -/

/-- The square root, which is infinite at infinity. -/
noncomputable def root : EReal → EReal
  | ⊥ => 0
  | ⊤ => ⊤
  | (x : ℝ) => (√x : ℝ)

theorem describes_sqrt (m : Nat) :
    Describes (√m) (ExtendedMantissa.ofMantissaAndAccuracy m.sqrt
      (if m - m.sqrt * m.sqrt = 0 then .exact
        else .inexact (if m - m.sqrt * m.sqrt ≤ m.sqrt then .lt else .gt))) := by
  have hlo : m.sqrt * m.sqrt ≤ m := Nat.sqrt_le m
  have hhi : m < (m.sqrt + 1) * (m.sqrt + 1) := Nat.lt_succ_sqrt m
  generalize m.sqrt = r at hlo hhi
  have hr : (0 : ℝ) ≤ r := Nat.cast_nonneg r
  by_cases h0 : m - r * r = 0
  · have hm : (m : ℝ) = r * r := by exact_mod_cast (by omega : m = r * r)
    rw [if_pos h0, hm, Real.sqrt_mul_self hr]
    exact describes_exact r
  · have h₁ : (r : ℝ) < √m := by
      rw [Real.lt_sqrt hr, sq]
      exact_mod_cast (by omega : r * r < m)
    rw [if_neg h0]
    by_cases hle : m - r * r ≤ r
    · have h₂ : √m < r + 1 / 2 := by
        rw [Real.sqrt_lt' (by positivity)]
        have : (m : ℝ) ≤ r * r + r := by exact_mod_cast (by omega : m ≤ r * r + r)
        nlinarith
      rw [if_pos hle]
      simp only [Describes, ExtendedMantissa.ofMantissaAndAccuracy, if_true, if_false,
        Bool.false_eq_true, add_zero]
      exact ⟨h₁, h₂⟩
    · have h₂ : r + 1 / 2 < √m := by
        rw [Real.lt_sqrt (by positivity)]
        have : (r * r + r + 1 : ℝ) ≤ m := by exact_mod_cast (by omega : r * r + r + 1 ≤ m)
        nlinarith
      have h₃ : √m < r + 1 := by
        rw [Real.sqrt_lt' (by positivity), sq]
        exact_mod_cast hhi
      rw [if_neg hle]
      simp only [Describes, ExtendedMantissa.ofMantissaAndAccuracy, if_true]
      constructor <;> linarith

/-- The root of a mantissa has enough digits. -/
theorem le_targetExponent_sqrt {m : Nat} (hm : 0 < m) {e t : Int} (hte : 2 * t ≤ e)
    (ht : t ≤ max (((m.log2 : Int) + e + 2) / 2 - 53) (-1074)) :
    t ≤ Format.binary64.targetExponent (totalExponent (m <<< (e - 2 * t).toNat).sqrt t) := by
  by_cases hmin : t ≤ -1074
  · exact le_targetExponent (.inr hmin)
  · have hlog : 104 ≤ (m <<< (e - 2 * t).toNat).log2 := by
      rw [log2_shiftLeft hm]
      omega
    have hne : m <<< (e - 2 * t).toNat ≠ 0 := by
      rw [Nat.shiftLeft_eq]
      positivity
    have hle : 2 ^ 52 * 2 ^ 52 ≤ m <<< (e - 2 * t).toNat := (Nat.le_log2 hne).1 hlog
    exact le_targetExponent (.inl (Nat.le_sqrt.2 hle))

theorem isRounding_sqrt {m : Nat} {e : Int} {hm : 0 < m} :
    IsRounding (UnpackedFloat.sqrt Format.binary64 (.finite .positive m e hm))
      (√(realOf (.finite .positive m e hm))) := by
  have htarget : Format.binary64.targetExponent ((totalExponent m e + 1).ediv 2) =
      max (((m.log2 : Int) + e + 2) / 2 - 53) (-1074) := by
    rw [targetExponent_binary64]
    unfold totalExponent
    rw [show ((m.log2 : Int) + 1 + e + 1) = m.log2 + e + 2 by omega]
    rfl
  generalize ht : min (e.ediv 2) (Format.binary64.targetExponent
    ((totalExponent m e + 1).ediv 2)) = t
  have hle : 2 * t ≤ e := by
    have : t ≤ e / 2 := ht ▸ min_le_left _ _
    omega
  have hle' : t ≤ max (((m.log2 : Int) + e + 2) / 2 - 53) (-1074) := by
    rw [← htarget]
    exact ht ▸ min_le_right _ _
  have hsqrt : ∀ k, k = m <<< (e - 2 * t).toNat →
      UnpackedFloat.sqrt Format.binary64 (.finite .positive m e hm) =
        roundWithAccuracy Format.binary64 .positive k.sqrt t
          (if k - k.sqrt * k.sqrt = 0 then .exact
            else .inexact (if k - k.sqrt * k.sqrt ≤ k.sqrt then .lt else .gt)) := by
    rintro k rfl
    rw [← ht]
    rfl
  have hx : √((m : ℝ) * 2 ^ e) / 2 ^ t = √((m <<< (e - 2 * t).toNat : Nat) : ℝ) := by
    have hp : (0 : ℝ) < 2 ^ t := by positivity
    rw [← shiftLeft_mul_zpow m hle, show 2 * t = t + t by omega, zpow_add₀ (by norm_num),
      Real.sqrt_mul (Nat.cast_nonneg _), Real.sqrt_mul_self hp.le, mul_div_assoc, div_self hp.ne',
      mul_one]
  rw [hsqrt _ rfl]
  refine isRounding_of_eq (isRounding_roundWithAccuracy (x := √((m : ℝ) * 2 ^ e))
    (by positivity) .positive ?_ (le_targetExponent_sqrt hm hle hle')) rfl
  rw [hx]
  exact describes_sqrt _

theorem yields_sqrt {u : UnpackedFloat} (hu : 0 ≤ extended u) (h : u.isNaN = false) :
    Yields (UnpackedFloat.sqrt Format.binary64 u) (root (extended u)) := by
  cases u with
  | notANumber => cases h
  | infinity s =>
    cases s
    · exact absurd hu (by simp [extended])
    · exact yields_infinity .positive
  | zero s =>
    have h0 : root (extended (.zero s)) = 0 := by
      rw [extended_zero]
      show ((√0 : ℝ) : EReal) = 0
      simp
    rw [h0]
    exact yields_zero s
  | finite s m e hm =>
    have hpos : (0 : ℝ) < m * 2 ^ e := by positivity
    cases s
    · have : (0 : EReal) ≤ ((-(m * 2 ^ e) : ℝ) : EReal) := hu
      have : (0 : ℝ) ≤ -(m * 2 ^ e) := by exact_mod_cast this
      linarith
    · exact yields_of_isRounding isRounding_sqrt

end AsmOrigin.Binary64
