import AsmOrigin.Proofs.Binary64.NaN
import AsmOrigin.Proofs.Binary64.Nearest

/-!
The real numbers that finite floats stand for, and squared differences.

`value` is the exact number of a finite float, and `==` compares values (`beq_iff_value_eq`).  Rounding is
odd (`rounded_neg`), so a squared difference is the same float in either order (`square_sub_comm`); it
denotes a function of the exact distance (`denotes_square_sub`) that is monotone (`squared_mono`).
-/

namespace AsmOrigin

/-- Fingerprints of one size whose slots are equal one by one, zeros of either sign being equal. -/
def Fingerprint.EqualSlots (f g : Fingerprint) : Prop :=
  List.Forall₂ (fun x y => (x == y) = true) f.slots g.slots

theorem Fingerprint.EqualSlots.beq_of_getElem? {f g : Fingerprint} {i : Nat} {x y : Float}
    (h : f.EqualSlots g) (hx : f.slots[i]? = some x) (hy : g.slots[i]? = some y) :
    (x == y) = true := by
  obtain ⟨hi, rfl⟩ := List.getElem?_eq_some_iff.1 hx
  obtain ⟨hj, rfl⟩ := List.getElem?_eq_some_iff.1 hy
  exact (List.forall₂_iff_get.1 h).2 i hi hj

namespace Binary64

open Float.Model Float.Model.UnpackedFloat

variable {x y z : Float} {a b : EReal} {r s : ℝ}

/-! ## Values -/

theorem exists_coe_of_nonneg {a : EReal} (h0 : 0 ≤ a) (h : a ≠ ⊤) : ∃ q : ℝ, a = q := by
  lift a to ℝ using ⟨h, ne_bot_of_le_ne_bot EReal.zero_ne_bot h0⟩ with q
  exact ⟨q, rfl⟩

/-- The real number that a finite float stands for, and zero for all others. -/
noncomputable def value (x : Float) : ℝ := realOf x.toModel.unpack

theorem denotes_value (h : x.isFinite = true) : Denotes x (value x) := by
  have hfinite : x.toModel.unpack.isFinite = true := h
  exact ⟨isNaN_of_isFinite hfinite, extended_of_isFinite hfinite⟩

theorem Denotes.isFinite_eq (h : Denotes x r) : x.isFinite = true := (isFinite_iff h).2 ⟨r, rfl⟩

theorem Denotes.value_eq (h : Denotes x r) : value x = r :=
  EReal.coe_eq_coe_iff.1 ((denotes_value h.isFinite_eq).unique h)

theorem beq_iff_value_eq (hx : x.isFinite = true) (hy : y.isFinite = true) :
    (x == y) = true ↔ value x = value y := by
  rw [beq_iff_eq (denotes_value hx) (denotes_value hy), EReal.coe_eq_coe_iff]

theorem denotes_of_beq (h : (x == y) = true) (hx : Denotes x a) : Denotes y a := by
  have hy : y.isNaN = false := by
    rw [Bool.eq_false_iff]
    intro hnan
    have hbeq : (x.toModel.unpack.compare y.toModel.unpack == some .eq) = true := h
    rw [compare_of_isNaN (.inr hnan)] at hbeq
    cases hbeq
  obtain ⟨q, hq⟩ := exists_denotes hy
  rw [beq_iff_eq hx hq] at h
  rwa [h]

/-- What a finite float stands for is below the limit of the format. -/
theorem Denotes.abs_lt_limit (h : Denotes x r) : |r| < limit := by
  have hr := h.rounded_eq
  rw [rounded_coe, nearest_of_onGrid h.onGrid] at hr
  unfold saturated at hr
  split_ifs at hr with h₁ h₂
  · exact absurd hr (EReal.coe_ne_top r).symm
  · exact absurd hr (EReal.coe_ne_bot r).symm
  · rw [abs_lt]
    constructor <;> linarith

theorem Denotes.lt_twoPow (h : Denotes x a) (h0 : 0 ≤ a) (htop : a ≠ ⊤) : a < twoPow 1024 := by
  lift a to ℝ using ⟨htop, ne_bot_of_le_ne_bot EReal.zero_ne_bot h0⟩
  exact EReal.coe_lt_coe_iff.2 ((le_abs_self a).trans_lt h.abs_lt_limit)

/-- There is only one float that is not a number. -/
theorem eq_of_isNaN (hx : x.isNaN = true) (hy : y.isNaN = true) : x = y := by
  obtain ⟨u⟩ := x
  obtain ⟨v⟩ := y
  rw [← pack_unpack u, ← pack_unpack v, unpack_of_isNaN hx, unpack_of_isNaN hy]

/-! ## Rounding and signs -/

theorem saturated_neg (r : ℝ) : saturated (-r) = -saturated r := by
  have hlimit := limit_pos
  unfold saturated
  split_ifs with h₁ h₂ h₃ h₄ h₅ <;> first | rfl | (exfalso; linarith)

theorem rounded_neg (a : EReal) : rounded (-a) = -rounded a := by
  induction a with
  | bot => rfl
  | top => rfl
  | coe r => rw [← EReal.coe_neg, rounded_coe, nearest_neg, saturated_neg, ← rounded_coe]

/-! ## Squares -/

theorem mul_neg_neg (u : UnpackedFloat) :
    UnpackedFloat.mul Format.binary64 u.neg u.neg = UnpackedFloat.mul Format.binary64 u u := by
  cases u with
  | notANumber => rfl
  | infinity s => cases s <;> rfl
  | zero s => cases s <;> rfl
  | finite s m e hm => cases s <;> rfl

theorem unpack_eq_zero_of_denotes (h : Denotes x 0) : ∃ s, x.toModel.unpack = .zero s := by
  obtain ⟨hn, h⟩ := h
  have hn : x.toModel.unpack.isNaN = false := hn
  generalize x.toModel.unpack = u at h hn
  cases u with
  | notANumber => cases hn
  | zero s => exact ⟨s, rfl⟩
  | infinity s => cases s <;> cases h
  | finite s m e hm =>
    have hpos : (0 : ℝ) < m * 2 ^ e := by positivity
    have hzero : signed s (m * 2 ^ e) = 0 := EReal.coe_eq_coe_iff.1 h
    have habs := abs_signed s (m * 2 ^ e)
    rw [hzero, abs_zero, abs_of_pos hpos] at habs
    exact absurd habs hpos.ne

/-- Opposite numbers have one square, also where it is too small for the format. -/
theorem square_eq_of_denotes_neg (hx : Denotes x a) (hy : Denotes y (-a)) : x * x = y * y := by
  suffices h : UnpackedFloat.mul Format.binary64 x.toModel.unpack x.toModel.unpack =
      UnpackedFloat.mul Format.binary64 y.toModel.unpack y.toModel.unpack from
    congrArg (fun u => Float.ofModel (Float.Model.pack u)) h
  rcases eq_or_ne a 0 with rfl | h0
  · rw [neg_zero] at hy
    obtain ⟨s, hs⟩ := unpack_eq_zero_of_denotes hx
    obtain ⟨t, ht⟩ := unpack_eq_zero_of_denotes hy
    rw [hs, ht]
    cases s <;> cases t <;> rfl
  · obtain ⟨hnx, rfl⟩ := hx
    obtain ⟨hny, hy⟩ := hy
    have hcompare := compare_eq (isCanonical_neg (isCanonical_unpack x.toModel))
      (isCanonical_unpack y.toModel) ((isNaN_neg _).trans hnx) hny
    rw [extended_neg, hy, cmp_self_eq_eq] at hcompare
    have hneg : extended x.toModel.unpack.neg ≠ 0 := by
      rw [extended_neg]
      intro h
      exact h0 (EReal.neg_eq_zero_iff.1 h)
    rw [← eq_of_compare_eq hcompare hneg, mul_neg_neg]

theorem isNaN_sub_left (y : Float) (h : x.isNaN = true) : (x - y).isNaN = true := by
  apply isNaN_pack
  rw [unpack_of_isNaN h]
  cases y.toModel.unpack <;> rfl

theorem isNaN_sub_right (x : Float) (h : y.isNaN = true) : (x - y).isNaN = true := by
  apply isNaN_pack
  rw [unpack_of_isNaN h]
  cases x.toModel.unpack <;> rfl

/-- The square of a difference does not depend on its order, whatever the operands are. -/
theorem square_sub_comm (x y : Float) : (x - y) * (x - y) = (y - x) * (y - x) := by
  by_cases hx : x.isNaN = true
  · exact eq_of_isNaN (isNaN_mul_self (isNaN_sub_left y hx)) (isNaN_mul_self (isNaN_sub_right y hx))
  by_cases hy : y.isNaN = true
  · exact eq_of_isNaN (isNaN_mul_self (isNaN_sub_right x hy)) (isNaN_mul_self (isNaN_sub_left x hy))
  obtain ⟨a, ha⟩ := exists_denotes (Bool.eq_false_iff.2 hx)
  obtain ⟨b, hb⟩ := exists_denotes (Bool.eq_false_iff.2 hy)
  by_cases hab : a = b ∧ a ≠ 0
  · rw [eq_of_denotes ha (hab.1 ▸ hb) hab.2]
  -- the operands are no equal infinities, so that both differences are numbers
  · have hbot : a ≠ ⊥ ∨ b ≠ ⊥ := by
      by_contra h
      push Not at h
      exact hab ⟨h.1.trans h.2.symm, h.1 ▸ EReal.bot_ne_zero⟩
    have htop : a ≠ ⊤ ∨ b ≠ ⊤ := by
      by_contra h
      push Not at h
      exact hab ⟨h.1.trans h.2.symm, h.1 ▸ EReal.top_ne_zero⟩
    have hneg : b - a = -(a - b) := by
      rw [EReal.neg_sub hbot htop, sub_eq_add_neg, add_comm]
    have hyx := denotes_sub hb ha hbot.symm htop.symm
    rw [hneg, rounded_neg] at hyx
    exact square_eq_of_denotes_neg (denotes_sub ha hb hbot htop) hyx

/-- The square of a difference, by the exact distance of the operands. -/
noncomputable def squared (d : ℝ) : EReal := rounded (rounded d * rounded d)

theorem denotes_square_sub (hx : Denotes x r) (hy : Denotes y s) :
    Denotes ((x - y) * (x - y)) (squared |r - s|) := by
  have hsub : Denotes (x - y) (rounded ((r - s : ℝ) : EReal)) :=
    denotes_sub hx hy (.inl (EReal.coe_ne_bot r)) (.inl (EReal.coe_ne_top r))
  have hsquare := denotes_mul_self hsub
  unfold squared
  rcases abs_choice (r - s) with h | h
  · rw [h]
    exact hsquare
  · rw [h, EReal.coe_neg, rounded_neg, neg_mul_neg]
    exact hsquare

theorem squared_mono {d e : ℝ} (hd : 0 ≤ d) (h : d ≤ e) : squared d ≤ squared e := by
  have hd0 : 0 ≤ rounded d := rounded_nonneg (EReal.coe_nonneg.2 hd)
  have hde : rounded d ≤ rounded e := rounded_mono (EReal.coe_le_coe_iff.2 h)
  apply rounded_mono
  exact mul_le_mul hde hde hd0 (hd0.trans hde)

@[simp] theorem squared_zero : squared 0 = 0 := by
  unfold squared
  rw [EReal.coe_zero, rounded_zero, mul_zero, rounded_zero]

theorem squared_nonneg {d : ℝ} (hd : 0 ≤ d) : 0 ≤ squared d := by
  rw [← squared_zero]
  exact squared_mono le_rfl hd

theorem squared_le {d : ℝ} {k : ℤ} (hk : -537 ≤ k) (hk' : k < 512) (hd : 0 ≤ d) (h : d ≤ 2 ^ k) :
    squared d ≤ twoPow (2 * k) := by
  have hround : rounded ((2 ^ k : ℝ) : EReal) = ((2 ^ k : ℝ) : EReal) :=
    rounded_zpow (by omega) (by omega)
  have hmul : ((2 ^ k : ℝ) : EReal) * ((2 ^ k : ℝ) : EReal) = twoPow (2 * k) := by
    rw [← EReal.coe_mul, ← zpow_add₀ (by norm_num), ← two_mul]
    rfl
  apply (squared_mono hd h).trans
  unfold squared
  rw [hround, hmul, rounded_twoPow (by omega) (by omega)]

end Binary64

end AsmOrigin
