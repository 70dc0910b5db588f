import AsmOrigin.Proofs.Binary64.Sums
import AsmOrigin.Proofs.Binary64.Values

/-!
Bounds on similarities.

A similarity is a function of the sum of the squared differences (`closeness`) that falls as the sum grows
(`closeness_anti`), from one at zero down to zero at an infinite sum.
A fingerprint with finite slots has a similarity between zero and one to every fingerprint whose slots
are numbers that are not negative, infinite ones included (`within_similarity`).  Where the slots are
bounded the similarity is also bounded away from zero (`within_similarity_of_le`).
-/

namespace AsmOrigin

open Binary64

variable {x y : Float} {s t : EReal} {a b : Fingerprint}

/-! ## One slot -/

/-- A square is never negative. -/
theorem within_mul_self (hx : x.isNaN = false) : Within 0 ⊤ (x * x) := by
  obtain ⟨a, ha⟩ := exists_denotes hx
  refine ⟨_, denotes_mul_self ha, rounded_nonneg (EReal.mul_nonneg_iff.2 ?_), le_top⟩
  rcases le_total 0 a with h | h
  · exact .inl ⟨h, h⟩
  · exact .inr ⟨h, h⟩

theorem within_square_of_isFinite (hx : x.isFinite = true) (hy : Within 0 ⊤ y) :
    Within 0 ⊤ ((x - y) * (x - y)) := by
  obtain ⟨r, hr⟩ := exists_denotes_coe hx
  obtain ⟨b, hb, -, -⟩ := hy
  exact within_mul_self (denotes_sub hr hb (.inl (EReal.coe_ne_bot r)) (.inl (EReal.coe_ne_top r))).1

theorem within_square_of_le {k : ℤ} (hk : -537 ≤ k) (hk' : k < 512) (hx : Within 0 (twoPow k) x)
    (hy : Within 0 (twoPow k) y) : Within 0 (twoPow (2 * k)) ((x - y) * (x - y)) := by
  obtain ⟨r, hr, hr0, hrk⟩ := exists_coe_of_within hx
  obtain ⟨s, hs, hs0, hsk⟩ := exists_coe_of_within hy
  have hd : |r - s| ≤ 2 ^ k := by
    rw [abs_le]
    constructor <;> linarith
  exact ⟨_, denotes_square_sub hr hs, squared_nonneg (abs_nonneg _), squared_le hk hk' (abs_nonneg _) hd⟩

/-! ## The reciprocal of one more than a root -/

theorem root_nonneg (a : EReal) : 0 ≤ root a := by
  induction a with
  | bot => exact le_rfl
  | top => exact le_top
  | coe r => exact EReal.coe_nonneg.2 (Real.sqrt_nonneg r)

/-- The similarity that belongs to a sum of squared differences. -/
noncomputable def closeness (s : EReal) : EReal := rounded (1 / rounded (1 + rounded (root s)))

theorem one_le_rounded_one_add (s : EReal) : 1 ≤ rounded (1 + rounded (root s)) := by
  conv_lhs => rw [← rounded_one]
  apply rounded_mono
  exact le_add_of_nonneg_right (rounded_nonneg (root_nonneg s))

theorem denotes_closeness (hx : Denotes x s) (hs : 0 ≤ s) :
    Denotes (1.0 / (1.0 + x.sqrt)) (closeness s) := by
  have hsum := denotes_add_of_nonneg denotes_one (denotes_sqrt hx hs) zero_le_one
    (rounded_nonneg (root_nonneg s))
  have hpos : 0 < rounded (1 + rounded (root s)) := zero_lt_one.trans_le (one_le_rounded_one_add s)
  exact denotes_div denotes_one hsum hpos.ne' (.inl ⟨by decide, by decide⟩)

theorem root_mono (h : s ≤ t) : root s ≤ root t := by
  induction t with
  | bot => rw [le_bot_iff.1 h]
  | top => exact le_top
  | coe q =>
    induction s with
    | bot => exact root_nonneg q
    | top => exact absurd h (EReal.coe_lt_top q).not_ge
    | coe r => exact EReal.coe_le_coe_iff.2 (Real.sqrt_le_sqrt (EReal.coe_le_coe_iff.1 h))

theorem one_div_anti (hs : 0 < s) (h : s ≤ t) : 1 / t ≤ 1 / s := by
  induction t with
  | bot => exact absurd (hs.trans_le h) not_lt_bot
  | top =>
    rw [EReal.div_top]
    exact EReal.div_nonneg zero_le_one hs.le
  | coe q =>
    induction s with
    | bot => exact absurd hs not_lt_bot
    | top => exact absurd h (EReal.coe_lt_top q).not_ge
    | coe r =>
      have hr : 0 < r := EReal.coe_pos.1 hs
      have hrq : r ≤ q := EReal.coe_le_coe_iff.1 h
      exact EReal.coe_le_coe_iff.2 (one_div_le_one_div_of_le hr hrq)

theorem closeness_anti (h : s ≤ t) : closeness t ≤ closeness s := by
  have hroot : rounded (root s) ≤ rounded (root t) := rounded_mono (root_mono h)
  apply rounded_mono
  apply one_div_anti (zero_lt_one.trans_le (one_le_rounded_one_add s))
  exact rounded_mono (add_le_add_right hroot 1)

theorem closeness_zero : closeness 0 = 1 := by
  have hroot : root 0 = 0 := by
    show ((√0 : ℝ) : EReal) = 0
    rw [Real.sqrt_zero, EReal.coe_zero]
  unfold closeness
  rw [hroot, rounded_zero, add_zero, rounded_one, EReal.div_self (by decide) (by decide) one_ne_zero,
    rounded_one]

theorem closeness_top : closeness ⊤ = 0 := by
  have hadd : (1 : EReal) + ⊤ = ⊤ := EReal.add_top_of_ne_bot (by decide)
  have hroot : root ⊤ = ⊤ := rfl
  unfold closeness
  rw [hroot, rounded_top, hadd, rounded_top, EReal.div_top, rounded_zero]

theorem closeness_le_one (h0 : 0 ≤ s) : closeness s ≤ 1 := by
  rw [← closeness_zero]
  exact closeness_anti h0

theorem closeness_nonneg (s : EReal) : 0 ≤ closeness s := by
  rw [← closeness_top]
  exact closeness_anti le_top

theorem root_twoPow (k : ℤ) : root (twoPow (2 * k)) = twoPow k := by
  have hp : (0 : ℝ) ≤ 2 ^ k := by positivity
  show ((√(2 ^ (2 * k)) : ℝ) : EReal) = twoPow k
  rw [two_mul, zpow_add₀ (by norm_num), Real.sqrt_mul_self hp]
  rfl

theorem one_add_twoPow_le {k : ℤ} (hk : 0 ≤ k) : 1 + twoPow k ≤ twoPow (k + 1) := by
  have hone : (1 : ℝ) ≤ 2 ^ k := one_le_zpow₀ (by norm_num) hk
  show ((1 + 2 ^ k : ℝ) : EReal) ≤ ((2 ^ (k + 1) : ℝ) : EReal)
  rw [EReal.coe_le_coe_iff, zpow_add_one₀ (by norm_num)]
  linarith

/-- A sum up to 2²ᵏ leaves a similarity of at least 2⁻ᵏ⁻¹. -/
theorem twoPow_le_closeness {k : ℤ} (hk : 0 ≤ k) (hk' : k < 1023) (h : s ≤ twoPow (2 * k)) :
    twoPow (-(k + 1)) ≤ closeness s := by
  have hroot : rounded (root (twoPow (2 * k))) = twoPow k := by
    rw [root_twoPow, rounded_twoPow (by omega) (by omega)]
  have hone : rounded (1 + twoPow k) ≤ twoPow (k + 1) := by
    rw [← rounded_twoPow (k := k + 1) (by omega) (by omega)]
    exact rounded_mono (one_add_twoPow_le hk)
  have hpos : 0 < rounded (1 + twoPow k) := by
    rw [← hroot]
    exact zero_lt_one.trans_le (one_le_rounded_one_add _)
  have hinv : twoPow (-(k + 1)) = 1 / twoPow (k + 1) := by
    show ((2 ^ (-(k + 1)) : ℝ) : EReal) = ((1 / 2 ^ (k + 1) : ℝ) : EReal)
    rw [zpow_neg, one_div]
  calc twoPow (-(k + 1)) = rounded (twoPow (-(k + 1))) := (rounded_twoPow (by omega) (by omega)).symm
    _ ≤ rounded (1 / rounded (1 + twoPow k)) := by
        rw [hinv]
        exact rounded_mono (one_div_anti hpos hone)
    _ = closeness (twoPow (2 * k)) := by
        unfold closeness
        rw [hroot]
    _ ≤ closeness s := closeness_anti h

/-! ## Fingerprints -/

theorem mem_squaredDifferences_iff : x ∈ squaredDifferences a b ↔
    ∃ (i : Nat) (u v : Float), a.slots[i]? = some u ∧ b.slots[i]? = some v ∧ x = (u - v) * (u - v) := by
  unfold squaredDifferences
  rw [List.mem_iff_getElem?]
  apply exists_congr
  intro i
  rw [List.getElem?_zipWith_eq_some]
  simp only [eq_comm]

theorem denotes_similarity (hsize : a.size = b.size) (hs : Denotes (sumFloats (squaredDifferences a b)) s)
    (h0 : 0 ≤ s) : Denotes (similarity a b) (closeness s) := by
  unfold similarity
  rw [if_pos hsize]
  exact denotes_closeness hs h0

theorem within_similarity_of_squares (h : ∀ d ∈ squaredDifferences a b, Within 0 ⊤ d) :
    Within 0 1 (similarity a b) := by
  by_cases hsize : a.size = b.size
  · obtain ⟨s, hs, h0, -⟩ := within_sumFloats h
    exact ⟨_, denotes_similarity hsize hs h0, closeness_nonneg s, closeness_le_one h0⟩
  · unfold similarity
    rw [if_neg hsize]
    exact ⟨0, denotes_zero, le_rfl, zero_le_one⟩

theorem within_of_mem_squaredDifferences (ha : ∀ x ∈ a.slots, x.isFinite = true)
    (hb : ∀ y ∈ b.slots, Within 0 ⊤ y) : ∀ d ∈ squaredDifferences a b, Within 0 ⊤ d := by
  intro d hd
  obtain ⟨i, u, v, hu, hv, rfl⟩ := mem_squaredDifferences_iff.1 hd
  exact within_square_of_isFinite (ha u (List.mem_of_getElem? hu)) (hb v (List.mem_of_getElem? hv))

theorem within_similarity {f c : Fingerprint} (hf : ∀ x ∈ f.slots, x.isFinite = true)
    (hc : ∀ y ∈ c.slots, Within 0 ⊤ y) : Within 0 1 (similarity f c) :=
  within_similarity_of_squares (within_of_mem_squaredDifferences hf hc)

/-- Comparable fingerprints with slots up to 2ᵏ have a similarity of at least 2⁻ᵏ⁻²⁸. -/
theorem within_similarity_of_le {k : ℤ} (hk : 0 ≤ k) (hk' : k < 400) {f c : Fingerprint}
    (hsize : f.size = c.size) (hf : ∀ x ∈ f.slots, Within 0 (twoPow k) x)
    (hc : ∀ y ∈ c.slots, Within 0 (twoPow k) y) :
    Within (twoPow (-k - 28)) 1 (similarity f c) := by
  have hsquares : ∀ d ∈ squaredDifferences f c, Within 0 (twoPow (2 * k)) d := by
    intro d hd
    obtain ⟨i, u, v, hu, hv, rfl⟩ := mem_squaredDifferences_iff.1 hd
    exact within_square_of_le (by omega) (by omega) (hf u (List.mem_of_getElem? hu))
      (hc v (List.mem_of_getElem? hv))
  obtain ⟨s, hs, h0, hle⟩ := within_sumFloats_of_le (by omega) (by omega) hsquares
  have hleast : twoPow (-(k + 27 + 1)) ≤ closeness s :=
    twoPow_le_closeness (by omega) (by omega) (hle.trans (twoPow_mono (by omega)))
  rw [show -(k + 27 + 1) = -k - 28 by omega] at hleast
  exact ⟨_, denotes_similarity hsize hs h0, hleast, closeness_le_one h0⟩

end AsmOrigin
