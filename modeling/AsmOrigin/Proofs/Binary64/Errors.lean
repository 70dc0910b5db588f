import AsmOrigin.Proofs.Binary64.Sums
import AsmOrigin.Proofs.Binary64.Values

/-!
Relative errors.

A rounding is off by at most `unitRoundoff` of the exact number, unless that is below 2⁻¹⁰²²
(`abs_nearest_sub_le_mul`), and by at most that part of a power of two above it
(`abs_nearest_sub_le_of_le`); a sum of two floats is exact down there (`abs_nearest_add_sub_le`).  So a sum of
floats that are not negative is within `growth k` of the exact sum after k additions, if it does not
overflow (`abs_foldl_sub_le`).
-/

namespace AsmOrigin.Binary64

variable {x y : Float} {a b p q r s : ℝ}

/-! ## One rounding -/

theorem unitRoundoff_pos : 0 < unitRoundoff := zpow_pos (by norm_num) _

theorem abs_nearest_sub_le_mul (h : 2 ^ (-1022 : ℤ) ≤ q) : |nearest q - q| ≤ unitRoundoff * q := by
  have hq : 0 < q := lt_of_lt_of_le (by positivity) h
  have hlog : -1022 ≤ Int.log 2 q := by
    apply (Int.zpow_le_iff_le_log (b := 2) (by norm_num) hq).1
    exact_mod_cast h
  have hplace : lastPlace q - 1 = -53 + Int.log 2 q := by
    rw [lastPlace, abs_of_pos hq]
    omega
  have hpow : (2 : ℝ) ^ Int.log 2 q ≤ q := by
    exact_mod_cast Int.zpow_log_le_self (b := 2) (by norm_num) hq
  calc |nearest q - q| ≤ 2 ^ (lastPlace q - 1) := abs_nearest_sub_le_half q
    _ = unitRoundoff * 2 ^ Int.log 2 q := by rw [hplace, zpow_add₀ (by norm_num), unitRoundoff]
    _ ≤ unitRoundoff * q := mul_le_mul_of_nonneg_left hpow unitRoundoff_pos.le

theorem abs_nearest_sub_le_of_le {k : ℤ} (hk : -1022 ≤ k) (h0 : 0 ≤ q) (h : q ≤ 2 ^ k) :
    |nearest q - q| ≤ 2 ^ (k - 53) := by
  rcases h0.eq_or_lt with rfl | hpos
  · rw [nearest_zero, sub_zero, abs_zero]
    positivity
  · have hlog : Int.log 2 q ≤ k := by
      rw [← Int.log_zpow (R := ℝ) (b := 2) (by norm_num) k]
      exact Int.log_mono_right hpos (by exact_mod_cast h)
    have hplace : lastPlace q - 1 ≤ k - 53 := by
      unfold lastPlace
      rw [abs_of_pos hpos]
      omega
    exact (abs_nearest_sub_le_half q).trans (zpow_le_zpow_right₀ (by norm_num) hplace)

theorem nearest_le_zpow {k : ℤ} (hk : -1074 ≤ k) (h : q ≤ 2 ^ k) : nearest q ≤ 2 ^ k := by
  rw [← nearest_of_onGrid (onGrid_zpow hk)]
  exact nearest_mono h

theorem rounded_coe_of_le {k : ℤ} (hk : -1074 ≤ k) (hk' : k < 1024) (h0 : 0 ≤ q) (h : q ≤ 2 ^ k) :
    rounded (q : EReal) = (nearest q : ℝ) := by
  rw [rounded_coe]
  apply saturated_of_abs_lt
  rw [abs_of_nonneg (nearest_nonneg h0)]
  exact (nearest_le_zpow hk h).trans_lt (zpow_lt_limit hk')

/-- Numbers that are farther apart than both roundings lead stay apart. -/
theorem nearest_lt_nearest (hp : 2 ^ (-1022 : ℤ) ≤ p) (hq : 2 ^ (-1022 : ℤ) ≤ q)
    (h : p + unitRoundoff * p < q - unitRoundoff * q) : nearest p < nearest q := by
  have hlow := (abs_le.1 (abs_nearest_sub_le_mul hq)).1
  have hhigh := (abs_le.1 (abs_nearest_sub_le_mul hp)).2
  linarith

theorem OnGrid.exists_multiple (h : OnGrid r) : ∃ m : ℤ, r = m * 2 ^ (-1074 : ℤ) := by
  obtain ⟨m, e, -, he, rfl⟩ := h
  exact ⟨_, mul_zpow_eq_of_le he m⟩

/-- Small sums are exact. -/
theorem onGrid_add (ha : OnGrid a) (hb : OnGrid b) (h : |a + b| < 2 ^ (-1022 : ℤ)) :
    OnGrid (a + b) := by
  obtain ⟨m, rfl⟩ := ha.exists_multiple
  obtain ⟨n, rfl⟩ := hb.exists_multiple
  have hsum : (m : ℝ) * 2 ^ (-1074 : ℤ) + n * 2 ^ (-1074 : ℤ) = ((m + n : ℤ) : ℝ) * 2 ^ (-1074 : ℤ) := by
    push_cast
    ring
  rw [hsum] at h ⊢
  refine ⟨m + n, -1074, ?_, le_rfl, rfl⟩
  have hp : (0 : ℝ) < 2 ^ (-1074 : ℤ) := by positivity
  rw [show (-1022 : ℤ) = 52 + -1074 by norm_num, zpow_add₀ (by norm_num), abs_mul, abs_of_pos hp,
    mul_lt_mul_iff_left₀ hp] at h
  have hlt : |m + n| < 2 ^ 52 := by exact_mod_cast h
  omega

theorem abs_nearest_add_sub_le (ha : OnGrid a) (hb : OnGrid b) (h0 : 0 ≤ a + b) :
    |nearest (a + b) - (a + b)| ≤ unitRoundoff * (a + b) := by
  by_cases h : 2 ^ (-1022 : ℤ) ≤ a + b
  · exact abs_nearest_sub_le_mul h
  · have hsmall : |a + b| < 2 ^ (-1022 : ℤ) := by
      rw [abs_of_nonneg h0]
      exact not_le.1 h
    rw [nearest_of_onGrid (onGrid_add ha hb hsmall), sub_self, abs_zero]
    exact mul_nonneg unitRoundoff_pos.le h0

/-- A rounded number that is finite has not overflowed. -/
theorem eq_nearest_of_rounded_eq (h : rounded q = (s : EReal)) : s = nearest q := by
  rw [rounded_coe] at h
  unfold saturated at h
  split_ifs at h with h₁ h₂
  · exact absurd h.symm (EReal.coe_ne_top s)
  · exact absurd h.symm (EReal.coe_ne_bot s)
  · exact (EReal.coe_eq_coe_iff.1 h).symm

/-! ## Sums -/

/-- How far k roundings in turn lead away from a number, relative to it. -/
noncomputable def growth (k : Nat) : ℝ := (1 + unitRoundoff) ^ k - 1

theorem growth_nonneg (k : Nat) : 0 ≤ growth k := by
  have h : 1 ≤ (1 + unitRoundoff) ^ k := one_le_pow₀ (by linarith [unitRoundoff_pos])
  unfold growth
  linarith

theorem growth_mono {k n : Nat} (h : k ≤ n) : growth k ≤ growth n :=
  sub_le_sub_right (pow_le_pow_right₀ (by linarith [unitRoundoff_pos]) h) 1

theorem growth_succ (k : Nat) : growth (k + 1) = growth k * (1 + unitRoundoff) + unitRoundoff := by
  unfold growth
  ring

/-- Up to 2⁵² roundings lead at most twice as far as each of them would alone. -/
theorem growth_le {k : Nat} (h : k * unitRoundoff ≤ 1 / 2) : growth k ≤ 2 * (k * unitRoundoff) := by
  have hu := unitRoundoff_pos
  have hone : unitRoundoff ≤ 1 := by
    unfold unitRoundoff
    norm_num
  have hbernoulli : 1 + (k : ℝ) * -unitRoundoff ≤ (1 + -unitRoundoff) ^ k :=
    one_add_mul_le_pow (by linarith) k
  have hinverse : (1 + unitRoundoff) ^ k * (1 + -unitRoundoff) ^ k ≤ 1 := by
    rw [← mul_pow]
    apply pow_le_one₀
    · exact mul_nonneg (by linarith) (by linarith)
    · nlinarith
  have hpow : 0 ≤ (1 + unitRoundoff) ^ k := by positivity
  have hless : (1 + unitRoundoff) ^ k * (1 - k * unitRoundoff) ≤ 1 :=
    (mul_le_mul_of_nonneg_left (by linarith) hpow).trans hinverse
  have h0 : 0 ≤ k * unitRoundoff := by positivity
  unfold growth
  generalize (k : ℝ) * unitRoundoff = t at h h0 hless
  have hsplit : (1 + 2 * t) * (1 - t) = 1 + t * (1 - 2 * t) := by ring
  have hmore : 1 ≤ (1 + 2 * t) * (1 - t) := by
    rw [hsplit]
    exact le_add_of_nonneg_right (mul_nonneg h0 (by linarith))
  have hle := le_of_mul_le_mul_right (hless.trans hmore) (by linarith)
  linarith

variable {acc : Float} {xs : List Float}

/-- The exact sum of finite floats. -/
noncomputable def exactSum (xs : List Float) : ℝ := (xs.map value).sum

theorem exactSum_cons (x : Float) (xs : List Float) : exactSum (x :: xs) = value x + exactSum xs := rfl

theorem exactSum_nonneg (h : ∀ x ∈ xs, x.isFinite = true ∧ 0 ≤ value x) : 0 ≤ exactSum xs := by
  apply List.sum_nonneg
  intro v hv
  obtain ⟨x, hx, rfl⟩ := List.mem_map.1 hv
  exact (h x hx).2

/-- A sum that does not overflow is off by what the roundings of its additions amount to. -/
theorem abs_foldl_sub_le (hacc : Denotes acc a) (ha : 0 ≤ a)
    (hxs : ∀ x ∈ xs, x.isFinite = true ∧ 0 ≤ value x) (hs : Denotes (xs.foldl (· + ·) acc) s) :
    |s - (a + exactSum xs)| ≤ growth xs.length * (a + exactSum xs) := by
  induction xs generalizing acc a with
  | nil =>
    have hsa : s = a := EReal.coe_eq_coe_iff.1 (hs.unique hacc)
    have hsum : exactSum [] = 0 := rfl
    rw [hsa, hsum, add_zero, sub_self, abs_zero]
    exact mul_nonneg (growth_nonneg _) ha
  | cons x r ih =>
    obtain ⟨hfinite, hx0⟩ := hxs x List.mem_cons_self
    have hr : ∀ y ∈ r, y.isFinite = true ∧ 0 ≤ value y := fun y hy => hxs y (List.mem_cons_of_mem x hy)
    have hx := denotes_value hfinite
    have hadd : Denotes (acc + x) (rounded ((a + value x : ℝ) : EReal)) :=
      denotes_add_of_nonneg hacc hx (EReal.coe_nonneg.2 ha) (EReal.coe_nonneg.2 hx0)
    have h0 : 0 ≤ a + value x := add_nonneg ha hx0
    have hadd0 : 0 ≤ rounded ((a + value x : ℝ) : EReal) := rounded_nonneg (EReal.coe_nonneg.2 h0)
    -- a partial sum that overflows would make the whole sum infinite
    obtain ⟨b, hb⟩ : ∃ b : ℝ, rounded ((a + value x : ℝ) : EReal) = b := by
      obtain ⟨s', hs', hle, -⟩ := exists_denotes_foldl r hadd hadd0 fun y hy =>
        ⟨_, denotes_value (hr y hy).1, EReal.coe_nonneg.2 (hr y hy).2, le_top⟩
      rw [hs'.unique hs] at hle
      exact exists_coe_of_nonneg hadd0 (ne_top_of_le_ne_top (EReal.coe_ne_top s) hle)
    rw [hb] at hadd hadd0
    have hround : |b - (a + value x)| ≤ unitRoundoff * (a + value x) := by
      rw [eq_nearest_of_rounded_eq hb]
      exact abs_nearest_add_sub_le hacc.onGrid hx.onGrid h0
    have hrest := ih hadd (EReal.coe_nonneg.1 hadd0) hr hs
    have hu := unitRoundoff_pos
    have hsum0 : 0 ≤ exactSum r := exactSum_nonneg hr
    rw [exactSum_cons, List.length_cons, growth_succ, ← add_assoc]
    generalize a + value x = p at hround h0
    generalize exactSum r = σ at hrest hsum0
    have hsize : b + σ ≤ (1 + unitRoundoff) * (p + σ) := by
      have hb := (abs_le.1 hround).2
      have hσ := mul_nonneg hu.le hsum0
      linarith
    calc |s - (p + σ)| = |s - (b + σ) + (b - p)| := by ring_nf
      _ ≤ |s - (b + σ)| + |b - p| := abs_add_le _ _
      _ ≤ growth r.length * ((1 + unitRoundoff) * (p + σ)) + unitRoundoff * (p + σ) := by
        apply add_le_add
        · exact hrest.trans (mul_le_mul_of_nonneg_left hsize (growth_nonneg _))
        · exact hround.trans (mul_le_mul_of_nonneg_left (by linarith) hu.le)
      _ = (growth r.length * (1 + unitRoundoff) + unitRoundoff) * (p + σ) := by ring

end AsmOrigin.Binary64
