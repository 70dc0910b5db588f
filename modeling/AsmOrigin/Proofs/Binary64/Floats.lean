import AsmOrigin.Fingerprint
import AsmOrigin.Proofs.Binary64.Operations

/-!
Arithmetic of floats as arithmetic of extended reals that is rounded once.

`Denotes x z` says that the float is a number, finite or infinite, and stands for `z`.  Sums,
differences, squares, quotients and roots of numbers denote the exact result, rounded, and comparisons
compare what is denoted (`le_iff_le`, `lt_iff_lt`).
-/

namespace AsmOrigin.Binary64

open Float.Model Float.Model.UnpackedFloat

/-- The float is a number and stands for that extended real. -/
def Denotes (x : Float) (z : EReal) : Prop :=
  x.isNaN = false ∧ extended x.toModel.unpack = z

variable {x y : Float} {a b : EReal}

theorem exists_denotes (h : x.isNaN = false) : ∃ z, Denotes x z := ⟨_, h, rfl⟩

theorem Denotes.unique (h : Denotes x a) (h' : Denotes x b) : a = b := h.2.symm.trans h'.2

theorem denotes_of_yields {u : UnpackedFloat} (h : Yields u a) :
    Denotes (.ofModel (Float.Model.pack u)) (rounded a) := by
  refine ⟨?_, extended_unpack_pack h⟩
  exact (isNaN_unpack_pack h.isCanonical).trans h.isNaN_eq

/-- What a float denotes needs no rounding. -/
theorem Denotes.rounded_eq (h : Denotes x a) : rounded a = a := by
  obtain ⟨hn, rfl⟩ := h
  have hc := isCanonical_unpack x.toModel
  have hcl := clamped_unpack x.toModel
  have hN : x.toModel.unpack.isNaN = false := hn
  generalize x.toModel.unpack = u at hc hcl hN
  have hy : Yields u (extended u) := by
    cases u with
    | notANumber => cases hN
    | infinity s => exact yields_infinity s
    | zero s => exact yields_self hc rfl
    | finite s m e hm => exact yields_self hc rfl
  rw [← hy.extended_eq, hcl]

/-! ## Operations -/

theorem isNaN_add {u v : UnpackedFloat} (hu : u.isNaN = false) (hv : v.isNaN = false)
    (h₁ : extended u ≠ ⊥ ∨ extended v ≠ ⊤) (h₂ : extended u ≠ ⊤ ∨ extended v ≠ ⊥) :
    (UnpackedFloat.add Format.binary64 u v).isNaN = false := by
  cases u with
  | notANumber => cases hu
  | infinity s =>
    cases v with
    | notANumber => cases hv
    | infinity t =>
      cases s <;> cases t
      · rfl
      · exact absurd h₁ (by simp [extended])
      · exact absurd h₂ (by simp [extended])
      · rfl
    | _ => rfl
  | zero s =>
    cases v with
    | notANumber => cases hv
    | zero t => cases s <;> cases t <;> rfl
    | _ => rfl
  | finite s m e hm =>
    cases v with
    | notANumber => cases hv
    | finite t n f hn => exact isNaN_of_isFinite isRounding_add.isFinite
    | _ => rfl

theorem denotes_add (hx : Denotes x a) (hy : Denotes y b) (h₁ : a ≠ ⊥ ∨ b ≠ ⊤)
    (h₂ : a ≠ ⊤ ∨ b ≠ ⊥) : Denotes (x + y) (rounded (a + b)) := by
  obtain ⟨hx, rfl⟩ := hx
  obtain ⟨hy, rfl⟩ := hy
  exact denotes_of_yields
    (yields_add (isCanonical_unpack _) (isCanonical_unpack _) (isNaN_add hx hy h₁ h₂))

theorem denotes_sub (hx : Denotes x a) (hy : Denotes y b) (h₁ : a ≠ ⊥ ∨ b ≠ ⊥)
    (h₂ : a ≠ ⊤ ∨ b ≠ ⊤) : Denotes (x - y) (rounded (a - b)) := by
  obtain ⟨hx, rfl⟩ := hx
  obtain ⟨hy, rfl⟩ := hy
  refine denotes_of_yields (yields_sub (isCanonical_unpack _) (isCanonical_unpack _) ?_)
  rw [sub_eq_add]
  refine isNaN_add hx ((isNaN_neg _).trans hy) ?_ ?_
  · rw [extended_neg]
    exact h₁.imp_right (mt EReal.neg_eq_top_iff.1)
  · rw [extended_neg]
    exact h₂.imp_right (mt EReal.neg_eq_bot_iff.1)

theorem denotes_mul_self (hx : Denotes x a) : Denotes (x * x) (rounded (a * a)) := by
  obtain ⟨hx, rfl⟩ := hx
  have hc := isCanonical_unpack x.toModel
  have hn : x.toModel.unpack.isNaN = false := hx
  refine denotes_of_yields (yields_mul hc hc ?_)
  generalize x.toModel.unpack = u at hc hn
  cases u with
  | notANumber => cases hn
  | finite s m e hm => exact isNaN_of_isFinite (isRounding_mul hc hc).isFinite
  | _ => rfl

theorem denotes_div (hx : Denotes x a) (hy : Denotes y b) (h0 : b ≠ 0)
    (h : a ≠ ⊤ ∧ a ≠ ⊥ ∨ b ≠ ⊤ ∧ b ≠ ⊥) : Denotes (x / y) (rounded (a / b)) := by
  obtain ⟨hx, rfl⟩ := hx
  obtain ⟨hy, rfl⟩ := hy
  refine denotes_of_yields (yields_div (isCanonical_unpack _) (isCanonical_unpack _) ?_ h0)
  have hx : x.toModel.unpack.isNaN = false := hx
  have hy : y.toModel.unpack.isNaN = false := hy
  generalize x.toModel.unpack = u at hx h
  generalize y.toModel.unpack = v at hy h0 h
  cases u with
  | notANumber => cases hx
  | infinity s =>
    cases v with
    | notANumber => cases hy
    | infinity t => cases s <;> cases t <;> exact absurd h (by simp [extended])
    | _ => rfl
  | zero s =>
    cases v with
    | notANumber => cases hy
    | zero t => exact absurd (extended_zero t) h0
    | _ => rfl
  | finite s m e hm =>
    cases v with
    | notANumber => cases hy
    | finite t n f hn => exact isNaN_of_isFinite isRounding_div.isFinite
    | _ => rfl

theorem denotes_sqrt (hx : Denotes x a) (h : 0 ≤ a) : Denotes x.sqrt (rounded (root a)) := by
  obtain ⟨hx, rfl⟩ := hx
  exact denotes_of_yields (yields_sqrt h hx)

/-! ## Comparisons -/

/-- A number with the greater exponent is the greater one. -/
theorem mul_zpow_lt_of_exponent_lt {m n : Nat} {e f : Int} (hm : Canonical m e) (hn : Canonical n f)
    (h : e < f) : (m : ℝ) * 2 ^ e < n * 2 ^ f := by
  have hn52 : 2 ^ 52 ≤ n := hn.normal.resolve_right (by have := hm.least; omega)
  calc (m : ℝ) * 2 ^ e < 2 ^ (53 : ℤ) * 2 ^ e := by
        refine mul_lt_mul_of_pos_right ?_ (by positivity)
        exact_mod_cast hm.lt
    _ = 2 ^ (53 + e) := (zpow_add₀ (by norm_num) _ _).symm
    _ ≤ 2 ^ (52 + f) := zpow_le_zpow_right₀ (by norm_num) (by omega)
    _ = 2 ^ (52 : ℤ) * 2 ^ f := zpow_add₀ (by norm_num) _ _
    _ ≤ n * 2 ^ f := by
        refine mul_le_mul_of_nonneg_right ?_ (by positivity)
        exact_mod_cast hn52

/-- Exponents compared before mantissas compare numbers. -/
theorem compare_then_compare {m n : Nat} {e f : Int} (hm : Canonical m e) (hn : Canonical n f) :
    (compare e f).then (compare m n) = cmp ((m : ℝ) * 2 ^ e) (n * 2 ^ f) := by
  rcases lt_trichotomy e f with h | rfl | h
  · rw [Int.compare_eq_lt.2 h, (cmp_eq_lt_iff _ _).2 (mul_zpow_lt_of_exponent_lt hm hn h)]
    rfl
  · have hp : (0 : ℝ) < 2 ^ e := by positivity
    rw [compare_eq_iff_eq.2 rfl]
    show compare m n = _
    rcases lt_trichotomy m n with h | rfl | h
    · have : (m : ℝ) * 2 ^ e < n * 2 ^ e := mul_lt_mul_of_pos_right (by exact_mod_cast h) hp
      rw [Nat.compare_eq_lt.2 h, (cmp_eq_lt_iff _ _).2 this]
    · rw [Nat.compare_eq_eq.2 rfl, cmp_self_eq_eq]
    · have : (n : ℝ) * 2 ^ e < m * 2 ^ e := mul_lt_mul_of_pos_right (by exact_mod_cast h) hp
      rw [Nat.compare_eq_gt.2 h, (cmp_eq_gt_iff _ _).2 this]
  · rw [Int.compare_eq_gt.2 h, (cmp_eq_gt_iff _ _).2 (mul_zpow_lt_of_exponent_lt hn hm h)]
    rfl

theorem some_lt_eq (h : a < b) : some Ordering.lt = some (cmp a b) := by
  rw [(cmp_eq_lt_iff a b).2 h]

theorem some_gt_eq (h : b < a) : some Ordering.gt = some (cmp a b) := by
  rw [(cmp_eq_gt_iff a b).2 h]

theorem cmp_coe (x y : ℝ) : cmp (x : EReal) y = cmp x y := by
  rcases lt_trichotomy x y with h | rfl | h
  · rw [(cmp_eq_lt_iff _ _).2 h, (cmp_eq_lt_iff _ _).2 (EReal.coe_lt_coe_iff.2 h)]
  · rw [cmp_self_eq_eq, cmp_self_eq_eq]
  · rw [(cmp_eq_gt_iff _ _).2 h, (cmp_eq_gt_iff _ _).2 (EReal.coe_lt_coe_iff.2 h)]

theorem cmp_neg (x y : ℝ) : cmp (-x) (-y) = (cmp x y).swap := by
  rw [cmp_swap]
  rcases lt_trichotomy x y with h | rfl | h
  · rw [(cmp_eq_gt_iff _ _).2 h, (cmp_eq_gt_iff _ _).2 (neg_lt_neg h)]
  · rw [cmp_self_eq_eq, cmp_self_eq_eq]
  · rw [(cmp_eq_lt_iff _ _).2 h, (cmp_eq_lt_iff _ _).2 (neg_lt_neg h)]

theorem compare_finite {s t : Sign} {m n : Nat} {e f : Int} {hm : 0 < m} {hn : 0 < n}
    (hu : Canonical m e) (hv : Canonical n f) :
    UnpackedFloat.compare (.finite s m e hm) (.finite t n f hn) =
      some (cmp (extended (.finite s m e hm)) (extended (.finite t n f hn))) := by
  have hx : (0 : ℝ) < m * 2 ^ e := by positivity
  have hy : (0 : ℝ) < n * 2 ^ f := by positivity
  cases s <;> cases t
  · show some ((compare e f).then (compare m n)).swap =
      some (cmp ((-(m * 2 ^ e) : ℝ) : EReal) ((-(n * 2 ^ f) : ℝ) : EReal))
    rw [cmp_coe, compare_then_compare hu hv, cmp_neg]
  · exact some_lt_eq (EReal.coe_lt_coe_iff.2 (lt_trans (neg_lt_zero.2 hx) hy))
  · exact some_gt_eq (EReal.coe_lt_coe_iff.2 (lt_trans (neg_lt_zero.2 hy) hx))
  · show some ((compare e f).then (compare m n)) =
      some (cmp ((m * 2 ^ e : ℝ) : EReal) ((n * 2 ^ f : ℝ) : EReal))
    rw [cmp_coe, compare_then_compare hu hv]

/-- Numbers are compared by what they stand for. -/
theorem compare_eq {u v : UnpackedFloat} (hu : IsCanonical u) (hv : IsCanonical v)
    (hnu : u.isNaN = false) (hnv : v.isNaN = false) :
    UnpackedFloat.compare u v = some (cmp (extended u) (extended v)) := by
  cases u with
  | notANumber => cases hnu
  | infinity s =>
    cases v with
    | notANumber => cases hnv
    | infinity t =>
      cases s <;> cases t
      · exact congrArg some (cmp_self_eq_eq (⊥ : EReal)).symm
      · exact some_lt_eq bot_lt_top
      · exact some_gt_eq bot_lt_top
      · exact congrArg some (cmp_self_eq_eq (⊤ : EReal)).symm
    | zero t =>
      rw [extended_zero]
      cases s
      · exact some_lt_eq (EReal.bot_lt_coe 0)
      · exact some_gt_eq (EReal.coe_lt_top 0)
    | finite t n f hn =>
      cases s
      · exact some_lt_eq (EReal.bot_lt_coe _)
      · exact some_gt_eq (EReal.coe_lt_top _)
  | zero s =>
    rw [extended_zero]
    cases v with
    | notANumber => cases hnv
    | infinity t =>
      cases t
      · exact some_gt_eq (EReal.bot_lt_coe 0)
      · exact some_lt_eq (EReal.coe_lt_top 0)
    | zero t =>
      rw [extended_zero, cmp_self_eq_eq]
      rfl
    | finite t n f hn =>
      have hy : (0 : ℝ) < n * 2 ^ f := by positivity
      cases t
      · exact some_gt_eq (EReal.coe_neg'.2 (neg_lt_zero.2 hy))
      · exact some_lt_eq (EReal.coe_pos.2 hy)
  | finite s m e hm =>
    cases v with
    | notANumber => cases hnv
    | infinity t =>
      cases t
      · exact some_gt_eq (EReal.bot_lt_coe _)
      · exact some_lt_eq (EReal.coe_lt_top _)
    | zero t =>
      have hx : (0 : ℝ) < m * 2 ^ e := by positivity
      rw [extended_zero]
      cases s
      · exact some_lt_eq (EReal.coe_neg'.2 (neg_lt_zero.2 hx))
      · exact some_gt_eq (EReal.coe_pos.2 hx)
    | finite t n f hn => exact compare_finite hu hv

theorem Denotes.compare_eq (hx : Denotes x a) (hy : Denotes y b) :
    x.toModel.unpack.compare y.toModel.unpack = some (cmp a b) := by
  obtain ⟨hx, rfl⟩ := hx
  obtain ⟨hy, rfl⟩ := hy
  exact Binary64.compare_eq (isCanonical_unpack _) (isCanonical_unpack _) hx hy

theorem le_iff_le (hx : Denotes x a) (hy : Denotes y b) : x ≤ y ↔ a ≤ b := by
  have h : x ≤ y ↔ (x.toModel.unpack.compare y.toModel.unpack).any (·.isLE) = true := by
    show decide (x.toModel ≤ y.toModel) = true ↔ _
    exact decide_eq_true_iff
  rw [h, hx.compare_eq hy]
  rcases lt_trichotomy a b with hab | rfl | hab
  · rw [(cmp_eq_lt_iff _ _).2 hab]
    exact iff_of_true rfl hab.le
  · rw [cmp_self_eq_eq]
    exact iff_of_true rfl le_rfl
  · rw [(cmp_eq_gt_iff _ _).2 hab]
    exact iff_of_false (by decide) hab.not_ge

theorem lt_iff_lt (hx : Denotes x a) (hy : Denotes y b) : x < y ↔ a < b := by
  have h : x < y ↔ (x.toModel.unpack.compare y.toModel.unpack == some .lt) = true := by
    show decide (x.toModel < y.toModel) = true ↔ _
    exact decide_eq_true_iff
  rw [h, hx.compare_eq hy, ← cmp_eq_lt_iff]
  cases cmp a b <;> decide

theorem beq_iff_eq (hx : Denotes x a) (hy : Denotes y b) : (x == y) = true ↔ a = b := by
  have h : (x == y) = (x.toModel.unpack.compare y.toModel.unpack == some .eq) := rfl
  rw [h, hx.compare_eq hy, ← cmp_eq_eq_iff a b]
  cases cmp a b <;> decide

/-! ## Counts and finite numbers -/

theorem denotes_ofCount (n : Nat) : Denotes (ofCount n) (rounded (n : ℝ)) := by
  have h := denotes_of_yields (yields_of_isRounding (isRounding_normalize n 0 .positive))
  rw [zpow_zero, mul_one] at h
  exact h

theorem denotes_zero : Denotes 0.0 0 := by
  have h := denotes_ofCount 0
  rw [show ofCount 0 = 0.0 by decide, Nat.cast_zero, EReal.coe_zero, rounded_zero] at h
  exact h

theorem denotes_one : Denotes 1.0 1 := by
  have h := denotes_ofCount 1
  rw [show ofCount 1 = 1.0 by decide, Nat.cast_one, EReal.coe_one, rounded_one] at h
  exact h

theorem isFinite_iff (hx : Denotes x a) : x.isFinite = true ↔ ∃ r : ℝ, a = r := by
  obtain ⟨hx, rfl⟩ := hx
  have hx : x.toModel.unpack.isNaN = false := hx
  show x.toModel.unpack.isFinite = true ↔ _
  generalize x.toModel.unpack = u at hx
  cases u with
  | notANumber => cases hx
  | infinity s => cases s <;> simp [extended, UnpackedFloat.isFinite]
  | zero s => exact iff_of_true rfl ⟨_, rfl⟩
  | finite s m e hm => exact iff_of_true rfl ⟨_, rfl⟩

theorem exists_denotes_coe (h : x.isFinite = true) : ∃ r : ℝ, Denotes x r := by
  have hn : x.isNaN = false := isNaN_of_isFinite h
  obtain ⟨a, ha⟩ := exists_denotes hn
  obtain ⟨r, rfl⟩ := (isFinite_iff ha).1 h
  exact ⟨r, ha⟩

/-! ## Bounds -/

/-- The float is a number between the bounds. -/
def Within (lo hi : EReal) (x : Float) : Prop := ∃ a, Denotes x a ∧ lo ≤ a ∧ a ≤ hi

theorem Within.mono {lo hi lo' hi' : EReal} (h : Within lo hi x) (hlo : lo' ≤ lo) (hhi : hi ≤ hi') :
    Within lo' hi' x := by
  obtain ⟨a, ha, h₁, h₂⟩ := h
  exact ⟨a, ha, hlo.trans h₁, h₂.trans hhi⟩

theorem Within.isNaN_eq {lo hi : EReal} (h : Within lo hi x) : x.isNaN = false := by
  obtain ⟨a, ha, -, -⟩ := h
  exact ha.1

/-- Rounding does not leave an interval whose ends are in the format. -/
theorem within_of_denotes_rounded {lo hi : EReal} (hx : Denotes x (rounded a))
    (hlo : rounded lo = lo) (hhi : rounded hi = hi) (h₁ : lo ≤ a) (h₂ : a ≤ hi) : Within lo hi x := by
  refine ⟨_, hx, ?_, ?_⟩
  · rw [← hlo]
    exact rounded_mono h₁
  · rw [← hhi]
    exact rounded_mono h₂

/-- Between zero and a power of two a float is a real number. -/
theorem exists_coe_of_within {k : ℤ} (h : Within 0 (twoPow k) x) :
    ∃ r : ℝ, Denotes x r ∧ 0 ≤ r ∧ r ≤ 2 ^ k := by
  obtain ⟨a, ha, h₁, h₂⟩ := h
  lift a to ℝ using ⟨ne_top_of_le_ne_top (EReal.coe_ne_top _) h₂,
    ne_bot_of_le_ne_bot EReal.zero_ne_bot h₁⟩
  exact ⟨a, ha, EReal.coe_nonneg.1 h₁, EReal.coe_le_coe_iff.1 h₂⟩

end AsmOrigin.Binary64
