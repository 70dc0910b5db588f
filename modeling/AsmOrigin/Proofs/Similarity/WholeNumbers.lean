import AsmOrigin.Proofs.Binary64.Errors
import AsmOrigin.Proofs.Binary64.Nearest
import AsmOrigin.Proofs.Similarity

/-!
Similarities of whole numbers.

Up to 2⁴⁰ the sum of the squared differences is exact (`sumFloats_squaredDifferences`), and two sums that
differ do so by one at least.  Their roots are then at least 2⁻²¹ apart, which is more than the three
roundings on the way to the similarity can take away (`closeness_lt_closeness`).
-/

namespace AsmOrigin

open Binary64

/-! ## Distances that are told apart -/

theorem sqrt_le_of_le {s : ℝ} (h : s ≤ 2 ^ (40 : ℤ)) : √s ≤ 2 ^ (20 : ℤ) :=
  Real.sqrt_le_iff.2 ⟨by positivity, h.trans (by norm_num)⟩

/-- The denominator of a similarity. -/
theorem one_le_denominator (s : ℝ) : 1 ≤ nearest (1 + nearest √s) := by
  have hroot := nearest_nonneg (Real.sqrt_nonneg s)
  have hone : nearest 1 = 1 := by
    have h := nearest_of_onGrid (onGrid_zpow (e := 0) (by norm_num))
    rwa [zpow_zero] at h
  calc (1 : ℝ) = nearest 1 := hone.symm
    _ ≤ nearest (1 + nearest √s) := nearest_mono (by linarith)

theorem one_add_nearest_le {s : ℝ} (h : s ≤ 2 ^ (40 : ℤ)) : 1 + nearest √s ≤ 2 ^ (21 : ℤ) := by
  have hroot := nearest_le_zpow (k := 20) (by norm_num) (sqrt_le_of_le h)
  norm_num at hroot ⊢
  linarith

/-- The steps from a squared distance to a similarity, none of which overflows here. -/
theorem closeness_coe {s : ℝ} (h : s ≤ 2 ^ (40 : ℤ)) :
    closeness (s : EReal) = (nearest (1 / nearest (1 + nearest √s)) : ℝ) := by
  have hroot : rounded (root (s : EReal)) = (nearest √s : ℝ) :=
    rounded_coe_of_le (k := 20) (by norm_num) (by norm_num) (Real.sqrt_nonneg s) (sqrt_le_of_le h)
  have hsum : rounded (1 + (nearest √s : ℝ)) = (nearest (1 + nearest √s) : ℝ) :=
    rounded_coe_of_le (k := 21) (by norm_num) (by norm_num)
      (by linarith [nearest_nonneg (Real.sqrt_nonneg s)]) (one_add_nearest_le h)
  have hone := one_le_denominator s
  unfold closeness
  rw [hroot, hsum]
  apply rounded_coe_of_le (k := 0) (by norm_num) (by norm_num) (by positivity)
  rw [zpow_zero]
  exact (div_le_one (by linarith)).2 hone

/-- Roots of numbers up to 2⁴⁰ that are one apart are 2⁻²¹ apart. -/
theorem sqrt_add_le_sqrt {s t : ℝ} (h0 : 0 ≤ s) (hst : s + 1 ≤ t) (h : t ≤ 2 ^ (40 : ℤ)) :
    √s + 1 / 2 ^ (21 : ℤ) ≤ √t := by
  have ht := sqrt_le_of_le h
  have hs := sqrt_le_of_le (by linarith : s ≤ 2 ^ (40 : ℤ))
  have hsum : √t + √s ≤ 2 ^ (21 : ℤ) := by
    norm_num at hs ht ⊢
    linarith
  have hdiff : 0 ≤ √t - √s := sub_nonneg.2 (Real.sqrt_le_sqrt (by linarith))
  have hone : 1 ≤ (√t - √s) * 2 ^ (21 : ℤ) := by
    calc 1 ≤ t - s := by linarith
      _ = √t ^ 2 - √s ^ 2 := by rw [Real.sq_sqrt h0, Real.sq_sqrt (by linarith)]
      _ = (√t - √s) * (√t + √s) := by ring
      _ ≤ (√t - √s) * 2 ^ (21 : ℤ) := mul_le_mul_of_nonneg_left hsum hdiff
  rw [← div_le_iff₀ (by positivity)] at hone
  linarith

theorem denominator_add_le {s t : ℝ} (h0 : 0 ≤ s) (hst : s + 1 ≤ t) (h : t ≤ 2 ^ (40 : ℤ)) :
    nearest (1 + nearest √s) + 1 / 2 ^ (22 : ℤ) ≤ nearest (1 + nearest √t) := by
  have hs : s ≤ 2 ^ (40 : ℤ) := by linarith
  have hroots := sqrt_add_le_sqrt h0 hst h
  have hroot_s := abs_le.1 (abs_nearest_sub_le_of_le (k := 20) (by norm_num) (Real.sqrt_nonneg s)
    (sqrt_le_of_le hs))
  have hroot_t := abs_le.1 (abs_nearest_sub_le_of_le (k := 20) (by norm_num) (Real.sqrt_nonneg t)
    (sqrt_le_of_le h))
  have hsum_s := abs_le.1 (abs_nearest_sub_le_of_le (k := 21) (by norm_num)
    (by linarith [nearest_nonneg (Real.sqrt_nonneg s)]) (one_add_nearest_le hs))
  have hsum_t := abs_le.1 (abs_nearest_sub_le_of_le (k := 21) (by norm_num)
    (by linarith [nearest_nonneg (Real.sqrt_nonneg t)]) (one_add_nearest_le h))
  norm_num at *
  linarith

theorem zpow_le_one_div {d : ℝ} (h0 : 0 < d) (h : d ≤ 2 ^ (21 : ℤ)) : 2 ^ (-1022 : ℤ) ≤ 1 / d := by
  calc (2 : ℝ) ^ (-1022 : ℤ) ≤ 2 ^ (-21 : ℤ) := zpow_le_zpow_right₀ (by norm_num) (by norm_num)
    _ = 1 / 2 ^ (21 : ℤ) := by rw [zpow_neg, one_div]
    _ ≤ 1 / d := one_div_le_one_div_of_le h0 h

theorem closeness_lt_closeness {s t : ℝ} (h0 : 0 ≤ s) (hst : s + 1 ≤ t) (h : t ≤ 2 ^ (40 : ℤ)) :
    closeness (t : EReal) < closeness (s : EReal) := by
  rw [closeness_coe h, closeness_coe (by linarith : s ≤ 2 ^ (40 : ℤ)), EReal.coe_lt_coe_iff]
  have hgap := denominator_add_le h0 hst h
  have hone := one_le_denominator s
  have hmax : nearest (1 + nearest √t) ≤ 2 ^ (21 : ℤ) :=
    nearest_le_zpow (by norm_num) (one_add_nearest_le h)
  generalize nearest (1 + nearest √s) = d at hgap hone
  generalize nearest (1 + nearest √t) = e at hgap hmax
  have hd : 0 < d := by linarith
  have hde : d ≤ e := le_trans (le_add_of_nonneg_right (by positivity)) hgap
  have he : 0 < e := hd.trans_le hde
  apply nearest_lt_nearest (zpow_le_one_div he hmax) (zpow_le_one_div hd (hde.trans hmax))
  have hcross : (1 + unitRoundoff) * d < (1 - unitRoundoff) * e := by
    have hu := mul_le_mul_of_nonneg_left (hde.trans hmax) unitRoundoff_pos.le
    have hu' := mul_le_mul_of_nonneg_left hmax unitRoundoff_pos.le
    unfold unitRoundoff at *
    norm_num at *
    linarith
  rw [mul_one_div, mul_one_div, ← add_div, ← sub_div, div_lt_div_iff₀ he hd]
  linarith

/-! ## Exact sums -/

/-- A finite float that stands for a whole number. -/
def IsWhole (x : Float) : Prop := x.isFinite = true ∧ ∃ n : ℤ, value x = n

variable {x y : Float} {r : ℝ}

theorem value_ofCount {n : Nat} (h : n ≤ 2 ^ 53) : value (ofCount n) = n :=
  (denotes_ofCount_of_le h).value_eq

theorem isWhole_ofCount {n : Nat} (h : n ≤ 2 ^ 53) : IsWhole (ofCount n) :=
  ⟨(denotes_ofCount_of_le h).isFinite_eq, n, by rw [value_ofCount h, Int.cast_natCast]⟩

/-- A whole number below 2⁵³ needs no rounding. -/
theorem isWhole_of_denotes_rounded (h : Denotes x (rounded (r : EReal))) (hr : ∃ n : ℤ, r = n)
    (hlt : |r| < 2 ^ 53) : IsWhole x ∧ value x = r := by
  obtain ⟨n, rfl⟩ := hr
  have hgrid : OnGrid n := onGrid_intCast (by exact_mod_cast hlt)
  have hlimit : |(n : ℝ)| < limit := hlt.trans (by exact_mod_cast zpow_lt_limit (e := 53) (by norm_num))
  rw [rounded_of_onGrid hgrid hlimit] at h
  exact ⟨⟨h.isFinite_eq, n, h.value_eq⟩, h.value_eq⟩

theorem IsWhole.add (hx : IsWhole x) (hy : IsWhole y) (h : |value x + value y| < 2 ^ 53) :
    IsWhole (x + y) ∧ value (x + y) = value x + value y := by
  obtain ⟨hfx, m, hm⟩ := hx
  obtain ⟨hfy, n, hn⟩ := hy
  have hsum : Denotes (x + y) (rounded ((value x + value y : ℝ) : EReal)) :=
    denotes_add (denotes_value hfx) (denotes_value hfy) (.inl (EReal.coe_ne_bot _))
      (.inl (EReal.coe_ne_top _))
  exact isWhole_of_denotes_rounded hsum ⟨m + n, by rw [hm, hn, Int.cast_add]⟩ h

theorem IsWhole.sub (hx : IsWhole x) (hy : IsWhole y) (h : |value x - value y| < 2 ^ 53) :
    IsWhole (x - y) ∧ value (x - y) = value x - value y := by
  obtain ⟨hfx, m, hm⟩ := hx
  obtain ⟨hfy, n, hn⟩ := hy
  have hdiff : Denotes (x - y) (rounded ((value x - value y : ℝ) : EReal)) :=
    denotes_sub (denotes_value hfx) (denotes_value hfy) (.inl (EReal.coe_ne_bot _))
      (.inl (EReal.coe_ne_top _))
  exact isWhole_of_denotes_rounded hdiff ⟨m - n, by rw [hm, hn, Int.cast_sub]⟩ h

theorem IsWhole.mul_self (hx : IsWhole x) (h : value x ^ 2 < 2 ^ 53) :
    IsWhole (x * x) ∧ value (x * x) = value x ^ 2 := by
  obtain ⟨hfx, m, hm⟩ := hx
  have hsquare : Denotes (x * x) (rounded ((value x ^ 2 : ℝ) : EReal)) := by
    rw [pow_two]
    exact denotes_mul_self (denotes_value hfx)
  apply isWhole_of_denotes_rounded hsquare ⟨m ^ 2, by rw [hm, Int.cast_pow]⟩
  rwa [abs_of_nonneg (sq_nonneg _)]

/-- A squared difference below 2⁵³ is exact. -/
theorem IsWhole.square_sub (hx : IsWhole x) (hy : IsWhole y) (h : (value x - value y) ^ 2 < 2 ^ 53) :
    IsWhole ((x - y) * (x - y)) ∧ value ((x - y) * (x - y)) = (value x - value y) ^ 2 := by
  have hdiff : |value x - value y| < 2 ^ 53 :=
    abs_lt_of_sq_lt_sq (h.trans (by norm_num)) (by norm_num)
  obtain ⟨hwhole, hvalue⟩ := hx.sub hy hdiff
  rw [← hvalue] at h ⊢
  exact hwhole.mul_self h

/-- A sum of whole numbers that are not negative is exact as long as it is below 2⁵³. -/
theorem isWhole_foldl {acc : Float} {xs : List Float} (hacc : IsWhole acc) (h0 : 0 ≤ value acc)
    (hxs : ∀ x ∈ xs, IsWhole x ∧ 0 ≤ value x) (h : value acc + exactSum xs < 2 ^ 53) :
    IsWhole (xs.foldl (· + ·) acc) ∧ value (xs.foldl (· + ·) acc) = value acc + exactSum xs := by
  induction xs generalizing acc with
  | nil => exact ⟨hacc, (add_zero _).symm⟩
  | cons x r ih =>
    obtain ⟨⟨hx, hx0⟩, hr⟩ := List.forall_mem_cons.1 hxs
    have hr0 : 0 ≤ exactSum r := exactSum_nonneg fun y hy => ⟨(hr y hy).1.1, (hr y hy).2⟩
    rw [exactSum_cons, ← add_assoc] at h ⊢
    have habs : |value acc + value x| < 2 ^ 53 := by
      rw [abs_of_nonneg (add_nonneg h0 hx0)]
      linarith
    obtain ⟨hadd, hvalue⟩ := hacc.add hx habs
    rw [← hvalue] at h ⊢
    exact ih hadd (hvalue ▸ add_nonneg h0 hx0) hr h

/-! ## Fingerprints -/

variable {a b c : Fingerprint}

def Fingerprint.IsWhole (f : Fingerprint) : Prop := ∀ x ∈ f.slots, AsmOrigin.IsWhole x

/-- The exact squared differences of the slots. -/
noncomputable def exactSquares (a b : Fingerprint) : List ℝ :=
  List.zipWith (fun x y => (value x - value y) ^ 2) a.slots b.slots

/-- The exact squared distance of two fingerprints of one size. -/
noncomputable def squaredDistance (a b : Fingerprint) : ℝ := (exactSquares a b).sum

theorem mem_exactSquares_iff {d : ℝ} : d ∈ exactSquares a b ↔
    ∃ (i : Nat) (u v : Float), a.slots[i]? = some u ∧ b.slots[i]? = some v ∧
      d = (value u - value v) ^ 2 := by
  unfold exactSquares
  rw [List.mem_iff_getElem?]
  apply exists_congr
  intro i
  rw [List.getElem?_zipWith_eq_some]
  simp only [eq_comm]

theorem exactSquares_nonneg {d : ℝ} (hd : d ∈ exactSquares a b) : 0 ≤ d := by
  obtain ⟨i, u, v, -, -, rfl⟩ := mem_exactSquares_iff.1 hd
  exact sq_nonneg _

theorem squaredDistance_nonneg (a b : Fingerprint) : 0 ≤ squaredDistance a b :=
  List.sum_nonneg fun _ => exactSquares_nonneg

theorem square_le_squaredDistance {i : Nat} (hx : a.slots[i]? = some x) (hy : b.slots[i]? = some y) :
    (value x - value y) ^ 2 ≤ squaredDistance a b :=
  List.single_le_sum (fun _ => exactSquares_nonneg) _ (mem_exactSquares_iff.2 ⟨i, x, y, hx, hy, rfl⟩)

/-- A distance of zero is equality slot by slot. -/
theorem squaredDistance_eq_zero_iff (hsize : a.size = b.size) (ha : a.IsWhole) (hb : b.IsWhole) :
    squaredDistance a b = 0 ↔ a.EqualSlots b := by
  constructor
  · intro h
    refine List.forall₂_iff_get.2 ⟨hsize, fun i hi hj => ?_⟩
    have hle := square_le_squaredDistance (List.getElem?_eq_getElem hi) (List.getElem?_eq_getElem hj)
    rw [h] at hle
    have hzero : value a.slots[i] - value b.slots[i] = 0 :=
      (pow_eq_zero_iff two_ne_zero).1 (le_antisymm hle (sq_nonneg _))
    exact (beq_iff_value_eq (ha _ (List.getElem_mem hi)).1 (hb _ (List.getElem_mem hj)).1).2
      (sub_eq_zero.1 hzero)
  · intro h
    apply List.sum_eq_zero
    intro d hd
    obtain ⟨i, u, v, hu, hv, rfl⟩ := mem_exactSquares_iff.1 hd
    have heq := (beq_iff_value_eq (ha u (List.mem_of_getElem? hu)).1 (hb v (List.mem_of_getElem? hv)).1).1
      (h.beq_of_getElem? hu hv)
    rw [heq, sub_self, zero_pow two_ne_zero]

/-- Between whole numbers a sum of squared differences below 2⁵³ is exact. -/
theorem sumFloats_squaredDifferences (ha : a.IsWhole) (hb : b.IsWhole)
    (h : squaredDistance a b < 2 ^ 53) :
    IsWhole (sumFloats (squaredDifferences a b)) ∧
      value (sumFloats (squaredDifferences a b)) = squaredDistance a b := by
  have hslot : ∀ (i : Nat) u v, a.slots[i]? = some u → b.slots[i]? = some v →
      IsWhole ((u - v) * (u - v)) ∧ value ((u - v) * (u - v)) = (value u - value v) ^ 2 :=
    fun i u v hu hv => (ha u (List.mem_of_getElem? hu)).square_sub (hb v (List.mem_of_getElem? hv))
      ((square_le_squaredDistance hu hv).trans_lt h)
  have hexact : exactSum (squaredDifferences a b) = squaredDistance a b := by
    unfold exactSum squaredDistance exactSquares squaredDifferences
    rw [List.map_zipWith]
    congr 1
    apply List.ext_getElem?
    intro i
    rw [List.getElem?_zipWith, List.getElem?_zipWith]
    cases hu : a.slots[i]? with
    | none => rfl
    | some u =>
      cases hv : b.slots[i]? with
      | none => rfl
      | some v => exact congrArg some (hslot i u v hu hv).2
  have hsquares : ∀ d ∈ squaredDifferences a b, IsWhole d ∧ 0 ≤ value d := by
    intro d hd
    obtain ⟨i, u, v, hu, hv, rfl⟩ := mem_squaredDifferences_iff.1 hd
    obtain ⟨hwhole, hvalue⟩ := hslot i u v hu hv
    exact ⟨hwhole, hvalue ▸ sq_nonneg _⟩
  have hzero : value 0.0 = 0 := denotes_zero.value_eq
  have hstart : IsWhole 0.0 := ⟨rfl, 0, by rw [hzero, Int.cast_zero]⟩
  have hsum := isWhole_foldl hstart hzero.ge hsquares
  rw [hzero, zero_add, hexact] at hsum
  exact hsum h

/-! ## Similarities -/

/-- A whole fingerprint of the same size, and not too far away. -/
structure WholeNear (a b : Fingerprint) : Prop where
  size_eq : a.size = b.size
  whole : b.IsWhole
  near : squaredDistance a b ≤ 2 ^ 40

theorem WholeNear.sum_eq (h : WholeNear a b) (ha : a.IsWhole) :
    IsWhole (sumFloats (squaredDifferences a b)) ∧
      value (sumFloats (squaredDifferences a b)) = squaredDistance a b :=
  sumFloats_squaredDifferences ha h.whole (h.near.trans_lt (by norm_num))

theorem WholeNear.denotes_similarity (h : WholeNear a b) (ha : a.IsWhole) :
    Denotes (similarity a b) (closeness (squaredDistance a b : ℝ)) := by
  obtain ⟨⟨hfinite, -⟩, hvalue⟩ := h.sum_eq ha
  have hsum := denotes_value hfinite
  rw [hvalue] at hsum
  exact AsmOrigin.denotes_similarity h.size_eq hsum (EReal.coe_nonneg.2 (squaredDistance_nonneg a b))

/-- Distances that differ do so by one at least. -/
theorem WholeNear.add_one_le (hb : WholeNear a b) (hc : WholeNear a c) (ha : a.IsWhole)
    (h : squaredDistance a b < squaredDistance a c) :
    squaredDistance a b + 1 ≤ squaredDistance a c := by
  obtain ⟨⟨-, m, hm⟩, hvm⟩ := hb.sum_eq ha
  obtain ⟨⟨-, n, hn⟩, hvn⟩ := hc.sum_eq ha
  rw [← hvm, ← hvn, hm, hn] at h ⊢
  exact_mod_cast Int.add_one_le_iff.2 (Int.cast_lt.1 h)

/-- The nearer of two whole fingerprints is strictly more similar. -/
theorem WholeNear.similarity_lt (hb : WholeNear a b) (hc : WholeNear a c) (ha : a.IsWhole)
    (h : squaredDistance a b < squaredDistance a c) : similarity a c < similarity a b := by
  rw [lt_iff_lt (hc.denotes_similarity ha) (hb.denotes_similarity ha)]
  exact closeness_lt_closeness (squaredDistance_nonneg a b) (hb.add_one_le hc ha h)
    (by exact_mod_cast hc.near)

theorem WholeNear.similarity_le (hb : WholeNear a b) (hc : WholeNear a c) (ha : a.IsWhole)
    (h : squaredDistance a b ≤ squaredDistance a c) : similarity a c ≤ similarity a b := by
  rw [le_iff_le (hc.denotes_similarity ha) (hb.denotes_similarity ha)]
  exact closeness_anti (EReal.coe_le_coe_iff.2 h)

end AsmOrigin
