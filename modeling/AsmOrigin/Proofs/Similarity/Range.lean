import AsmOrigin.Proofs.Similarity.Distances
import AsmOrigin.Proofs.Training.Means

/-!
When a similarity is zero.

Between finite fingerprints of one size the similarity is zero exactly if the sum of their squared
differences overflows, and at least 2⁻⁵¹³ otherwise (`closeness_eq_zero_iff`, `twoPow_le_closeness`).  It
overflows if one slot is 2⁵¹² apart, and never does if none is more than 2⁴⁸⁵ apart, however many there
are.
-/

namespace AsmOrigin

open Binary64

variable {x y : Float} {s : EReal} {d : ℝ} {a b : Fingerprint}

/-! ## Sums that overflow -/

theorem closeness_eq_zero_iff (hx : Denotes x s) (h0 : 0 ≤ s) : closeness s = 0 ↔ s = ⊤ := by
  constructor
  · intro hzero
    by_contra htop
    have hle := twoPow_le_closeness (k := 512) (by norm_num) (by norm_num) (hx.lt_twoPow h0 htop).le
    rw [hzero] at hle
    exact absurd (twoPow_pos _) hle.not_gt
  · rintro rfl
    exact closeness_top

/-! ## Distances -/

/-- The square of a distance of 2⁵¹² or more is infinite. -/
theorem squared_eq_top (h : 2 ^ (512 : ℤ) ≤ d) : squared d = ⊤ := by
  have hround : rounded ((2 ^ (512 : ℤ) : ℝ) : EReal) = ((2 ^ (512 : ℤ) : ℝ) : EReal) :=
    rounded_zpow (by norm_num) (by norm_num)
  have hmul : ((2 ^ (512 : ℤ) : ℝ) : EReal) * ((2 ^ (512 : ℤ) : ℝ) : EReal) = (limit : ℝ) := by
    rw [← EReal.coe_mul, ← zpow_add₀ (by norm_num)]
    rfl
  have hlimit : rounded (limit : ℝ) = ⊤ := by
    unfold limit
    rw [rounded_coe, nearest_of_onGrid (onGrid_zpow (by norm_num))]
    exact if_pos le_rfl
  apply top_le_iff.1
  apply le_trans (le_of_eq _) (squared_mono (by positivity) h)
  unfold squared
  rw [hround, hmul, hlimit]

/-! ## Fingerprints -/

/-- No slot of `a` is farther than that from the slot of `b`. -/
def AllWithin (d : ℝ) (a b : Fingerprint) : Prop :=
  ∀ (i : Nat) x y, a.slots[i]? = some x → b.slots[i]? = some y → |value x - value y| ≤ d

/-- Some slot of `a` is at least so far from the slot of `b`. -/
def SomeBeyond (d : ℝ) (a b : Fingerprint) : Prop :=
  ∃ (i : Nat) (x y : Float), a.slots[i]? = some x ∧ b.slots[i]? = some y ∧ d ≤ |value x - value y|

/-- What a squared difference of finite slots denotes. -/
theorem exists_squared_of_mem (ha : ∀ x ∈ a.slots, x.isFinite = true)
    (hb : ∀ y ∈ b.slots, y.isFinite = true) (hx : x ∈ squaredDifferences a b) :
    ∃ (i : Nat) (u v : Float), a.slots[i]? = some u ∧ b.slots[i]? = some v ∧
      Denotes x (squared |value u - value v|) := by
  obtain ⟨i, u, v, hu, hv, rfl⟩ := mem_squaredDifferences_iff.1 hx
  have hu' := denotes_value (ha u (List.mem_of_getElem? hu))
  have hv' := denotes_value (hb v (List.mem_of_getElem? hv))
  exact ⟨i, u, v, hu, hv, denotes_square_sub hu' hv'⟩

theorem within_squaredDifferences (ha : ∀ x ∈ a.slots, x.isFinite = true)
    (hb : ∀ y ∈ b.slots, y.isFinite = true) : ∀ x ∈ squaredDifferences a b, Within 0 ⊤ x := by
  intro x hx
  obtain ⟨i, u, v, -, -, hd⟩ := exists_squared_of_mem ha hb hx
  exact ⟨_, hd, squared_nonneg (abs_nonneg _), le_top⟩

theorem similarity_beq_zero_iff (hsize : a.size = b.size) (ha : ∀ x ∈ a.slots, x.isFinite = true)
    (hb : ∀ y ∈ b.slots, y.isFinite = true) :
    (similarity a b == 0.0) = true ↔ (sumFloats (squaredDifferences a b)).isInf = true := by
  obtain ⟨s, hs, h0, -⟩ := within_sumFloats (within_squaredDifferences ha hb)
  rw [beq_iff_eq (denotes_similarity hsize hs h0) denotes_zero, isInf_iff_eq_top hs h0]
  exact closeness_eq_zero_iff hs h0

/-- A similarity that is not zero is at least 2⁻⁵¹³. -/
theorem twoPow_le_similarity (hsize : a.size = b.size) (ha : ∀ x ∈ a.slots, x.isFinite = true)
    (hb : ∀ y ∈ b.slots, y.isFinite = true)
    (hinf : (sumFloats (squaredDifferences a b)).isInf = false) :
    Within (twoPow (-513)) 1 (similarity a b) := by
  obtain ⟨s, hs, h0, -⟩ := within_sumFloats (within_squaredDifferences ha hb)
  have htop : s ≠ ⊤ := by
    intro h
    rw [← isInf_iff_eq_top hs h0, hinf] at h
    cases h
  exact ⟨_, denotes_similarity hsize hs h0, twoPow_le_closeness (k := 512) (by norm_num) (by norm_num)
    (hs.lt_twoPow h0 htop).le, closeness_le_one h0⟩

theorem isInf_eq_false_of_allWithin (ha : ∀ x ∈ a.slots, x.isFinite = true)
    (hb : ∀ y ∈ b.slots, y.isFinite = true) (h : AllWithin (2 ^ (485 : ℤ)) a b) :
    (sumFloats (squaredDifferences a b)).isInf = false := by
  have hsquares : ∀ x ∈ squaredDifferences a b, Within 0 (twoPow 970) x := by
    intro x hx
    obtain ⟨i, u, v, hu, hv, hd⟩ := exists_squared_of_mem ha hb hx
    exact ⟨_, hd, squared_nonneg (abs_nonneg _),
      squared_le (by norm_num) (by norm_num) (abs_nonneg _) (h i u v hu hv)⟩
  obtain ⟨s, hs, h0, hle⟩ := within_sumFloats_of_le (by norm_num) (by norm_num) hsquares
  rw [Bool.eq_false_iff, ne_eq, isInf_iff_eq_top hs h0]
  exact ne_top_of_le_ne_top (EReal.coe_ne_top _) hle

theorem isInf_eq_true_of_someBeyond (ha : ∀ x ∈ a.slots, x.isFinite = true)
    (hb : ∀ y ∈ b.slots, y.isFinite = true) (h : SomeBeyond (2 ^ (512 : ℤ)) a b) :
    (sumFloats (squaredDifferences a b)).isInf = true := by
  obtain ⟨i, u, v, hu, hv, hfar⟩ := h
  have hmem : (u - v) * (u - v) ∈ squaredDifferences a b :=
    mem_squaredDifferences_iff.2 ⟨i, u, v, hu, hv, rfl⟩
  have hu' := denotes_value (ha u (List.mem_of_getElem? hu))
  have hv' := denotes_value (hb v (List.mem_of_getElem? hv))
  have hsquare := denotes_square_sub hu' hv'
  rw [squared_eq_top hfar] at hsquare
  obtain ⟨s, hs, h0, -⟩ := within_sumFloats (within_squaredDifferences ha hb)
  rw [isInf_iff_eq_top hs h0]
  exact top_le_iff.1 (le_sumFloats (within_squaredDifferences ha hb) hs hmem hsquare)

/-- Between fingerprints with finite slots the similarity is a number from zero to one.  If they have one
size it is zero exactly if the sum of the squared differences overflows, and at least 2⁻⁵¹³ otherwise:
slots at most 2⁴⁸⁵ apart never make it zero, and two slots that are 2⁵¹² apart always do. -/
theorem similarity_zero_iff_overflow (a b : Fingerprint) (ha : ∀ x ∈ a.slots, x.isFinite = true)
    (hb : ∀ y ∈ b.slots, y.isFinite = true) :
    ((similarity a b).isNaN = false ∧ 0.0 ≤ similarity a b ∧ similarity a b ≤ 1.0) ∧
    (a.size ≠ b.size → similarity a b = 0.0) ∧
    (a.size = b.size →
      ((similarity a b == 0.0) = true ↔ (sumFloats (squaredDifferences a b)).isInf = true) ∧
      ((similarity a b == 0.0) = false → 2 ^ (-513 : ℤ) ≤ value (similarity a b)) ∧
      (AllWithin (2 ^ (485 : ℤ)) a b → 0.0 < similarity a b) ∧
      (SomeBeyond (2 ^ (512 : ℤ)) a b → (similarity a b == 0.0) = true)) := by
  obtain ⟨q, hq, hq0, hq1⟩ := within_similarity_of_squares (within_squaredDifferences ha hb)
  lift q to ℝ using ⟨ne_top_of_le_ne_top (EReal.coe_ne_top 1) hq1,
    ne_bot_of_le_ne_bot EReal.zero_ne_bot hq0⟩
  refine ⟨⟨hq.1, (le_iff_le denotes_zero hq).2 hq0, (le_iff_le hq denotes_one).2 hq1⟩,
    fun h => if_neg h, fun hsize => ?_⟩
  have hzero := similarity_beq_zero_iff hsize ha hb
  have hleast (hinf : (sumFloats (squaredDifferences a b)).isInf = false) : 2 ^ (-513 : ℤ) ≤ q := by
    obtain ⟨r, hr, hle, -⟩ := twoPow_le_similarity hsize ha hb hinf
    rw [← hq.unique hr] at hle
    exact EReal.coe_le_coe_iff.1 hle
  refine ⟨hzero, ?_, ?_, ?_⟩
  · intro hne
    rw [hq.value_eq]
    apply hleast
    rwa [Bool.eq_false_iff, ne_eq, ← hzero, ← ne_eq, ← Bool.eq_false_iff]
  · intro hwithin
    have hpos : 0 < q := lt_of_lt_of_le (by positivity) (hleast (isInf_eq_false_of_allWithin ha hb hwithin))
    exact (lt_iff_lt denotes_zero hq).2 (EReal.coe_pos.2 hpos)
  · intro hfar
    exact hzero.2 (isInf_eq_true_of_someBeyond ha hb hfar)

/-- Two slots of 1e150 are not too far apart for a similarity that is not zero. -/
theorem similarity_zero_iff_overflow_of_great_slots :
    let a : Fingerprint := ⟨[1e150, 0.0]⟩
    let b : Fingerprint := ⟨[0.0, 1e150]⟩
    (similarity a b == 0.0) = false ∧ 2 ^ (-513 : ℤ) ≤ value (similarity a b) := by
  intro a b
  have h := similarity_zero_iff_overflow a b (by decide +kernel) (by decide +kernel)
  obtain ⟨-, hleast, -⟩ := h.2.2 (by decide +kernel)
  have hne : (similarity a b == 0.0) = false := by decide +kernel
  exact ⟨hne, hleast hne⟩

/-- Comparable fingerprints that training and queries admit, and similarity zero all the same. -/
theorem similarity_of_overflowing_distance :
    let a : Fingerprint := ⟨[1e200]⟩
    let b : Fingerprint := ⟨[0.0]⟩
    (∀ x ∈ a.slots ++ b.slots, x.isFinite = true ∧ 0.0 ≤ x) ∧ a.size = b.size ∧
      ¬ 0.0 < similarity a b := by
  decide +kernel

end AsmOrigin
