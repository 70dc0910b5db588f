import AsmOrigin.Proofs.Binary64.Sums
import AsmOrigin.Proofs.Counts
import AsmOrigin.Proofs.Training.Runs

/-!
Bounds on means.

The mean of admissible values is a number that is not negative, and it is infinite only if the sum is
(`within_slotMean`).  If the values are bounded, so is their mean, however many there are.
-/

namespace AsmOrigin

open Binary64

variable {x : Float} {s : EReal}

theorem isInf_iff (hx : Denotes x s) : x.isInf = true ↔ s = ⊤ ∨ s = ⊥ := by
  have h : x.isFinite = (!x.isNaN && !x.isInf) := isFinite_eq x
  rw [hx.1, Bool.not_false, Bool.true_and] at h
  have hf := isFinite_iff hx
  rw [h] at hf
  induction s with
  | bot => simpa using hf
  | top => simpa using hf
  | coe r => simpa using hf

theorem isInf_iff_eq_top (hx : Denotes x s) (h0 : 0 ≤ s) : x.isInf = true ↔ s = ⊤ := by
  rw [isInf_iff hx, or_iff_left]
  rintro rfl
  exact absurd h0 (by simp)

theorem within_of_not_isBad (h : ¬ IsBad x) : Within 0 ⊤ x := by
  unfold IsBad at h
  push Not at h
  obtain ⟨hn, -, hneg⟩ := h
  obtain ⟨a, ha⟩ := exists_denotes (Bool.eq_false_iff.2 hn)
  exact ⟨a, ha, not_lt.1 (mt (lt_iff_lt ha denotes_zero).2 hneg), le_top⟩

theorem ofCount_ne_top {n : Nat} (h64 : n < 2 ^ 64) {b : EReal} (hb : Denotes (ofCount n) b) :
    b ≠ ⊤ := by
  have hle : (n : ℝ) ≤ 2 ^ (64 : ℤ) := by exact_mod_cast h64.le
  obtain ⟨b', hb', -, hb64⟩ := within_ofCount hle (by norm_num) (by norm_num)
  obtain rfl := hb.unique hb'
  exact ne_top_of_le_ne_top (EReal.coe_ne_top _) hb64

theorem one_le_rounded_natCast {n : Nat} (h0 : n ≠ 0) : 1 ≤ rounded ((n : ℝ) : EReal) := by
  have h1 : (1 : ℝ) ≤ n := by exact_mod_cast Nat.one_le_iff_ne_zero.2 h0
  rw [← rounded_one]
  exact rounded_mono (EReal.coe_le_coe_iff.2 h1)

/-- Dividing by a number of samples.  The dividend and the number must not both be infinite. -/
theorem denotes_div_ofCount {n : Nat} (h0 : n ≠ 0) (h : s ≠ ⊤ ∨ n < 2 ^ 64) (hx : Denotes x s)
    (hs : 0 ≤ s) : Denotes (x / ofCount n) (rounded (s / rounded ((n : ℝ) : EReal))) := by
  have hb := denotes_ofCount n
  have hb1 := one_le_rounded_natCast h0
  generalize rounded ((n : ℝ) : EReal) = b at hb hb1
  have hpos : 0 < b := zero_lt_one.trans_le hb1
  have hsbot : s ≠ ⊥ := ne_bot_of_le_ne_bot EReal.zero_ne_bot hs
  have hbbot : b ≠ ⊥ := ne_bot_of_le_ne_bot EReal.zero_ne_bot hpos.le
  exact denotes_div hx hb hpos.ne' <| h.imp (fun htop => ⟨htop, hsbot⟩)
    (fun h64 => ⟨ofCount_ne_top h64 hb, hbbot⟩)

/-- Dividing by a number of samples keeps a value that is not negative, and does not enlarge it. -/
theorem within_div_ofCount {n : Nat} (h0 : n ≠ 0) (h : s ≠ ⊤ ∨ n < 2 ^ 64) (hx : Denotes x s)
    (hs : 0 ≤ s) : Within 0 s (x / ofCount n) := by
  have hdiv := denotes_div_ofCount h0 h hx hs
  have hb1 := one_le_rounded_natCast h0
  generalize rounded ((n : ℝ) : EReal) = b at hdiv hb1
  have hpos : 0 < b := zero_lt_one.trans_le hb1
  refine within_of_denotes_rounded hdiv rounded_zero hx.rounded_eq (EReal.div_nonneg hs hpos.le) ?_
  rcases eq_or_ne b ⊤ with rfl | htop
  · rw [EReal.div_top]
    exact hs
  · rw [EReal.div_le_iff_le_mul hpos htop]
    calc s = 1 * s := (one_mul s).symm
      _ ≤ b * s := mul_le_mul_of_nonneg_right hb1 hs

variable {members : List Fingerprint} {slot : Nat}

theorem forall_column {p : Float → Prop} (h : ∀ f ∈ members, ∀ x ∈ f.slots, p x) (slot : Nat) :
    ∀ x ∈ members.filterMap (·.slots[slot]?), p x := by
  intro x hx
  obtain ⟨f, hf, hfx⟩ := List.mem_filterMap.1 hx
  exact h f hf x (List.mem_of_getElem? hfx)

/-- The mean of admissible values is not negative, and finite if their sum is. -/
theorem within_slotMean (hne : members ≠ []) (hlen : members.length < 2 ^ 64)
    (h : ∀ f ∈ members, ∀ x ∈ f.slots, ¬ IsBad x) (slot : Nat) :
    Within 0 ⊤ (slotMean members slot) ∧ ((slotMean members slot).isInf = true →
      (sumFloats (members.filterMap (·.slots[slot]?))).isInf = true) := by
  obtain ⟨s, hs, hs0, -⟩ := within_sumFloats
    (forall_column (fun f hf x hx => within_of_not_isBad (h f hf x hx)) slot)
  obtain ⟨q, hq, hq0, hqs⟩ := within_div_ofCount (mt List.length_eq_zero_iff.1 hne) (.inr hlen) hs hs0
  refine ⟨⟨q, hq, hq0, le_top⟩, fun hinf => (isInf_iff hs).2 (.inl ?_)⟩
  rcases (isInf_iff hq).1 hinf with rfl | rfl
  · exact top_le_iff.1 hqs
  · exact absurd hq0 (by simp)

/-- The mean of any number of values up to 2ᵏ is at most 2ᵏ⁺⁵³. -/
theorem within_slotMean_of_le {k : ℤ} (hk : -1075 ≤ k) (hk' : k < 971) (hne : members ≠ [])
    (h : ∀ f ∈ members, ∀ x ∈ f.slots, Within 0 (twoPow k) x) (slot : Nat) :
    Within 0 (twoPow (k + 53)) (slotMean members slot) := by
  obtain ⟨s, hs, hs0, hsk⟩ := within_sumFloats_of_le hk hk' (forall_column h slot)
  have htop : s ≠ ⊤ := ne_top_of_le_ne_top (EReal.coe_ne_top _) hsk
  exact (within_div_ofCount (mt List.length_eq_zero_iff.1 hne) (.inl htop) hs hs0).mono le_rfl hsk

end AsmOrigin
