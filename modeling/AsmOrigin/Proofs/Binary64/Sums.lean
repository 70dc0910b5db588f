import AsmOrigin.Proofs.Binary64.Floats

/-!
Sums of floats that are not negative.

Such a sum is a number and at least each of its terms (`le_sumFloats`).  However many terms there are,
a sum of terms up to 2ᵏ never passes 2ᵏ⁺⁵³: there a term is half a unit of the last place, and the tie
goes to the even neighbour below (`rounded_add_le`).  Sums of greater terms are greater (`sumFloats_mono`).
-/

namespace AsmOrigin.Binary64

variable {x y : Float} {a b : EReal}

/-! ## One addition -/

theorem nearest_ceiling {k : ℤ} (hk : -1075 ≤ k) :
    nearest (2 ^ (k + 53) + 2 ^ k) = 2 ^ (k + 53) := by
  have hp : (0 : ℝ) < 2 ^ k := by positivity
  have hsplit : (2 : ℝ) ^ (k + 53) = 2 ^ 53 * 2 ^ k := by
    rw [add_comm, zpow_add₀ (by norm_num)]
    norm_cast
  have hpos : (0 : ℝ) < 2 ^ (k + 53) + 2 ^ k := by positivity
  have hlog : Int.log 2 ((2 : ℝ) ^ (k + 53) + 2 ^ k) = k + 53 := by
    apply le_antisymm
    · refine Int.lt_add_one_iff.1 ((Int.lt_zpow_iff_log_lt (b := 2) (by norm_num) hpos).1 ?_)
      push_cast
      rw [zpow_add_one₀ (by norm_num), hsplit]
      linarith
    · refine (Int.zpow_le_iff_le_log (b := 2) (by norm_num) hpos).1 ?_
      push_cast
      linarith
  have hplace : lastPlace ((2 : ℝ) ^ (k + 53) + 2 ^ k) = k + 1 := by
    unfold lastPlace
    rw [abs_of_pos hpos, hlog]
    omega
  have hhalf : ((2 : ℝ) ^ (k + 53) + 2 ^ k) / 2 ^ (k + 1) = ((2 ^ 52 : ℤ) : ℝ) + 1 / 2 := by
    rw [hsplit, zpow_add_one₀ (by norm_num), div_eq_iff (by positivity)]
    push_cast
    ring
  unfold nearest nearestOn
  rw [hplace, hhalf, nearestInt_half, hsplit, zpow_add_one₀ (by norm_num)]
  norm_num
  ring

/-- The ceiling of a sum: at 2ᵏ⁺⁵³ a term of up to 2ᵏ is lost. -/
theorem rounded_add_le {k : ℤ} (hk : -1075 ≤ k) (hk' : k < 971)
    (ha : a ≤ twoPow (k + 53)) (hb : b ≤ twoPow k) :
    rounded (a + b) ≤ twoPow (k + 53) := by
  calc rounded (a + b) ≤ rounded ((2 ^ (k + 53) + 2 ^ k : ℝ) : EReal) := by
        refine rounded_mono ?_
        rw [EReal.coe_add]
        exact add_le_add ha hb
    _ = saturated (2 ^ (k + 53)) := by rw [rounded_coe, nearest_ceiling hk]
    _ = twoPow (k + 53) := by
        refine saturated_of_abs_lt ?_
        rw [abs_of_pos (by positivity)]
        exact zpow_lt_limit (by omega)

theorem denotes_add_of_nonneg (hx : Denotes x a) (hy : Denotes y b) (ha : 0 ≤ a) (hb : 0 ≤ b) :
    Denotes (x + y) (rounded (a + b)) :=
  denotes_add hx hy (.inl (ne_bot_of_le_ne_bot (by simp) ha)) (.inr (ne_bot_of_le_ne_bot (by simp) hb))

/-- Neither term of a sum exceeds it. -/
theorem le_rounded_add (hx : Denotes x a) (hb : 0 ≤ b) : a ≤ rounded (a + b) := by
  calc a = rounded a := hx.rounded_eq.symm
    _ ≤ rounded (a + b) := rounded_mono (le_add_of_nonneg_right hb)

/-! ## Whole sums -/

theorem exists_denotes_foldl {acc : Float} (xs : List Float) (ha : Denotes acc a) (h0 : 0 ≤ a)
    (h : ∀ x ∈ xs, Within 0 ⊤ x) :
    ∃ s, Denotes (xs.foldl (· + ·) acc) s ∧ a ≤ s ∧ ∀ x ∈ xs, ∀ b, Denotes x b → b ≤ s := by
  induction xs generalizing acc a with
  | nil => exact ⟨a, ha, le_rfl, by simp⟩
  | cons x r ih =>
    obtain ⟨b, hb, hb0, -⟩ := h x List.mem_cons_self
    have hsum := denotes_add_of_nonneg ha hb h0 hb0
    have has := le_rounded_add ha hb0
    have hbs : b ≤ rounded (a + b) := by
      rw [add_comm]
      exact le_rounded_add hb h0
    obtain ⟨s, hs, hle, hmem⟩ := ih hsum (h0.trans has) fun y hy => h y (List.mem_cons_of_mem x hy)
    refine ⟨s, hs, has.trans hle, fun y hy c hc => ?_⟩
    rcases List.mem_cons.1 hy with rfl | hy
    · rw [hc.unique hb]
      exact hbs.trans hle
    · exact hmem y hy c hc

theorem within_sumFloats {xs : List Float} (h : ∀ x ∈ xs, Within 0 ⊤ x) :
    Within 0 ⊤ (sumFloats xs) := by
  obtain ⟨s, hs, h0, -⟩ := exists_denotes_foldl xs denotes_zero le_rfl h
  exact ⟨s, hs, h0, le_top⟩

/-- No term exceeds the sum. -/
theorem le_sumFloats {xs : List Float} (h : ∀ x ∈ xs, Within 0 ⊤ x) {s : EReal}
    (hs : Denotes (sumFloats xs) s) (hx : x ∈ xs) (ha : Denotes x a) : a ≤ s := by
  obtain ⟨s', hs', -, hmem⟩ := exists_denotes_foldl xs denotes_zero le_rfl h
  rw [hs.unique hs']
  exact hmem x hx a ha

theorem within_foldl_of_le {k : ℤ} (hk : -1075 ≤ k) (hk' : k < 971) {acc : Float} {xs : List Float}
    (hacc : Within 0 (twoPow (k + 53)) acc)
    (h : ∀ x ∈ xs, Within 0 (twoPow k) x) :
    Within 0 (twoPow (k + 53)) (xs.foldl (· + ·) acc) := by
  induction xs generalizing acc with
  | nil => exact hacc
  | cons x r ih =>
    refine ih ?_ fun y hy => h y (List.mem_cons_of_mem x hy)
    obtain ⟨a, ha, ha0, ha1⟩ := hacc
    obtain ⟨b, hb, hb0, hb1⟩ := h x List.mem_cons_self
    exact ⟨_, denotes_add_of_nonneg ha hb ha0 hb0, rounded_nonneg (add_nonneg ha0 hb0),
      rounded_add_le hk hk' ha1 hb1⟩

/-- A sum of any number of terms up to 2ᵏ is at most 2ᵏ⁺⁵³. -/
theorem within_sumFloats_of_le {k : ℤ} (hk : -1075 ≤ k) (hk' : k < 971) {xs : List Float}
    (h : ∀ x ∈ xs, Within 0 (twoPow k) x) :
    Within 0 (twoPow (k + 53)) (sumFloats xs) := by
  refine within_foldl_of_le hk hk' ⟨0, denotes_zero, le_rfl, (twoPow_pos _).le⟩ h

theorem denotes_foldl_zero {acc : Float} {xs : List Float} (hacc : Denotes acc 0)
    (h : ∀ x ∈ xs, Denotes x 0) : Denotes (xs.foldl (· + ·) acc) 0 := by
  induction xs generalizing acc with
  | nil => exact hacc
  | cons x r ih =>
    refine ih ?_ fun y hy => h y (List.mem_cons_of_mem x hy)
    have hsum := denotes_add_of_nonneg hacc (h x List.mem_cons_self) le_rfl le_rfl
    rwa [add_zero, rounded_zero] at hsum

theorem denotes_sumFloats_zero {xs : List Float} (h : ∀ x ∈ xs, Denotes x 0) :
    Denotes (sumFloats xs) 0 := denotes_foldl_zero denotes_zero h

/-! ## Sums of greater terms -/

/-- Numbers that are not negative, the first of them not above the second. -/
def NoGreater (x y : Float) : Prop := ∃ a b, Denotes x a ∧ Denotes y b ∧ 0 ≤ a ∧ a ≤ b

theorem foldl_add_mono {xs ys : List Float} (hacc : NoGreater x y) (h : List.Forall₂ NoGreater xs ys) :
    NoGreater (xs.foldl (· + ·) x) (ys.foldl (· + ·) y) := by
  induction h generalizing x y with
  | nil => exact hacc
  | cons hxy _ ih =>
    apply ih
    obtain ⟨a, b, ha, hb, ha0, hab⟩ := hacc
    obtain ⟨c, d, hc, hd, hc0, hcd⟩ := hxy
    exact ⟨_, _, denotes_add_of_nonneg ha hc ha0 hc0,
      denotes_add_of_nonneg hb hd (ha0.trans hab) (hc0.trans hcd), rounded_nonneg (add_nonneg ha0 hc0),
      rounded_mono (add_le_add hab hcd)⟩

theorem sumFloats_mono {xs ys : List Float} (h : List.Forall₂ NoGreater xs ys) :
    NoGreater (sumFloats xs) (sumFloats ys) :=
  foldl_add_mono ⟨0, 0, denotes_zero, denotes_zero, le_rfl, le_rfl⟩ h

end AsmOrigin.Binary64
