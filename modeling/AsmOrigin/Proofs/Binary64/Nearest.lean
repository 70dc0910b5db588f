import AsmOrigin.Proofs.Binary64.Floats

/-!
Ratios of counts.

Counts up to 2⁵³ are exact, and so are their sums (`sumFloats_map_ofCount`).  The quotient of two such
counts is the float nearest to their ratio: a tie between two floats would take a numerator of more than
53 digits (`isNearest_ofCount_div`).  The quotient depends on the ratio alone, bit for bit
(`ofCount_div_congr`), since a float other than a zero is determined by its number (`eq_of_denotes`).
-/

namespace AsmOrigin.Binary64

open Float.Model Float.Model.UnpackedFloat

variable {x y : Float} {a b : EReal}

/-! ## Which float stands for a number -/

theorem onGrid_zero : OnGrid 0 := ⟨0, 0, by norm_num, by norm_num, by simp⟩

theorem onGrid_neg {r : ℝ} (h : OnGrid r) : OnGrid (-r) := by
  obtain ⟨m, e, hm, he, rfl⟩ := h
  exact ⟨-m, e, by rwa [abs_neg], he, by push_cast; ring⟩

theorem Denotes.onGrid {r : ℝ} (h : Denotes x r) : OnGrid r := by
  obtain ⟨-, hr⟩ := h
  have hc := isCanonical_unpack x.toModel
  generalize x.toModel.unpack = u at hc hr
  have hreal : ∀ {v : ℝ}, ((v : ℝ) : EReal) = r → OnGrid v → OnGrid r := fun hv hg =>
    EReal.coe_eq_coe_iff.1 hv ▸ hg
  cases u with
  | notANumber => exact hreal hr onGrid_zero
  | zero s => exact hreal hr onGrid_zero
  | infinity s => cases s <;> cases hr
  | finite s m e hm =>
    have hg : OnGrid ((m : ℝ) * 2 ^ e) :=
      ⟨m, e, by rw [Nat.abs_cast]; exact_mod_cast hc.lt, hc.least, by push_cast; rfl⟩
    cases s
    · exact hreal hr (onGrid_neg hg)
    · exact hreal hr hg

theorem eq_of_compare_eq {u v : UnpackedFloat} (h : UnpackedFloat.compare u v = some .eq)
    (h0 : extended u ≠ 0) : u = v := by
  have hfinite : ∀ {m n : Nat} {e f : Int}, (Ord.compare e f).then (Ord.compare m n) = .eq →
      m = n ∧ e = f := fun hc => by
    obtain ⟨he, hm⟩ := Ordering.then_eq_eq.1 hc
    exact ⟨compare_eq_iff_eq.1 hm, compare_eq_iff_eq.1 he⟩
  cases u with
  | notANumber => cases h
  | zero s => exact absurd (extended_zero s) h0
  | infinity s =>
    cases v with
    | infinity t => cases s <;> cases t <;> first | rfl | cases h
    | _ => cases s <;> cases h
  | finite s m e hm =>
    cases v with
    | notANumber => cases h
    | zero t => cases s <;> cases h
    | infinity t => cases t <;> cases h
    | finite t n f hn =>
      cases s <;> cases t
      · have hc : ((Ord.compare e f).then (Ord.compare m n)).swap = .eq := Option.some.inj h
        obtain ⟨rfl, rfl⟩ := hfinite (Ordering.swap_eq_eq.1 hc)
        rfl
      · cases h
      · cases h
      · obtain ⟨rfl, rfl⟩ := hfinite (Option.some.inj h)
        rfl

/-- A number other than zero comes from one float only. -/
theorem eq_of_denotes (hx : Denotes x a) (hy : Denotes y a) (h0 : a ≠ 0) : x = y := by
  have hcompare := hx.compare_eq hy
  rw [cmp_self_eq_eq] at hcompare
  have hunpack := eq_of_compare_eq hcompare (hx.2 ▸ h0)
  obtain ⟨x⟩ := x
  obtain ⟨y⟩ := y
  rw [← pack_unpack x, ← pack_unpack y]
  exact congrArg (fun u => Float.ofModel (Float.Model.pack u)) hunpack

/-! ## The nearest float -/

theorem abs_nearestInt_sub_lt_half {z : ℝ} (h : Int.fract z ≠ 1 / 2) :
    |(nearestInt z : ℝ) - z| < 1 / 2 := by
  have hsplit := Int.floor_add_fract z
  have hnonneg := Int.fract_nonneg z
  have hlt := Int.fract_lt_one z
  rcases lt_or_gt_of_ne h with h | h
  · rw [nearestInt, if_pos h, abs_lt]
    constructor <;> linarith
  · rw [nearestInt, if_neg h.not_gt, if_pos h, abs_lt]
    push_cast
    constructor <;> linarith

theorem abs_nearestInt_sub_le_half (z : ℝ) : |(nearestInt z : ℝ) - z| ≤ 1 / 2 := by
  by_cases h : Int.fract z = 1 / 2
  · have hz : z = (⌊z⌋ : ℝ) + 1 / 2 := by
      rw [← h, Int.floor_add_fract]
    have hint : nearestInt z = ⌊z⌋ + ⌊z⌋ % 2 := by
      conv_lhs => rw [hz]
      exact nearestInt_half ⌊z⌋
    have hparity : ⌊z⌋ % 2 = 0 ∨ ⌊z⌋ % 2 = 1 := by omega
    rw [hint, abs_le]
    rcases hparity with h | h
    · rw [h]
      push_cast
      constructor <;> linarith
    · rw [h]
      push_cast
      constructor <;> linarith
  · exact (abs_nearestInt_sub_lt_half h).le

theorem one_le_abs_sub_add {z : ℝ} {n : ℤ} (hn : n ≠ nearestInt z) :
    1 ≤ |(n : ℝ) - z| + |(nearestInt z : ℝ) - z| := by
  have hone : (1 : ℝ) ≤ |(n : ℝ) - nearestInt z| := by
    exact_mod_cast Int.one_le_abs (sub_ne_zero.2 hn)
  have htri : |(n : ℝ) - nearestInt z| ≤ |(n : ℝ) - z| + |z - nearestInt z| := abs_sub_le _ _ _
  rw [abs_sub_comm z] at htri
  exact hone.trans htri

/-- Every other integer is further away, unless there is a tie. -/
theorem abs_nearestInt_sub_lt {z : ℝ} (h : Int.fract z ≠ 1 / 2) {n : ℤ} (hn : n ≠ nearestInt z) :
    |(nearestInt z : ℝ) - z| < |(n : ℝ) - z| := by
  have hhalf := abs_nearestInt_sub_lt_half h
  have hone := one_le_abs_sub_add hn
  linarith

theorem abs_nearestInt_sub_le (z : ℝ) (n : ℤ) : |(nearestInt z : ℝ) - z| ≤ |(n : ℝ) - z| := by
  by_cases hn : n = nearestInt z
  · rw [hn]
  · have hhalf := abs_nearestInt_sub_le_half z
    have hone := one_le_abs_sub_add hn
    linarith

theorem abs_mul_zpow_sub (m t : ℤ) (q : ℝ) :
    |(m : ℝ) * 2 ^ t - q| = |(m : ℝ) - q / 2 ^ t| * 2 ^ t := by
  have hp : (0 : ℝ) < 2 ^ t := by positivity
  rw [← abs_of_pos hp, ← abs_mul, abs_of_pos hp, sub_mul, div_mul_cancel₀ _ hp.ne']

theorem abs_nearest_sub (q : ℝ) :
    |nearest q - q| = |(nearestInt (q / 2 ^ lastPlace q) : ℝ) - q / 2 ^ lastPlace q| * 2 ^ lastPlace q :=
  abs_mul_zpow_sub (nearestInt (q / 2 ^ lastPlace q)) (lastPlace q) q

/-- Half a unit of the last place. -/
theorem abs_nearest_sub_le_half (q : ℝ) : |nearest q - q| ≤ 2 ^ (lastPlace q - 1) := by
  rw [abs_nearest_sub, zpow_sub_one₀ (by norm_num), mul_comm, ← one_div]
  exact mul_le_mul_of_nonneg_left (abs_nearestInt_sub_le_half _) (by positivity)

theorem abs_nearest_sub_le_multiple (q : ℝ) (n : ℤ) :
    |nearest q - q| ≤ |(n : ℝ) * 2 ^ lastPlace q - q| := by
  rw [abs_nearest_sub, abs_mul_zpow_sub]
  exact mul_le_mul_of_nonneg_right (abs_nearestInt_sub_le _ n) (by positivity)

/-- Numbers of a finer grid lie below the least one that has this last place. -/
theorem finer_lt {m : ℤ} {e t : ℤ} (hm : |m| < 2 ^ 53) (he : e < t) :
    (m : ℝ) * 2 ^ e < 2 ^ (52 : ℤ) * 2 ^ t := by
  calc (m : ℝ) * 2 ^ e < 2 ^ (53 : ℤ) * 2 ^ e := by
        refine mul_lt_mul_of_pos_right ?_ (by positivity)
        exact_mod_cast (abs_lt.1 hm).2
    _ = 2 ^ (53 + e) := (zpow_add₀ (by norm_num) _ _).symm
    _ ≤ 2 ^ (52 + t) := zpow_le_zpow_right₀ (by norm_num) (by omega)
    _ = 2 ^ (52 : ℤ) * 2 ^ t := zpow_add₀ (by norm_num) _ _

theorem le_of_log_eq {q : ℝ} (hq : 0 < q) {t : ℤ} (hlog : Int.log 2 q = 52 + t) :
    (2 : ℝ) ^ (52 : ℤ) * 2 ^ t ≤ q := by
  have h := Int.zpow_log_le_self (b := 2) (by norm_num) hq
  rw [hlog] at h
  rw [← zpow_add₀ (by norm_num)]
  exact_mod_cast h

/-- A number of the format is a multiple of the last place of `q`, or further away than the least number
with that last place. -/
theorem multiple_or_lt_abs_sub {q s : ℝ} (hq : 0 < q) (hs : OnGrid s) :
    (∃ n : ℤ, s = n * 2 ^ lastPlace q) ∨
      |((2 ^ 52 : ℤ) : ℝ) * 2 ^ lastPlace q - q| < |s - q| := by
  obtain ⟨t, ht⟩ : ∃ t, t = lastPlace q := ⟨_, rfl⟩
  obtain ⟨m, e, hm, he, rfl⟩ := hs
  rw [← ht]
  by_cases hte : t ≤ e
  · exact .inl ⟨_, mul_zpow_eq_of_le hte m⟩
  · right
    have hlog : Int.log 2 q = 52 + t := by
      rw [ht, lastPlace, abs_of_pos hq] at hte ⊢
      omega
    have hle : ((2 ^ 52 : ℤ) : ℝ) * 2 ^ t ≤ q := by
      exact_mod_cast le_of_log_eq hq hlog
    have hfine : (m : ℝ) * 2 ^ e < ((2 ^ 52 : ℤ) : ℝ) * 2 ^ t := by
      exact_mod_cast finer_lt hm (not_le.1 hte)
    rw [abs_of_nonpos (sub_nonpos.2 hle), abs_of_neg (sub_neg.2 (hfine.trans_le hle))]
    linarith

/-- No number of the format is nearer. -/
theorem abs_nearest_sub_le {q s : ℝ} (hq : 0 ≤ q) (hs : OnGrid s) : |nearest q - q| ≤ |s - q| := by
  rcases hq.eq_or_lt with rfl | hq
  · rw [nearest_zero, sub_zero, abs_zero]
    exact abs_nonneg _
  · rcases multiple_or_lt_abs_sub hq hs with ⟨n, rfl⟩ | hfar
    · exact abs_nearest_sub_le_multiple q n
    · exact (abs_nearest_sub_le_multiple q (2 ^ 52)).trans hfar.le

/-- Every other number of the format is further away, unless there is a tie in the last place. -/
theorem abs_nearest_sub_lt {q s : ℝ} (hq : 0 < q) (hfract : Int.fract (q / 2 ^ lastPlace q) ≠ 1 / 2)
    (hs : OnGrid s) (hne : s ≠ nearest q) : |nearest q - q| < |s - q| := by
  rcases multiple_or_lt_abs_sub hq hs with ⟨n, rfl⟩ | hfar
  · have hn : n ≠ nearestInt (q / 2 ^ lastPlace q) := by
      rintro rfl
      exact hne rfl
    rw [abs_nearest_sub, abs_mul_zpow_sub]
    exact mul_lt_mul_of_pos_right (abs_nearestInt_sub_lt hfract hn) (by positivity)
  · exact (abs_nearest_sub_le_multiple q (2 ^ 52)).trans_lt hfar

/-- Every float that stands for another number is further away from the real. -/
def IsNearest (x : Float) (q : ℝ) : Prop :=
  ∃ r : ℝ, Denotes x r ∧ ∀ y (s : ℝ), Denotes y s → s ≠ r → |r - q| < |s - q|

theorem isNearest_of_denotes_rounded {q : ℝ} (hx : Denotes x (rounded q)) (hq : 0 < q)
    (hlimit : nearest q < limit) (hfract : Int.fract (q / 2 ^ lastPlace q) ≠ 1 / 2) :
    IsNearest x q := by
  rw [rounded_coe, saturated_of_abs_lt (by rwa [abs_of_nonneg (nearest_nonneg hq.le)])] at hx
  exact ⟨nearest q, hx, fun y s hy hne => abs_nearest_sub_lt hq hfract hy.onGrid hne⟩

/-! ## Counts -/

theorem onGrid_natCast {n : Nat} (h : n ≤ 2 ^ 53) : OnGrid n := by
  rcases h.lt_or_eq with h | rfl
  · exact_mod_cast onGrid_intCast (m := (n : ℤ)) (by rw [Nat.abs_cast]; exact_mod_cast h)
  · exact_mod_cast onGrid_zpow (e := 53) (by norm_num)

theorem natCast_lt_limit {n : Nat} (h : n ≤ 2 ^ 53) : (n : ℝ) < limit := by
  refine lt_of_le_of_lt ?_ (zpow_lt_limit (e := 53) (by norm_num))
  exact_mod_cast h

theorem denotes_ofCount_of_le {n : Nat} (h : n ≤ 2 ^ 53) : Denotes (ofCount n) (n : ℝ) := by
  have hn := denotes_ofCount n
  rwa [rounded_of_onGrid (onGrid_natCast h)] at hn
  rw [Nat.abs_cast]
  exact natCast_lt_limit h

theorem ofCount_add {m n : Nat} (h : m + n ≤ 2 ^ 53) : ofCount m + ofCount n = ofCount (m + n) := by
  rcases Nat.eq_zero_or_pos (m + n) with h0 | hpos
  · obtain ⟨rfl, rfl⟩ := Nat.add_eq_zero_iff.1 h0
    decide
  · have hm := denotes_ofCount_of_le (n := m) (by omega)
    have hn := denotes_ofCount_of_le (n := n) (by omega)
    have hmn := denotes_ofCount_of_le h
    have hsum := denotes_add hm hn (.inl (EReal.coe_ne_bot _)) (.inl (EReal.coe_ne_top _))
    rw [← EReal.coe_add, ← Nat.cast_add, hmn.rounded_eq] at hsum
    refine eq_of_denotes hsum hmn ?_
    exact_mod_cast (Nat.cast_pos (α := ℝ)).2 hpos |>.ne'

theorem foldl_add_map_ofCount {k : Nat} {ns : List Nat} (h : k + ns.sum ≤ 2 ^ 53) :
    (ns.map ofCount).foldl (· + ·) (ofCount k) = ofCount (k + ns.sum) := by
  induction ns generalizing k with
  | nil => rfl
  | cons n r ih =>
    rw [List.sum_cons, ← Nat.add_assoc] at h ⊢
    rw [List.map_cons, List.foldl_cons, ofCount_add (by omega), ih h]

/-- Every partial sum of counts is exact. -/
theorem sumFloats_map_ofCount {ns : List Nat} (h : ns.sum ≤ 2 ^ 53) :
    sumFloats (ns.map ofCount) = ofCount ns.sum := by
  have hsum := foldl_add_map_ofCount (k := 0) (by rwa [Nat.zero_add])
  rwa [Nat.zero_add, show ofCount 0 = 0.0 by decide] at hsum

/-! ## Their ratios -/

variable {s n : Nat}

theorem denotes_ofCount_div (hs : s ≤ 2 ^ 53) (hn0 : 0 < n) (hn : n ≤ 2 ^ 53) :
    Denotes (ofCount s / ofCount n) (rounded ((s / n : ℝ) : EReal)) := by
  have h0 : ((n : ℝ) : EReal) ≠ 0 := by exact_mod_cast (Nat.cast_pos (α := ℝ)).2 hn0 |>.ne'
  exact denotes_div (denotes_ofCount_of_le hs) (denotes_ofCount_of_le hn) h0
    (.inl ⟨EReal.coe_ne_top _, EReal.coe_ne_bot _⟩)

theorem zpow_neg_le_ratio (hs0 : 0 < s) (hn0 : 0 < n) (hn : n ≤ 2 ^ 53) :
    (2 : ℝ) ^ (-53 : ℤ) ≤ s / n := by
  have hn0 : (0 : ℝ) < n := by exact_mod_cast hn0
  have hn : (n : ℝ) ≤ 2 ^ 53 := by exact_mod_cast hn
  have hs0 : (1 : ℝ) ≤ s := by exact_mod_cast hs0
  rw [le_div_iff₀ hn0, zpow_neg, inv_mul_le_iff₀ (by positivity)]
  norm_cast at hn hs0 ⊢
  nlinarith

/-- Half a unit in some last place takes an odd divisor of the numerator. -/
theorem dvd_of_ratio_eq {t k : ℤ} (hn0 : 0 < n) (h : (k : ℝ) + 1 / 2 = (s / n : ℝ) / 2 ^ t) :
    2 * k + 1 ∣ (s : ℤ) := by
  have hn0 : (n : ℝ) ≠ 0 := by exact_mod_cast hn0.ne'
  have hp : (2 : ℝ) ^ t ≠ 0 := by positivity
  have hsplit : (2 : ℝ) ^ t * 2 ^ (-t).toNat = 2 ^ t.toNat := by
    rw [← zpow_natCast, ← zpow_natCast, ← zpow_add₀ (by norm_num)]
    congr 1
    omega
  have hcleared : (s : ℝ) * 2 ^ ((-t).toNat + 1) = (2 * k + 1) * (n * 2 ^ t.toNat) := by
    rw [eq_div_iff hp, eq_div_iff hn0] at h
    rw [← h, ← hsplit, pow_succ]
    ring
  have heq : (s : ℤ) * 2 ^ ((-t).toNat + 1) = (2 * k + 1) * (n * 2 ^ t.toNat) := by
    exact_mod_cast hcleared
  have hcoprime : IsCoprime (2 * k + 1) ((2 : ℤ) ^ ((-t).toNat + 1)) :=
    IsCoprime.pow_right ⟨1, -k, by ring⟩
  exact hcoprime.dvd_of_dvd_mul_right ⟨_, heq⟩

/-- Half a unit in the last place of a ratio would take a numerator of more than 53 digits. -/
theorem fract_ratio_ne_half (hs0 : 0 < s) (hs : s ≤ 2 ^ 53) (hn0 : 0 < n) (hn : n ≤ 2 ^ 53) :
    Int.fract ((s / n : ℝ) / 2 ^ lastPlace (s / n : ℝ)) ≠ 1 / 2 := by
  have hq : (0 : ℝ) < s / n := div_pos (by exact_mod_cast hs0) (by exact_mod_cast hn0)
  have hlog : (-53 : ℤ) ≤ Int.log 2 (s / n : ℝ) := by
    refine (Int.zpow_le_iff_le_log (b := 2) (by norm_num) hq).1 ?_
    exact_mod_cast zpow_neg_le_ratio hs0 hn0 hn
  obtain ⟨t, ht⟩ : ∃ t, t = lastPlace (s / n : ℝ) := ⟨_, rfl⟩
  have hlast : Int.log 2 (s / n : ℝ) = 52 + t := by
    rw [ht, lastPlace, abs_of_pos hq]
    omega
  have hk52 : 2 ^ 52 ≤ ⌊(s / n : ℝ) / 2 ^ t⌋ := by
    rw [Int.le_floor, le_div_iff₀ (by positivity)]
    exact_mod_cast le_of_log_eq hq hlast
  rw [← ht]
  intro hfract
  have hsplit := Int.floor_add_fract ((s / n : ℝ) / 2 ^ t)
  rw [hfract] at hsplit
  -- an odd number above 2⁵³ would divide the numerator
  have hle := Int.le_of_dvd (by exact_mod_cast hs0) (dvd_of_ratio_eq hn0 hsplit)
  omega

/-- The quotient of two counts is the float nearest to their ratio. -/
theorem isNearest_ofCount_div (hs : s ≤ 2 ^ 53) (hn0 : 0 < n) (hn : n ≤ 2 ^ 53) :
    IsNearest (ofCount s / ofCount n) (s / n) := by
  have hdiv := denotes_ofCount_div hs hn0 hn
  rcases Nat.eq_zero_or_pos s with rfl | hs0
  · rw [Nat.cast_zero, zero_div] at hdiv ⊢
    rw [EReal.coe_zero, rounded_zero, ← EReal.coe_zero] at hdiv
    refine ⟨0, hdiv, fun y r _ hr => ?_⟩
    rwa [sub_zero, abs_zero, sub_zero, abs_pos]
  · have hq : (0 : ℝ) < s / n := div_pos (by exact_mod_cast hs0) (by exact_mod_cast hn0)
    have hle : (s / n : ℝ) ≤ s := div_le_self (Nat.cast_nonneg s) (by exact_mod_cast hn0)
    refine isNearest_of_denotes_rounded hdiv hq ?_ (fract_ratio_ne_half hs0 hs hn0 hn)
    calc nearest (s / n : ℝ) ≤ nearest s := nearest_mono hle
      _ = s := nearest_of_onGrid (onGrid_natCast hs)
      _ < limit := natCast_lt_limit hs

/-- Between two counts that the ratio lies between. -/
theorem ofCount_le_ofCount_div {lo : Nat} (hlo : lo ≤ 2 ^ 53) (hs : s ≤ 2 ^ 53) (hn0 : 0 < n)
    (hn : n ≤ 2 ^ 53) (h : lo * n ≤ s) : ofCount lo ≤ ofCount s / ofCount n := by
  have hdenotes := denotes_ofCount_of_le hlo
  refine (le_iff_le hdenotes (denotes_ofCount_div hs hn0 hn)).2 ?_
  rw [← hdenotes.rounded_eq]
  refine rounded_mono (EReal.coe_le_coe_iff.2 ?_)
  rw [le_div_iff₀ (by exact_mod_cast hn0)]
  exact_mod_cast h

theorem ofCount_div_le_ofCount {hi : Nat} (hhi : hi ≤ 2 ^ 53) (hs : s ≤ 2 ^ 53) (hn0 : 0 < n)
    (hn : n ≤ 2 ^ 53) (h : s ≤ hi * n) : ofCount s / ofCount n ≤ ofCount hi := by
  have hdenotes := denotes_ofCount_of_le hhi
  refine (le_iff_le (denotes_ofCount_div hs hn0 hn) hdenotes).2 ?_
  rw [← hdenotes.rounded_eq]
  refine rounded_mono (EReal.coe_le_coe_iff.2 ?_)
  rw [div_le_iff₀ (by exact_mod_cast hn0)]
  exact_mod_cast h

/-- A quotient with the positive zero above and a positive number below is the positive zero. -/
theorem zero_div_of_pos {r : ℝ} (hx : Denotes x r) (hr : 0 < r) : 0.0 / x = 0.0 := by
  obtain ⟨-, hx⟩ := hx
  show Float.ofModel (Float.Model.pack (UnpackedFloat.div Format.binary64
    (0.0 : Float).toModel.unpack x.toModel.unpack)) = 0.0
  have hzero : (0.0 : Float).toModel.unpack = .zero .positive := by
    rw [show (0.0 : Float) = .ofModel (Float.Model.pack (.zero .positive)) by decide]
    exact unpack_pack (u := .zero .positive) trivial
  rw [hzero]
  generalize x.toModel.unpack = u at hx
  cases u with
  | notANumber => exact absurd (EReal.coe_eq_coe_iff.1 hx) hr.ne
  | zero s => exact absurd (EReal.coe_eq_coe_iff.1 ((extended_zero s).symm.trans hx)) hr.ne
  | infinity s => cases s <;> cases hx
  | finite s m e hm =>
    cases s with
    | negative =>
      have hpos : (0 : ℝ) < m * 2 ^ e := by positivity
      have hneg : -((m : ℝ) * 2 ^ e) = r := EReal.coe_eq_coe_iff.1 hx
      linarith
    | positive => rfl

/-- Equal ratios give equal quotients, bit for bit. -/
theorem ofCount_div_congr {s' n' : Nat} (hs : s ≤ 2 ^ 53) (hn0 : 0 < n) (hn : n ≤ 2 ^ 53)
    (hs' : s' ≤ 2 ^ 53) (hn0' : 0 < n') (hn' : n' ≤ 2 ^ 53) (h : s * n' = s' * n) :
    ofCount s / ofCount n = ofCount s' / ofCount n' := by
  have hpos : (0 : ℝ) < n := by exact_mod_cast hn0
  have hpos' : (0 : ℝ) < n' := by exact_mod_cast hn0'
  rcases Nat.eq_zero_or_pos s with rfl | hs0
  · obtain rfl : s' = 0 := by
      rw [Nat.zero_mul] at h
      exact (Nat.mul_eq_zero.1 h.symm).resolve_right hn0.ne'
    rw [show ofCount 0 = 0.0 by decide, zero_div_of_pos (denotes_ofCount_of_le hn) hpos,
      zero_div_of_pos (denotes_ofCount_of_le hn') hpos']
  · have hratio : (s / n : ℝ) = s' / n' := by
      rw [div_eq_div_iff hpos.ne' hpos'.ne']
      exact_mod_cast h
    have hdiv := denotes_ofCount_div hs hn0 hn
    refine eq_of_denotes hdiv (hratio ▸ denotes_ofCount_div hs' hn0' hn') (ne_of_gt ?_)
    calc 0 < twoPow (-53) := twoPow_pos _
      _ = rounded (twoPow (-53)) := (rounded_twoPow (by norm_num) (by norm_num)).symm
      _ ≤ rounded ((s / n : ℝ) : EReal) :=
        rounded_mono (EReal.coe_le_coe_iff.2 (zpow_neg_le_ratio hs0 hn0 hn))

end AsmOrigin.Binary64
