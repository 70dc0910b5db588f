import Mathlib

/-!
Rounding of real numbers to 53 binary digits, with a last place of 2⁻¹⁰⁷⁴ at the least.

`nearest` rounds to the nearest point of the grid that belongs to the size of its argument, a tie to the
even multiple.  It is monotone (`nearest_mono`), odd (`nearest_neg`) and keeps every point of a grid
(`nearest_of_onGrid`), which is all that the rest of the theory asks of it.  `rounded` extends it to the
infinities, where what reaches 2¹⁰²⁴ goes (`rounded_mono`).  Which number a mantissa and a float of the
float model stand for is told by `Describes` and `realOf`.
-/

namespace AsmOrigin.Binary64

/-! ## Integers -/

/-- The integer nearest to a real; of two equally near ones the even one. -/
noncomputable def nearestInt (x : ℝ) : ℤ :=
  if Int.fract x < 1 / 2 then ⌊x⌋
  else if 1 / 2 < Int.fract x then ⌊x⌋ + 1
  else if Even ⌊x⌋ then ⌊x⌋ else ⌊x⌋ + 1

theorem nearestInt_intCast (n : ℤ) : nearestInt n = n := by
  simp [nearestInt]

theorem floor_le_nearestInt (x : ℝ) : ⌊x⌋ ≤ nearestInt x := by
  unfold nearestInt
  split_ifs <;> omega

theorem nearestInt_le_floor_add_one (x : ℝ) : nearestInt x ≤ ⌊x⌋ + 1 := by
  unfold nearestInt
  split_ifs <;> omega

theorem nearestInt_mono {x y : ℝ} (h : x ≤ y) : nearestInt x ≤ nearestInt y := by
  rcases (Int.floor_le_floor h).lt_or_eq with hlt | heq
  · have hx := nearestInt_le_floor_add_one x
    have hy := floor_le_nearestInt y
    omega
  · have hf : Int.fract x ≤ Int.fract y := by
      unfold Int.fract
      rw [heq]
      linarith
    unfold nearestInt
    rw [heq]
    split_ifs <;> first | omega | linarith

/-- Within one unit the nearest integer is decided by which half the number lies in. -/
theorem nearestInt_eq_of_lt_half {x : ℝ} {n : ℤ} (h₁ : (n : ℝ) ≤ x) (h₂ : x < n + 1 / 2) :
    nearestInt x = n := by
  have hf : ⌊x⌋ = n := Int.floor_eq_iff.2 ⟨h₁, by linarith⟩
  have hr : Int.fract x < 1 / 2 := by
    unfold Int.fract
    rw [hf]
    linarith
  rw [nearestInt, if_pos hr, hf]

theorem nearestInt_eq_of_half_lt {x : ℝ} {n : ℤ} (h₁ : (n : ℝ) + 1 / 2 < x) (h₂ : x < n + 1) :
    nearestInt x = n + 1 := by
  have hf : ⌊x⌋ = n := Int.floor_eq_iff.2 ⟨by linarith, h₂⟩
  have hr : 1 / 2 < Int.fract x := by
    unfold Int.fract
    rw [hf]
    linarith
  unfold nearestInt
  rw [if_neg (by linarith), if_pos hr, hf]

theorem nearestInt_half (n : ℤ) : nearestInt (n + 1 / 2) = n + n % 2 := by
  have hf : ⌊(n : ℝ) + 1 / 2⌋ = n := Int.floor_eq_iff.2 ⟨by linarith, by linarith⟩
  have hr : Int.fract ((n : ℝ) + 1 / 2) = 1 / 2 := by
    unfold Int.fract
    rw [hf]
    ring
  unfold nearestInt
  rw [hr, hf, if_neg (lt_irrefl _), if_neg (lt_irrefl _)]
  split_ifs with he
  · have := Int.even_iff.1 he
    omega
  · have := Int.not_even_iff.1 he
    omega

theorem nearestInt_neg (x : ℝ) : nearestInt (-x) = -nearestInt x := by
  have h₁ := Int.floor_le x
  have h₂ := Int.lt_floor_add_one x
  rcases lt_trichotomy x (⌊x⌋ + 1 / 2) with h | h | h
  · rw [nearestInt_eq_of_lt_half h₁ h]
    rcases h₁.lt_or_eq with h₁ | h₁
    · rw [nearestInt_eq_of_half_lt (n := -⌊x⌋ - 1) (by push_cast; linarith) (by push_cast; linarith)]
      ring
    · rw [← h₁, ← Int.cast_neg, nearestInt_intCast, Int.floor_intCast]
  · have hx : -x = ((-⌊x⌋ - 1 : ℤ) : ℝ) + 1 / 2 := by
      push_cast
      linarith
    rw [hx, nearestInt_half]
    conv_rhs => rw [h, nearestInt_half]
    omega
  · rw [nearestInt_eq_of_half_lt h h₂]
    rw [nearestInt_eq_of_lt_half (n := -⌊x⌋ - 1) (by push_cast; linarith) (by push_cast; linarith)]
    ring

/-! ## One grid -/

/-- The nearest multiple of 2ᵉ. -/
noncomputable def nearestOn (e : ℤ) (x : ℝ) : ℝ := nearestInt (x / 2 ^ e) * 2 ^ e

theorem nearestOn_mono (e : ℤ) {x y : ℝ} (h : x ≤ y) : nearestOn e x ≤ nearestOn e y := by
  have hp : (0 : ℝ) < 2 ^ e := by positivity
  have := nearestInt_mono (div_le_div_of_nonneg_right h hp.le)
  exact mul_le_mul_of_nonneg_right (by exact_mod_cast this) hp.le

theorem nearestOn_mul (e m : ℤ) : nearestOn e (m * 2 ^ e) = m * 2 ^ e := by
  have hp : (2 : ℝ) ^ e ≠ 0 := by positivity
  rw [nearestOn, mul_div_assoc, div_self hp, mul_one, nearestInt_intCast]

/-- A multiple of a coarser power of two is a multiple of a finer one. -/
theorem mul_zpow_eq_of_le {e f : ℤ} (h : e ≤ f) (m : ℤ) :
    (m : ℝ) * 2 ^ f = ((m * 2 ^ (f - e).toNat : ℤ) : ℝ) * 2 ^ e := by
  have hf : f = (f - e).toNat + e := by omega
  conv_lhs => rw [hf, zpow_add₀ (by norm_num), zpow_natCast]
  push_cast
  ring

theorem nearestOn_mul_of_le {e f : ℤ} (h : e ≤ f) (m : ℤ) : nearestOn e (m * 2 ^ f) = m * 2 ^ f := by
  rw [mul_zpow_eq_of_le h, nearestOn_mul]

theorem nearestOn_zpow {e f : ℤ} (h : e ≤ f) : nearestOn e (2 ^ f) = 2 ^ f := by
  simpa using nearestOn_mul_of_le h 1

theorem nearestOn_neg (e : ℤ) (x : ℝ) : nearestOn e (-x) = -nearestOn e x := by
  rw [nearestOn, neg_div, nearestInt_neg, nearestOn]
  push_cast
  ring

/-! ## All sizes -/

/-- Exponent of the last of the 53 places of a number, which is −1074 at the least. -/
noncomputable def lastPlace (x : ℝ) : ℤ := max (Int.log 2 |x| - 52) (-1074)

/-- Half the distance from one to the next number of 53 places. -/
noncomputable def unitRoundoff : ℝ := 2 ^ (-53 : ℤ)

/-- The number rounded at its own last place. -/
noncomputable def nearest (x : ℝ) : ℝ := nearestOn (lastPlace x) x

theorem nearest_neg (x : ℝ) : nearest (-x) = -nearest x := by
  rw [nearest, lastPlace, abs_neg, nearestOn_neg]
  rfl

@[simp] theorem nearest_zero : nearest 0 = 0 := by
  simp [nearest, nearestOn, nearestInt]

theorem nearest_nonneg {x : ℝ} (h : 0 ≤ x) : 0 ≤ nearest x := by
  have := nearestOn_mono (lastPlace x) h
  rwa [show nearestOn (lastPlace x) 0 = 0 by simp [nearestOn, nearestInt]] at this

theorem nearest_mono_of_pos {x y : ℝ} (hx : 0 < x) (h : x ≤ y) : nearest x ≤ nearest y := by
  have hy : 0 < y := lt_of_lt_of_le hx h
  have hlog : Int.log 2 x ≤ Int.log 2 y := Int.log_mono_right hx h
  unfold nearest lastPlace
  rw [abs_of_pos hx, abs_of_pos hy]
  rcases hlog.lt_or_eq with hlt | heq
  · by_cases hmin : Int.log 2 y - 52 ≤ -1074
    · rw [max_eq_right hmin, max_eq_right (by omega)]
      exact nearestOn_mono _ h
    -- the grids differ: the power of two below `y` lies on both and separates the two numbers
    · have hxp : x ≤ 2 ^ Int.log 2 y := by
        have := (Int.lt_zpow_iff_log_lt (b := 2) (by norm_num) hx).2 hlt
        exact_mod_cast this.le
      have hyp : (2 : ℝ) ^ Int.log 2 y ≤ y := by
        have := Int.zpow_log_le_self (b := 2) (by norm_num) hy
        exact_mod_cast this
      calc nearestOn (max (Int.log 2 x - 52) (-1074)) x
          ≤ nearestOn (max (Int.log 2 x - 52) (-1074)) (2 ^ Int.log 2 y) := nearestOn_mono _ hxp
        _ = 2 ^ Int.log 2 y := nearestOn_zpow (by omega)
        _ = nearestOn (max (Int.log 2 y - 52) (-1074)) (2 ^ Int.log 2 y) :=
            (nearestOn_zpow (by omega)).symm
        _ ≤ nearestOn (max (Int.log 2 y - 52) (-1074)) y := nearestOn_mono _ hyp
  · rw [heq]
    exact nearestOn_mono _ h

theorem nearest_mono {x y : ℝ} (h : x ≤ y) : nearest x ≤ nearest y := by
  rcases lt_trichotomy x 0 with hx | rfl | hx
  · rcases lt_or_ge y 0 with hy | hy
    · have := nearest_mono_of_pos (neg_pos.2 hy) (neg_le_neg h)
      rw [nearest_neg, nearest_neg] at this
      linarith
    · have h₁ := nearest_nonneg (neg_nonneg.2 hx.le)
      have h₂ := nearest_nonneg hy
      rw [nearest_neg] at h₁
      linarith
  · rw [nearest_zero]
    exact nearest_nonneg h
  · exact nearest_mono_of_pos hx h

/-- In units of its last place a number has at most 53 digits. -/
theorem nearestInt_div_le {x : ℝ} (hx : 0 < x) {t : ℤ} (ht : t = lastPlace x) :
    nearestInt (x / 2 ^ t) ≤ 2 ^ 53 := by
  have hlog : x < 2 ^ (53 + t) := by
    refine lt_of_lt_of_le (Int.lt_zpow_succ_log_self (b := 2) (by norm_num) x) ?_
    push_cast
    refine zpow_le_zpow_right₀ (by norm_num) ?_
    rw [ht, lastPlace, abs_of_pos hx]
    omega
  have hdiv : x / 2 ^ t ≤ ((2 ^ 53 : ℤ) : ℝ) := by
    rw [div_le_iff₀ (by positivity)]
    rw [zpow_add₀ (by norm_num)] at hlog
    exact_mod_cast hlog.le
  have := nearestInt_mono hdiv
  rwa [nearestInt_intCast] at this

/-- It has no fewer, unless its last place is the least one. -/
theorem le_nearestInt_div {x : ℝ} (hx : 0 < x) {t : ℤ} (ht : t = lastPlace x) :
    2 ^ 52 ≤ nearestInt (x / 2 ^ t) ∨ t = -1074 := by
  by_cases hmin : t = -1074
  · exact .inr hmin
  · left
    have h52 : Int.log 2 x = 52 + t := by
      rw [ht, lastPlace, abs_of_pos hx] at hmin ⊢
      omega
    have hlog := Int.zpow_log_le_self (b := 2) (by norm_num) hx
    rw [h52] at hlog
    have hdiv : ((2 ^ 52 : ℤ) : ℝ) ≤ x / 2 ^ t := by
      rw [le_div_iff₀ (by positivity)]
      push_cast at hlog ⊢
      rw [zpow_add₀ (by norm_num)] at hlog
      exact_mod_cast hlog
    have := nearestInt_mono hdiv
    rwa [nearestInt_intCast] at this

/-- A number that can be written with 53 binary digits, the last of them at 2⁻¹⁰⁷⁴ or above. -/
def OnGrid (x : ℝ) : Prop := ∃ m e : ℤ, |m| < 2 ^ 53 ∧ -1074 ≤ e ∧ x = m * 2 ^ e

theorem onGrid_zpow {e : ℤ} (h : -1074 ≤ e) : OnGrid (2 ^ e) := ⟨1, e, by norm_num, h, by simp⟩

theorem onGrid_intCast {m : ℤ} (h : |m| < 2 ^ 53) : OnGrid m := ⟨m, 0, h, by norm_num, by simp⟩

theorem lastPlace_le_of_onGrid {m e : ℤ} (hm : |m| < 2 ^ 53) (he : -1074 ≤ e) (h0 : m ≠ 0) :
    lastPlace (m * 2 ^ e) ≤ e := by
  have habs : |(m : ℝ) * 2 ^ e| < 2 ^ (53 + e) := by
    rw [abs_mul, abs_of_pos (show (0 : ℝ) < 2 ^ e by positivity), zpow_add₀ (by norm_num)]
    refine mul_lt_mul_of_pos_right ?_ (by positivity)
    exact_mod_cast hm
  have hpos : 0 < |(m : ℝ) * 2 ^ e| := abs_pos.2 (mul_ne_zero (by exact_mod_cast h0) (by positivity))
  have hlog := (Int.lt_zpow_iff_log_lt (b := 2) (by norm_num) hpos).1 (by exact_mod_cast habs)
  unfold lastPlace
  omega

theorem nearest_of_onGrid {x : ℝ} (h : OnGrid x) : nearest x = x := by
  obtain ⟨m, e, hm, he, rfl⟩ := h
  by_cases h0 : m = 0
  · simp [h0]
  · exact nearestOn_mul_of_le (lastPlace_le_of_onGrid hm he h0) m

/-! ## With the infinities -/

/-- The least number that is too great for the format. -/
noncomputable def limit : ℝ := 2 ^ (1024 : ℤ)

theorem zpow_lt_limit {e : ℤ} (h : e < 1024) : (2 : ℝ) ^ e < limit :=
  zpow_lt_zpow_right₀ (by norm_num) h

theorem limit_pos : 0 < limit := zpow_pos (by norm_num) _

/-- A rounded number beyond the greatest finite one becomes infinite. -/
noncomputable def saturated (x : ℝ) : EReal :=
  if limit ≤ x then ⊤ else if x ≤ -limit then ⊥ else x

/-- An extended real as the format holds it. -/
noncomputable def rounded : EReal → EReal
  | ⊥ => ⊥
  | ⊤ => ⊤
  | (x : ℝ) => saturated (nearest x)

@[simp] theorem rounded_top : rounded ⊤ = ⊤ := rfl

@[simp] theorem rounded_bot : rounded ⊥ = ⊥ := rfl

theorem rounded_coe (x : ℝ) : rounded (x : EReal) = saturated (nearest x) := rfl

theorem saturated_mono {x y : ℝ} (h : x ≤ y) : saturated x ≤ saturated y := by
  have := limit_pos
  unfold saturated
  split_ifs <;> first | exact le_top | exact bot_le | (exfalso; linarith) | exact_mod_cast h

theorem saturated_of_abs_lt {x : ℝ} (h : |x| < limit) : saturated x = x := by
  obtain ⟨h₁, h₂⟩ := abs_lt.1 h
  unfold saturated
  rw [if_neg (by linarith), if_neg (by linarith)]

theorem rounded_mono {x y : EReal} (h : x ≤ y) : rounded x ≤ rounded y := by
  induction x with
  | bot => simp
  | top =>
    rw [top_le_iff.1 h]
  | coe x =>
    induction y with
    | bot => exact absurd h (by simp)
    | top => simp
    | coe y => exact saturated_mono (nearest_mono (by exact_mod_cast h))

theorem rounded_of_onGrid {x : ℝ} (h : OnGrid x) (hlt : |x| < limit) : rounded x = x := by
  rw [rounded_coe, nearest_of_onGrid h, saturated_of_abs_lt hlt]

theorem rounded_zpow {e : ℤ} (h₁ : -1074 ≤ e) (h₂ : e < 1024) :
    rounded ((2 ^ e : ℝ) : EReal) = ((2 ^ e : ℝ) : EReal) := by
  refine rounded_of_onGrid (onGrid_zpow h₁) ?_
  rw [abs_of_pos (by positivity)]
  exact zpow_lt_limit h₂

@[simp] theorem rounded_zero : rounded 0 = 0 := by
  simpa using rounded_of_onGrid (onGrid_intCast (m := 0) (by norm_num)) (by simpa using limit_pos)

@[simp] theorem rounded_one : rounded 1 = 1 := by
  simpa using rounded_zpow (e := 0) (by norm_num) (by norm_num)

theorem rounded_nonneg {x : EReal} (h : 0 ≤ x) : 0 ≤ rounded x := by
  simpa using rounded_mono h

/-- A power of two as a bound. -/
noncomputable def twoPow (k : ℤ) : EReal := ((2 ^ k : ℝ) : EReal)

theorem twoPow_pos (k : ℤ) : 0 < twoPow k := EReal.coe_pos.2 (by positivity)

theorem twoPow_mono {k l : ℤ} (h : k ≤ l) : twoPow k ≤ twoPow l :=
  EReal.coe_le_coe_iff.2 (zpow_le_zpow_right₀ (by norm_num) h)

theorem rounded_twoPow {k : ℤ} (h₁ : -1074 ≤ k) (h₂ : k < 1024) : rounded (twoPow k) = twoPow k :=
  rounded_zpow h₁ h₂

/-! ## What the float model holds -/

open Float.Model Float.Model.UnpackedFloat

/-- The number is the mantissa and its round bit, and a bit more exactly if the sticky bit is set. -/
def Describes (y : ℝ) (em : ExtendedMantissa) : Prop :=
  let b : ℝ := em.mantissa + if em.roundBit then 1 / 2 else 0
  if em.stickyBit then b < y ∧ y < b + 1 / 2 else y = b

/-- The number with a sign. -/
def signed : Sign → ℝ → ℝ
  | .positive, x => x
  | .negative, x => -x

/-- The number that a finite float stands for, and zero for all others. -/
noncomputable def realOf : UnpackedFloat → ℝ
  | .finite s m e _ => signed s (m * 2 ^ e)
  | _ => 0

end AsmOrigin.Binary64
