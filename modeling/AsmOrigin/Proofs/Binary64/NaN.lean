import AsmOrigin.Proofs.Binary64.Floats

/-!
What is not a number.

A sum, a square, a root or a quotient of something that is not a number is not a number either, and no
comparison with it holds.  A whole sum is a number only if all of its terms are (`isNaN_sumFloats`).
-/

namespace AsmOrigin.Binary64

open Float.Model Float.Model.UnpackedFloat

variable {x y : Float}

theorem unpack_of_isNaN (h : x.isNaN = true) : x.toModel.unpack = .notANumber :=
  eq_notANumber_of_isNaN h

theorem isNaN_pack {u : UnpackedFloat} (h : u = .notANumber) :
    (Float.ofModel (Float.Model.pack u)).isNaN = true := by
  subst h
  exact isNaN_unpack_pack (u := .notANumber) trivial

/-! ## Operations -/

theorem isNaN_add_left (y : Float) (h : x.isNaN = true) : (x + y).isNaN = true := by
  refine isNaN_pack ?_
  rw [unpack_of_isNaN h]
  cases y.toModel.unpack <;> rfl

theorem isNaN_add_right (x : Float) (h : y.isNaN = true) : (x + y).isNaN = true := by
  refine isNaN_pack ?_
  rw [unpack_of_isNaN h]
  cases x.toModel.unpack <;> rfl

theorem isNaN_mul_self (h : x.isNaN = true) : (x * x).isNaN = true := by
  refine isNaN_pack ?_
  rw [unpack_of_isNaN h]
  rfl

theorem isNaN_sqrt (h : x.isNaN = true) : x.sqrt.isNaN = true := by
  refine isNaN_pack ?_
  rw [unpack_of_isNaN h]
  rfl

theorem isNaN_div_right (x : Float) (h : y.isNaN = true) : (x / y).isNaN = true := by
  refine isNaN_pack ?_
  rw [unpack_of_isNaN h]
  cases x.toModel.unpack <;> rfl

theorem isNaN_foldl_add {acc : Float} {xs : List Float}
    (h : acc.isNaN = true ∨ ∃ x ∈ xs, x.isNaN = true) : (xs.foldl (· + ·) acc).isNaN = true := by
  induction xs generalizing acc with
  | nil =>
    rcases h with h | ⟨x, hx, -⟩
    · exact h
    · exact absurd hx List.not_mem_nil
  | cons x r ih =>
    refine ih ?_
    rcases h with h | ⟨y, hy, hn⟩
    · exact .inl (isNaN_add_left x h)
    · rcases List.mem_cons.1 hy with rfl | hy
      · exact .inl (isNaN_add_right acc hn)
      · exact .inr ⟨y, hy, hn⟩

/-- One term that is not a number spoils the sum. -/
theorem isNaN_sumFloats {xs : List Float} (hx : x ∈ xs) (h : x.isNaN = true) :
    (sumFloats xs).isNaN = true :=
  isNaN_foldl_add (.inr ⟨x, hx, h⟩)

/-! ## Comparisons -/

theorem compare_of_isNaN (h : x.isNaN = true ∨ y.isNaN = true) :
    x.toModel.unpack.compare y.toModel.unpack = none := by
  rcases h with h | h
  · rw [unpack_of_isNaN h]
    cases y.toModel.unpack <;> rfl
  · rw [unpack_of_isNaN h]
    generalize x.toModel.unpack = u
    cases u with
    | infinity s => cases s <;> rfl
    | _ => rfl

theorem not_lt_of_isNaN (h : x.isNaN = true ∨ y.isNaN = true) : ¬ x < y := by
  show ¬ decide (x.toModel < y.toModel) = true
  rw [decide_eq_true_iff]
  show ¬ (x.toModel.unpack.compare y.toModel.unpack == some .lt) = true
  rw [compare_of_isNaN h]
  decide

theorem not_le_of_isNaN (h : x.isNaN = true ∨ y.isNaN = true) : ¬ x ≤ y := by
  show ¬ decide (x.toModel ≤ y.toModel) = true
  rw [decide_eq_true_iff]
  show ¬ (x.toModel.unpack.compare y.toModel.unpack).any (·.isLE) = true
  rw [compare_of_isNaN h]
  decide

theorem le_of_not_lt_of_number (hx : x.isNaN = false) (hy : y.isNaN = false) (h : ¬ x < y) :
    y ≤ x := by
  obtain ⟨a, ha⟩ := exists_denotes hx
  obtain ⟨b, hb⟩ := exists_denotes hy
  exact (le_iff_le hb ha).2 (not_lt.1 (mt (lt_iff_lt ha hb).2 h))

end AsmOrigin.Binary64
