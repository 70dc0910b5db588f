import AsmOrigin.Proofs.Similarity

/-!
Similarity as a function of distances.

A squared difference is the same in either order, so similarity is symmetric, whatever the slots hold.  On
finite slots every operation that follows is monotone in exact arithmetic and stays so when it is rounded:
the square in the distance (`squared_mono`), the sum in its terms (`sumFloats_mono`), and the reciprocal
in the sum, which it reverses (`closeness_anti`).  A sum that overflows is infinite and has the least
similarity of all, so nothing is said about sizes of numbers.
-/

namespace AsmOrigin

open Binary64

variable {x y z : Float} {s t : EReal} {a b c : Fingerprint}

/-! ## Fingerprints -/

theorem squaredDifferences_comm (a b : Fingerprint) :
    squaredDifferences a b = squaredDifferences b a := by
  unfold squaredDifferences
  rw [List.zipWith_comm]
  exact congrArg (fun f => List.zipWith f b.slots a.slots)
    (funext fun x => funext fun y => square_sub_comm y x)

theorem similarity_comm (a b : Fingerprint) : similarity a b = similarity b a := by
  unfold similarity
  rw [squaredDifferences_comm]
  by_cases h : a.size = b.size
  · rw [if_pos h, if_pos h.symm]
  · rw [if_neg h, if_neg (Ne.symm h)]

/-- Slot by slot, the exact distance from `a` to `b` is at most that from `a` to `c`. -/
def NoFarther (a b c : Fingerprint) : Prop :=
  ∀ (i : Nat) x y z, a.slots[i]? = some x → b.slots[i]? = some y → c.slots[i]? = some z →
    |value x - value y| ≤ |value x - value z|

theorem noFarther_nil : NoFarther ⟨[]⟩ b c := by
  intro i x y z hx
  cases hx

theorem noFarther_cons {xs ys zs : List Float} (h : |value x - value y| ≤ |value x - value z|)
    (hrest : NoFarther ⟨xs⟩ ⟨ys⟩ ⟨zs⟩) : NoFarther ⟨x :: xs⟩ ⟨y :: ys⟩ ⟨z :: zs⟩ := by
  intro i u v w hu hv hw
  cases i with
  | zero =>
    rw [← Option.some.inj hu, ← Option.some.inj hv, ← Option.some.inj hw]
    exact h
  | succ i => exact hrest i u v w hu hv hw

/-- Slots that are no farther have squared differences that are no greater. -/
theorem forall₂_squaredDifferences (hb : a.size = b.size) (hc : a.size = c.size)
    (hfa : ∀ x ∈ a.slots, x.isFinite = true) (hfb : ∀ x ∈ b.slots, x.isFinite = true)
    (hfc : ∀ x ∈ c.slots, x.isFinite = true) (h : NoFarther a b c) :
    List.Forall₂ NoGreater (squaredDifferences a b) (squaredDifferences a c) := by
  have hlb : a.slots.length = b.slots.length := hb
  have hlc : a.slots.length = c.slots.length := hc
  unfold squaredDifferences
  rw [List.forall₂_iff_get]
  constructor
  · rw [List.length_zipWith, List.length_zipWith, ← hlb, ← hlc]
  · intro i hi _
    rw [List.length_zipWith] at hi
    have hia : i < a.slots.length := by omega
    have hib : i < b.slots.length := by omega
    have hic : i < c.slots.length := by omega
    have hle := h i _ _ _ (List.getElem?_eq_getElem hia) (List.getElem?_eq_getElem hib)
      (List.getElem?_eq_getElem hic)
    have hx := denotes_value (hfa _ (List.getElem_mem hia))
    have hy := denotes_value (hfb _ (List.getElem_mem hib))
    have hz := denotes_value (hfc _ (List.getElem_mem hic))
    rw [List.get_eq_getElem, List.get_eq_getElem, List.getElem_zipWith, List.getElem_zipWith]
    exact ⟨_, _, denotes_square_sub hx hy, denotes_square_sub hx hz, squared_nonneg (abs_nonneg _),
      squared_mono (abs_nonneg _) hle⟩

/-- The nearer of two fingerprints is at least as similar. -/
theorem similarity_anti (hb : a.size = b.size) (hc : a.size = c.size)
    (hfa : ∀ x ∈ a.slots, x.isFinite = true) (hfb : ∀ x ∈ b.slots, x.isFinite = true)
    (hfc : ∀ x ∈ c.slots, x.isFinite = true) (h : NoFarther a b c) :
    similarity a c ≤ similarity a b := by
  obtain ⟨s, t, hs, ht, h0, hst⟩ := sumFloats_mono (forall₂_squaredDifferences hb hc hfa hfb hfc h)
  rw [le_iff_le (denotes_similarity hc ht (h0.trans hst)) (denotes_similarity hb hs h0)]
  exact closeness_anti hst

/-! ## Equal fingerprints -/

theorem equalSlots_refl (ha : ∀ x ∈ a.slots, x.isFinite = true) : a.EqualSlots a := by
  unfold Fingerprint.EqualSlots
  rw [List.forall₂_same]
  intro x hx
  exact (beq_iff_value_eq (ha x hx) (ha x hx)).2 rfl

theorem similarity_of_equalSlots (ha : ∀ x ∈ a.slots, x.isFinite = true) (h : a.EqualSlots b) :
    similarity a b = 1.0 := by
  have hsize : a.size = b.size := h.length_eq
  have hzero : ∀ d ∈ squaredDifferences a b, Denotes d 0 := by
    intro d hd
    obtain ⟨i, u, v, hu, hv, rfl⟩ := mem_squaredDifferences_iff.1 hd
    have hbeq : (u == v) = true := h.beq_of_getElem? hu hv
    have hu' := denotes_value (ha u (List.mem_of_getElem? hu))
    have hsquare := denotes_square_sub hu' (denotes_of_beq hbeq hu')
    rw [sub_self, abs_zero, squared_zero] at hsquare
    exact hsquare
  have hone := denotes_similarity hsize (denotes_sumFloats_zero hzero) le_rfl
  rw [closeness_zero] at hone
  exact eq_of_denotes hone denotes_one one_ne_zero

/-- Similarity is the same float in either order, whatever the slots hold, and zero between fingerprints
of different sizes.  A fingerprint with finite slots has similarity one to itself, and to every other with
equal slots.  Of two fingerprints with finite slots, the one that is no farther in any slot is at least as
similar to a third, also where the sum of the squares overflows. -/
theorem similarity_by_distances :
    (∀ a b, similarity a b = similarity b a) ∧
    (∀ a b : Fingerprint, a.size ≠ b.size → similarity a b = 0.0) ∧
    (∀ a b : Fingerprint, (∀ x ∈ a.slots, x.isFinite = true) → a = b ∨ a.EqualSlots b →
      similarity a b = 1.0) ∧
    ∀ a b c : Fingerprint, a.size = b.size → a.size = c.size →
      (∀ x ∈ a.slots, x.isFinite = true) → (∀ x ∈ b.slots, x.isFinite = true) →
      (∀ x ∈ c.slots, x.isFinite = true) → NoFarther a b c → similarity a c ≤ similarity a b := by
  refine ⟨similarity_comm, fun a b h => if_neg h, ?_, ?_⟩
  · rintro a b ha (rfl | h)
    · exact similarity_of_equalSlots ha (equalSlots_refl ha)
    · exact similarity_of_equalSlots ha h
  · intro a b c hb hc hfa hfb hfc h
    exact similarity_anti hb hc hfa hfb hfc h

/-- Squares that overflow in both sums, beside a slot in which one of the fingerprints is nearer. -/
theorem similarity_by_distances_that_overflow :
    let a : Fingerprint := ⟨[3.0, 1e200]⟩
    let b : Fingerprint := ⟨[4.0, 0.0]⟩
    let c : Fingerprint := ⟨[5.0, 0.0]⟩
    NoFarther a b c ∧ (sumFloats (squaredDifferences a b)).isInf = true ∧
      similarity a b = similarity b a ∧ similarity a a = 1.0 ∧ similarity a c ≤ similarity a b := by
  intro a b c
  have h3 : Denotes 3.0 ((3 : Nat) : ℝ) := by
    rw [show (3.0 : Float) = ofCount 3 by decide +kernel]
    exact denotes_ofCount_of_le (by norm_num)
  have h4 : Denotes 4.0 ((4 : Nat) : ℝ) := by
    rw [show (4.0 : Float) = ofCount 4 by decide +kernel]
    exact denotes_ofCount_of_le (by norm_num)
  have h5 : Denotes 5.0 ((5 : Nat) : ℝ) := by
    rw [show (5.0 : Float) = ofCount 5 by decide +kernel]
    exact denotes_ofCount_of_le (by norm_num)
  have hfarther : NoFarther a b c := by
    apply noFarther_cons
    · rw [h3.value_eq, h4.value_eq, h5.value_eq]
      norm_num
    · exact noFarther_cons le_rfl noFarther_nil
  obtain ⟨hcomm, -, hone, hanti⟩ := similarity_by_distances
  refine ⟨hfarther, by decide +kernel, hcomm a b, hone a a (by decide +kernel) (.inl rfl), ?_⟩
  exact hanti a b c (by decide +kernel) (by decide +kernel) (by decide +kernel)
    (by decide +kernel) (by decide +kernel) hfarther

end AsmOrigin
