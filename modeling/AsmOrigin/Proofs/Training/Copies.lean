import AsmOrigin.Proofs.Binary64.Errors
import AsmOrigin.Proofs.Training.Listings

/-!
Copies of one fingerprint.

The centroid of n copies is the fingerprint again only as far as adding a slot n times and dividing by n
leads back to it (`repeatedMean`).  It does where the multiples of the slot are numbers of the format.
Elsewhere a sum that does not overflow is off by what n − 1 roundings amount to, and dividing it at most
doubles that, since the slot is itself a number of the format and no farther one is rounded to
(`abs_nearest_div_sub_le`).
-/

namespace AsmOrigin

open Binary64

variable {x y : Float} {r s : ℝ} {n : Nat}

/-! ## One slot -/

theorem denotes_of_isAdmissible (h : isAdmissible x = true) : Denotes x (value x) ∧ 0 ≤ value x := by
  unfold isAdmissible at h
  rw [Bool.and_eq_true, Bool.not_eq_true', decide_eq_false_iff_not] at h
  have hx := denotes_value h.1
  rw [lt_iff_lt hx denotes_zero, not_lt] at h
  exact ⟨hx, EReal.coe_nonneg.1 h.2⟩

/-- A number added up n times, each sum rounded. -/
noncomputable def repeatedSum (r : ℝ) : Nat → EReal
  | 0 => 0
  | n + 1 => rounded (repeatedSum r n + r)

/-- The rounded quotient of that sum by n. -/
noncomputable def repeatedMean (n : Nat) (r : ℝ) : EReal :=
  rounded (repeatedSum r n / rounded ((n : ℝ) : EReal))

theorem repeatedSum_nonneg (h0 : 0 ≤ r) (n : Nat) : 0 ≤ repeatedSum r n := by
  induction n with
  | zero => exact le_rfl
  | succ n ih => exact rounded_nonneg (add_nonneg ih (EReal.coe_nonneg.2 h0))

theorem sumFloats_replicate_succ (x : Float) (n : Nat) :
    sumFloats (List.replicate (n + 1) x) = sumFloats (List.replicate n x) + x := by
  rw [List.replicate_succ']
  exact List.foldl_concat _ _ _ _

theorem denotes_sumFloats_replicate (hx : Denotes x r) (h0 : 0 ≤ r) (n : Nat) :
    Denotes (sumFloats (List.replicate n x)) (repeatedSum r n) := by
  induction n with
  | zero => exact denotes_zero
  | succ n ih =>
    rw [sumFloats_replicate_succ]
    exact denotes_add_of_nonneg ih hx (repeatedSum_nonneg h0 n) (EReal.coe_nonneg.2 h0)

/-- Where all multiples are numbers of the format, the sum is exact. -/
theorem repeatedSum_of_onGrid (h0 : 0 ≤ r) (hgrid : ∀ k ≤ n, OnGrid (k * r)) (hlimit : n * r < limit) :
    repeatedSum r n = ((n * r : ℝ) : EReal) := by
  induction n with
  | zero =>
    rw [Nat.cast_zero, zero_mul]
    rfl
  | succ n ih =>
    have hle : n * r ≤ (n + 1 : Nat) * r := mul_le_mul_of_nonneg_right (by push_cast; linarith) h0
    have hstep : n * r + r = (n + 1 : Nat) * r := by
      push_cast
      ring
    show rounded (repeatedSum r n + r) = _
    rw [ih (fun k hk => hgrid k (hk.trans n.le_succ)) (hle.trans_lt hlimit), ← EReal.coe_add, hstep]
    apply rounded_of_onGrid (hgrid _ le_rfl)
    rwa [abs_of_nonneg (by positivity)]

theorem denotes_repeatedMean (hx : Denotes x r) (h0 : 0 ≤ r) (hn0 : n ≠ 0) (hn : n < 2 ^ 64) :
    Denotes (sumFloats (List.replicate n x) / ofCount n) (repeatedMean n r) :=
  denotes_div_ofCount hn0 (.inr hn) (denotes_sumFloats_replicate hx h0 n) (repeatedSum_nonneg h0 n)

theorem repeatedMean_of_onGrid (hn0 : n ≠ 0) (hn : n ≤ 2 ^ 53) (h0 : 0 ≤ r)
    (hgrid : ∀ k ≤ n, OnGrid (k * r)) (hlimit : n * r < limit) : repeatedMean n r = r := by
  have hpos : (n : ℝ) ≠ 0 := by exact_mod_cast hn0
  have hone : OnGrid r := by
    have h := hgrid 1 (Nat.one_le_iff_ne_zero.2 hn0)
    rwa [Nat.cast_one, one_mul] at h
  have hle : r ≤ n * r := le_mul_of_one_le_left h0 (by exact_mod_cast Nat.one_le_iff_ne_zero.2 hn0)
  unfold repeatedMean
  rw [repeatedSum_of_onGrid h0 hgrid hlimit, (denotes_ofCount_of_le hn).rounded_eq, ← EReal.coe_div,
    mul_div_cancel_left₀ _ hpos]
  apply rounded_of_onGrid hone
  rw [abs_of_nonneg h0]
  exact hle.trans_lt hlimit

theorem onGrid_two_mul (h : OnGrid r) : OnGrid (2 * r) := by
  obtain ⟨m, e, hm, he, rfl⟩ := h
  refine ⟨m, e + 1, hm, by omega, ?_⟩
  rw [zpow_add_one₀ (by norm_num)]
  ring

/-- The quotient of a sum that is off by a part of its size is off by twice that part at most. -/
theorem abs_nearest_div_sub_le {δ : ℝ} (hr : OnGrid r) (hs : 0 ≤ s) (hn0 : n ≠ 0)
    (h : |s - n * r| ≤ δ * (n * r)) : |nearest (s / n) - r| ≤ 2 * (δ * r) := by
  have hn : (0 : ℝ) < n := by exact_mod_cast Nat.pos_of_ne_zero hn0
  have hquotient : |s / n - r| ≤ δ * r := by
    have hsplit : s / n - r = (s - n * r) / n := by
      rw [sub_div, mul_div_cancel_left₀ _ hn.ne']
    rw [hsplit, abs_div, abs_of_pos hn, div_le_iff₀ hn]
    linarith
  have hnearest : |nearest (s / n) - s / n| ≤ |r - s / n| := abs_nearest_sub_le (by positivity) hr
  rw [abs_sub_comm r] at hnearest
  calc |nearest (s / n) - r| ≤ |nearest (s / n) - s / n| + |s / n - r| := abs_sub_le _ _ _
    _ ≤ 2 * (δ * r) := by linarith

theorem repeatedMean_nonneg (h0 : 0 ≤ r) (n : Nat) : 0 ≤ repeatedMean n r :=
  rounded_nonneg (EReal.div_nonneg (repeatedSum_nonneg h0 n)
    (rounded_nonneg (EReal.coe_nonneg.2 (Nat.cast_nonneg n))))

theorem repeatedMean_eq_top_iff (hx : Denotes x r) (h0 : 0 ≤ r) (hn0 : n ≠ 0) (hn : n < 2 ^ 64) :
    repeatedMean n r = ⊤ ↔ repeatedSum r n = ⊤ := by
  have hsum := denotes_sumFloats_replicate hx h0 n
  have hsum0 := repeatedSum_nonneg h0 n
  constructor
  · intro h
    obtain ⟨q, hq, -, hle⟩ := within_div_ofCount hn0 (.inr hn) hsum hsum0
    rw [hq.unique (denotes_repeatedMean hx h0 hn0 hn), h] at hle
    exact top_le_iff.1 hle
  · intro h
    have hpos : 0 < rounded ((n : ℝ) : EReal) := zero_lt_one.trans_le (one_le_rounded_natCast hn0)
    unfold repeatedMean
    rw [h, EReal.top_div_of_pos_ne_top hpos (ofCount_ne_top hn (denotes_ofCount n)), rounded_top]

/-- A sum of n copies that does not overflow comes after n − 1 roundings. -/
theorem abs_repeatedSum_sub_le (hx : Denotes x r) (h0 : 0 ≤ r) (hs : repeatedSum r (n + 1) = s) :
    |s - (n + 1 : Nat) * r| ≤ growth n * ((n + 1 : Nat) * r) := by
  have hsum := denotes_sumFloats_replicate hx h0 (n + 1)
  have hfirst := denotes_add_of_nonneg denotes_zero hx le_rfl (EReal.coe_nonneg.2 h0)
  rw [zero_add, hx.rounded_eq] at hfirst
  have hxs : ∀ y ∈ List.replicate n x, y.isFinite = true ∧ 0 ≤ value y := by
    intro y hy
    rw [List.eq_of_mem_replicate hy, hx.value_eq]
    exact ⟨hx.isFinite_eq, h0⟩
  rw [hs] at hsum
  have hle := abs_foldl_sub_le hfirst h0 hxs hsum
  have hexact : r + exactSum (List.replicate n x) = (n + 1 : Nat) * r := by
    unfold exactSum
    rw [List.map_replicate, List.sum_replicate, hx.value_eq, nsmul_eq_mul]
    push_cast
    ring
  rwa [hexact, List.length_replicate] at hle

/-- The mean of n copies is off by at most (n − 1) · 2⁻⁵¹ of its size. -/
theorem abs_repeatedMean_sub_le {q : ℝ} (hx : Denotes x r) (h0 : 0 ≤ r) (hn0 : n ≠ 0) (hn : n ≤ 2 ^ 52)
    (hq : repeatedMean n r = q) : |q - r| ≤ 4 * ((n - 1) * unitRoundoff * r) := by
  obtain ⟨m, rfl⟩ := Nat.exists_eq_succ_of_ne_zero hn0
  have hsum0 := repeatedSum_nonneg h0 (m + 1)
  have htop : repeatedSum r (m + 1) ≠ ⊤ := by
    rw [ne_eq, ← repeatedMean_eq_top_iff hx h0 hn0 (by omega), hq]
    exact EReal.coe_ne_top q
  obtain ⟨s, hs⟩ := exists_coe_of_nonneg hsum0 htop
  have hround : q = nearest (s / (m + 1 : Nat)) := by
    unfold repeatedMean at hq
    rw [hs, (denotes_ofCount_of_le (hn.trans (by norm_num))).rounded_eq, ← EReal.coe_div] at hq
    exact eq_nearest_of_rounded_eq hq
  rw [hs] at hsum0
  have hdiv := abs_nearest_div_sub_le hx.onGrid (EReal.coe_nonneg.1 hsum0) hn0
    (abs_repeatedSum_sub_le hx h0 hs)
  rw [← hround] at hdiv
  have hgrowth : growth m ≤ 2 * (m * unitRoundoff) := by
    have hm : (m : ℝ) ≤ 2 ^ 52 := by exact_mod_cast Nat.le_of_succ_le hn
    apply growth_le
    unfold unitRoundoff
    norm_num
    linarith
  have hmul := mul_le_mul_of_nonneg_right hgrowth h0
  push_cast
  rw [add_sub_cancel_right]
  linarith

/-- The mean of small numbers does not overflow, however many copies there are. -/
theorem repeatedMean_ne_top (hx : Denotes x r) (h0 : 0 ≤ r) (hn0 : n ≠ 0) (hn : n < 2 ^ 64)
    (h : r ≤ 2 ^ (970 : ℤ)) : repeatedMean n r ≠ ⊤ := by
  have hxs : ∀ y ∈ List.replicate n x, Within 0 (twoPow 970) y := by
    intro y hy
    rw [List.eq_of_mem_replicate hy]
    exact ⟨r, hx, EReal.coe_nonneg.2 h0, EReal.coe_le_coe_iff.2 h⟩
  obtain ⟨s, hs, -, hle⟩ := within_sumFloats_of_le (by norm_num) (by norm_num) hxs
  rw [ne_eq, repeatedMean_eq_top_iff hx h0 hn0 hn, (denotes_sumFloats_replicate hx h0 n).unique hs]
  exact ne_top_of_le_ne_top (EReal.coe_ne_top _) hle

/-- The mean of n copies of an admissible value.  It is infinite if their sum is, which takes a value above
2⁹⁷⁰, and is off by at most (n − 1) · 2⁻⁵¹ of the value otherwise.  Where all multiples up to n are
numbers of the format, and for one copy or two, it is the value itself. -/
structure IsMeanOfCopies (n : Nat) (x y : Float) : Prop where
  number : y.isNaN = false
  nonneg : 0.0 ≤ y
  infinite : y.isInf = true ↔ repeatedSum (value x) n = ⊤
  finite : value x ≤ 2 ^ (970 : ℤ) → y.isFinite = true
  near : n ≤ 2 ^ 52 → y.isFinite = true → |value y - value x| ≤ 4 * ((n - 1) * unitRoundoff * value x)
  exact : n ≤ 2 ^ 53 → (∀ k ≤ n, OnGrid (k * value x)) → n * value x < limit → (x == y) = true
  few : n ≤ 2 → n * value x < limit → (x == y) = true

theorem onGrid_multiple_of_le_two (hr : OnGrid r) {k : Nat} (hk : k ≤ 2) : OnGrid (k * r) := by
  have hcases : k = 0 ∨ k = 1 ∨ k = 2 := by omega
  rcases hcases with rfl | rfl | rfl
  · rw [Nat.cast_zero, zero_mul]
    exact onGrid_zero
  · rwa [Nat.cast_one, one_mul]
  · exact_mod_cast onGrid_two_mul hr

theorem isMeanOfCopies (hx : Denotes x r) (h0 : 0 ≤ r) (hn0 : n ≠ 0) (hn : n < 2 ^ 64) :
    IsMeanOfCopies n x (sumFloats (List.replicate n x) / ofCount n) := by
  have hy := denotes_repeatedMean hx h0 hn0 hn
  have hy0 := repeatedMean_nonneg h0 n
  generalize sumFloats (List.replicate n x) / ofCount n = y at hy
  obtain rfl : value x = r := hx.value_eq
  have hexact (hle : n ≤ 2 ^ 53) (hgrid : ∀ k ≤ n, OnGrid (k * value x)) (hlimit : n * value x < limit) :
      (x == y) = true := by
    rw [beq_iff_eq hx hy, repeatedMean_of_onGrid hn0 hle h0 hgrid hlimit]
  refine ⟨hy.1, (le_iff_le denotes_zero hy).2 hy0, ?_, ?_, ?_, hexact, ?_⟩
  · rw [isInf_iff_eq_top hy hy0]
    exact repeatedMean_eq_top_iff hx h0 hn0 hn
  · intro hsmall
    obtain ⟨q, hq⟩ := exists_coe_of_nonneg hy0 (repeatedMean_ne_top hx h0 hn0 hn hsmall)
    rw [hq] at hy
    exact hy.isFinite_eq
  · intro hle hfinite
    obtain ⟨q, hq⟩ := exists_denotes_coe hfinite
    rw [hq.value_eq]
    exact abs_repeatedMean_sub_le hx h0 hn0 hle (hy.unique hq)
  · intro hle hlimit
    apply hexact (hle.trans (by norm_num)) _ hlimit
    intro k hk
    exact onGrid_multiple_of_le_two hx.onGrid (hk.trans hle)

/-! ## Batches -/

/-- A batch of n samples with one label that all have one fingerprint. -/
def TrainingSet.copies (n : Nat) (label : String) (f : Fingerprint) : TrainingSet :=
  .ofPairs (List.replicate n (label, f))

namespace TrainingSet

variable {label : String} {f : Fingerprint}

theorem fingerprints_copies : (copies n label f).fingerprints = List.replicate n f := by
  unfold copies ofPairs
  exact List.map_replicate

theorem labels_copies : (copies n label f).labels = List.replicate n label := by
  unfold copies ofPairs
  exact List.map_replicate

theorem length_copies : (copies n label f).fingerprints.length = (copies n label f).labels.length := by
  rw [fingerprints_copies, labels_copies, List.length_replicate, List.length_replicate]

theorem eq_of_mem_copies {g : Fingerprint} (hg : g ∈ (copies n label f).fingerprints) : g = f := by
  rw [fingerprints_copies] at hg
  exact List.eq_of_mem_replicate hg

theorem accepted_copies (hf : ∀ x ∈ f.slots, ¬ IsBad x) : (copies n label f).Accepted := by
  apply Classifier.accepted_of_uniform length_copies
  · intro g hg
    rw [eq_of_mem_copies hg]
  · intro g hg
    rwa [eq_of_mem_copies hg]

theorem members_copies : members (copies n label f).pairs label = List.replicate n f := by
  unfold pairs members
  rw [fingerprints_copies, labels_copies, List.zip_replicate']
  exact List.filterMap_replicate_of_some (if_pos rfl)

theorem label_mem_copies (hn0 : n ≠ 0) : label ∈ (copies n label f).labels := by
  rw [labels_copies]
  exact List.mem_replicate.2 ⟨hn0, rfl⟩

theorem slotMean_replicate {slot : Nat} (h : f.slots[slot]? = some x) :
    slotMean (List.replicate n f) slot = sumFloats (List.replicate n x) / ofCount n := by
  have hcolumn : (List.replicate n f).filterMap (·.slots[slot]?) = List.replicate n x :=
    List.filterMap_replicate_of_some h
  unfold slotMean
  rw [hcolumn, List.length_replicate]

theorem mean_copies (hn0 : n ≠ 0) : (copies n label f).mean label =
    ⟨f.slots.map fun x => sumFloats (List.replicate n x) / ofCount n⟩ := by
  have hsize : (copies n label f).expectedSize label = f.slots.length := by
    apply Classifier.expectedSize_eq length_copies _ (label_mem_copies hn0)
    intro g hg
    rw [eq_of_mem_copies hg]
    rfl
  unfold mean
  rw [members_copies, hsize]
  congr 1
  apply List.ext_getElem
  · rw [List.length_map, List.length_range, List.length_map]
  · intro slot _ hslot
    rw [List.length_map] at hslot
    rw [List.getElem_map, List.getElem_map, List.getElem_range]
    exact slotMean_replicate (List.getElem?_eq_getElem hslot)

end TrainingSet

open TrainingSet Classifier

/-- A batch of n copies of an admissible fingerprint is accepted, and the label's centroid is the mean of
the copies in each slot (`IsMeanOfCopies`).  It is the fingerprint itself exactly if adding each slot n
times and dividing by n, rounding after each step, leads back to the slot. -/
theorem centroid_of_copies (c : Classifier) (label : String) (f : Fingerprint) (n : Nat)
    (hf : ∀ x ∈ f.slots, isAdmissible x = true) (hn0 : n ≠ 0) (hn : n < 2 ^ 64) :
    answer (trainInPlace (copies n label f)) c = .ok () ∧
    ∃ g, (after (trainInPlace (copies n label f)) c).centroids.get? label = some g ∧
      List.Forall₂ (IsMeanOfCopies n) f.slots g.slots ∧
      (f.EqualSlots g ↔ ∀ x ∈ f.slots, repeatedMean n (value x) = value x) := by
  have hbad : ∀ x ∈ f.slots, ¬ IsBad x := by
    intro x hx
    rw [← isAdmissible_eq_false_iff, hf x hx]
    decide
  have hslots : ∀ x ∈ f.slots, Denotes x (value x) ∧ 0 ≤ value x := fun x hx =>
    denotes_of_isAdmissible (hf x hx)
  have hacc : (copies n label f).Accepted := accepted_copies hbad
  refine ⟨(answer_eq_ok_iff c _).2 hacc, (copies n label f).mean label, ?_, ?_, ?_⟩
  · rw [get?_after, if_pos ⟨hacc, label_mem_copies hn0⟩]
  · rw [mean_copies hn0, List.forall₂_map_right_iff, List.forall₂_same]
    intro x hx
    exact isMeanOfCopies (hslots x hx).1 (hslots x hx).2 hn0 hn
  · unfold Fingerprint.EqualSlots
    rw [mean_copies hn0, List.forall₂_map_right_iff, List.forall₂_same]
    apply forall₂_congr
    intro x hx
    obtain ⟨hdenotes, h0⟩ := hslots x hx
    rw [beq_iff_eq hdenotes (denotes_repeatedMean hdenotes h0 hn0 hn), eq_comm]

/-- Seven copies whose sums are all exact. -/
theorem centroid_of_copies_with_exact_sums :
    let f : Fingerprint := ⟨[3.0, 1.5, 0.0, 8.0]⟩
    let c := after (trainInPlace (copies 7 "C" f)) (untrained .substring)
    (∀ x ∈ f.slots, isAdmissible x = true) ∧ ∃ g, c.centroids.get? "C" = some g ∧ g = f ∧
      List.Forall₂ (IsMeanOfCopies 7) f.slots g.slots := by
  intro f c
  have hf : ∀ x ∈ f.slots, isAdmissible x = true := by decide +kernel
  have hself : c.centroids.get? "C" = some f := by decide +kernel
  obtain ⟨-, g, hg, hmean, -⟩ := centroid_of_copies (untrained .substring) "C" f 7 hf (by decide) (by decide)
  exact ⟨hf, g, hg, Option.some.inj (hg.symm.trans hself), hmean⟩

/-- Three copies of a slot of one tenth, whose third sum is rounded up. -/
theorem centroid_of_copies_with_a_rounded_sum :
    let f : Fingerprint := ⟨[0.1]⟩
    let c := after (trainInPlace (copies 3 "C" f)) (untrained .substring)
    (∀ x ∈ f.slots, isAdmissible x = true) ∧
      ∃ g, c.centroids.get? "C" = some g ∧ ¬ f.EqualSlots g := by
  intro f c
  have hf : ∀ x ∈ f.slots, isAdmissible x = true := by decide +kernel
  have hg : c.centroids.get? "C" = some ⟨[0.10000000000000002]⟩ := by decide +kernel
  refine ⟨hf, _, hg, ?_⟩
  intro hslots
  obtain ⟨hbeq, -⟩ := List.forall₂_cons.1 hslots
  revert hbeq
  decide +kernel

end AsmOrigin
