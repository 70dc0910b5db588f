import AsmOrigin.Proofs.Binary64.Errors
import AsmOrigin.Proofs.QueryPaths
import AsmOrigin.Proofs.Training.Reachable

/-!
How near confidences come to adding up to one.

Three errors meet in that sum: that of the total, that of each quotient and that of adding the quotients
(`abs_sumFloats_shares_sub_one_lt`).  No quotient is so small that its relative error would grow, since a
score that is not zero is at least 2⁻⁵¹³ and the total is at most 2⁵³.
-/

namespace AsmOrigin

open Binary64

variable {x total : Float} {xs : List Float} {t : ℝ}

/-! ## Sums of numbers from zero to one -/

theorem value_of_within (h : Within 0 1 x) : x.isFinite = true ∧ 0 ≤ value x ∧ value x ≤ 1 := by
  obtain ⟨a, ha, h0, h1⟩ := h
  obtain ⟨r, rfl⟩ := exists_coe_of_nonneg h0 (ne_top_of_le_ne_top (EReal.coe_ne_top 1) h1)
  rw [ha.value_eq]
  exact ⟨ha.isFinite_eq, EReal.coe_nonneg.1 h0, EReal.coe_le_coe_iff.1 h1⟩

/-- A million additions lead away by less than a quarter of 10⁻⁹. -/
theorem growth_le_of_length (h : xs.length ≤ 2 ^ 20) : growth xs.length ≤ 2 ^ (-32 : ℤ) := by
  have hgrowth := growth_le (k := 2 ^ 20) (by unfold unitRoundoff; norm_num)
  apply (growth_mono h).trans (hgrowth.trans _)
  unfold unitRoundoff
  norm_num

theorem exists_denotes_sumFloats (h : ∀ x ∈ xs, Within 0 1 x) (hlen : xs.length ≤ 2 ^ 20) :
    ∃ s : ℝ, Denotes (sumFloats xs) s ∧ s ≤ 2 ^ (53 : ℤ) ∧
      |s - exactSum xs| ≤ 2 ^ (-32 : ℤ) * exactSum xs := by
  have hone : (1 : EReal) ≤ twoPow 0 := by
    unfold twoPow
    rw [zpow_zero, EReal.coe_one]
  have hsmall : ∀ x ∈ xs, Within 0 (twoPow 0) x := fun x hx => (h x hx).mono le_rfl hone
  obtain ⟨s, hs, -, hle⟩ := exists_coe_of_within (within_sumFloats_of_le (by norm_num) (by norm_num) hsmall)
  have hvalues : ∀ x ∈ xs, x.isFinite = true ∧ 0 ≤ value x := fun x hx =>
    ⟨(value_of_within (h x hx)).1, (value_of_within (h x hx)).2.1⟩
  have herror := abs_foldl_sub_le denotes_zero le_rfl hvalues hs
  rw [zero_add] at herror
  refine ⟨s, hs, by simpa using hle, herror.trans ?_⟩
  exact mul_le_mul_of_nonneg_right (growth_le_of_length hlen) (exactSum_nonneg hvalues)

/-- Terms that are each off by a part of their size add up to a sum that is off by that part at most. -/
theorem abs_exactSum_map_sub_le {φ : Float → Float} {q ε : ℝ}
    (h : ∀ x ∈ xs, |value (φ x) - q * value x| ≤ ε * (q * value x)) :
    |exactSum (xs.map φ) - q * exactSum xs| ≤ ε * (q * exactSum xs) := by
  induction xs with
  | nil => simp [exactSum]
  | cons x r ih =>
    obtain ⟨hx, hr⟩ := List.forall_mem_cons.1 h
    have hrest := ih hr
    rw [List.map_cons, exactSum_cons, exactSum_cons]
    calc |value (φ x) + exactSum (r.map φ) - q * (value x + exactSum r)|
        = |(value (φ x) - q * value x) + (exactSum (r.map φ) - q * exactSum r)| := by ring_nf
      _ ≤ |value (φ x) - q * value x| + |exactSum (r.map φ) - q * exactSum r| := abs_add_le _ _
      _ ≤ ε * (q * value x) + ε * (q * exactSum r) := add_le_add hx hrest
      _ = ε * (q * (value x + exactSum r)) := by ring

/-! ## Shares -/

namespace Classifier

/-- A score from zero to one that is not so small that dividing it would lose precision. -/
structure IsScore (x : Float) : Prop where
  within : Within 0 1 x
  zero_or_le : value x = 0 ∨ 2 ^ (-513 : ℤ) ≤ value x

theorem abs_value_share_sub_le (htotal : Denotes total t) (ht0 : 0 < t) (ht : t ≤ 2 ^ (53 : ℤ))
    (hx : IsScore x) (hle : value x ≤ t) :
    |value (share total x) - t⁻¹ * value x| ≤ unitRoundoff * (t⁻¹ * value x) := by
  obtain ⟨hfinite, h0, -⟩ := value_of_within hx.within
  have hshare := denotes_share htotal hx.within (denotes_value hfinite)
  have hquotient : t⁻¹ * value x ≤ 1 := by
    rw [← div_eq_inv_mul]
    exact (div_le_one ht0).2 hle
  have hquotient0 : 0 ≤ t⁻¹ * value x := mul_nonneg (inv_nonneg.2 ht0.le) h0
  have hround := rounded_coe_of_le (k := 0) (by norm_num) (by norm_num) hquotient0 (by simpa using hquotient)
  rw [if_pos (EReal.coe_pos.2 ht0), ← EReal.coe_div, div_eq_inv_mul, hround] at hshare
  rw [hshare.value_eq]
  rcases hx.zero_or_le with hzero | hleast
  · rw [hzero, mul_zero, nearest_zero, sub_zero, abs_zero, mul_zero]
  · apply abs_nearest_sub_le_mul
    calc (2 : ℝ) ^ (-1022 : ℤ) ≤ 2 ^ (-53 + -513 : ℤ) := zpow_le_zpow_right₀ (by norm_num) (by norm_num)
      _ = (2 ^ (53 : ℤ))⁻¹ * 2 ^ (-513 : ℤ) := by rw [zpow_add₀ (by norm_num), zpow_neg]
      _ ≤ t⁻¹ * value x := mul_le_mul (inv_anti₀ ht0 ht) hleast (by positivity) (inv_nonneg.2 ht0.le)

/-- The exact quotient of a sum by a total that is off by a part of it. -/
theorem abs_one_sub_inv_mul_le {q ε : ℝ} (ht0 : 0 < t) (h : |t - q| ≤ ε * q) :
    |1 - t⁻¹ * q| ≤ ε * (t⁻¹ * q) := by
  calc |1 - t⁻¹ * q| = |t⁻¹ * (t - q)| := by rw [mul_sub, inv_mul_cancel₀ ht0.ne']
    _ = t⁻¹ * |t - q| := by rw [abs_mul, abs_of_pos (inv_pos.2 ht0)]
    _ ≤ t⁻¹ * (ε * q) := mul_le_mul_of_nonneg_left h (inv_nonneg.2 ht0.le)
    _ = ε * (t⁻¹ * q) := by ring

/-- The three errors together: of the total, of the quotients and of their sum. -/
theorem abs_sub_one_lt_of_errors {p q s : ℝ} (htotal : |1 - q| ≤ 2 ^ (-32 : ℤ) * q)
    (hquotients : |p - q| ≤ unitRoundoff * q) (hsum : |s - p| ≤ 2 ^ (-32 : ℤ) * p) :
    |s - 1| < 1 / 10 ^ 9 := by
  unfold unitRoundoff at hquotients
  rw [abs_le] at *
  rw [abs_lt]
  norm_num at *
  constructor <;> linarith

/-- Up to a million scores, divided by their sum, add up to one but for 10⁻⁹. -/
theorem abs_sumFloats_shares_sub_one_lt (hlen : xs.length ≤ 2 ^ 20) (h : ∀ x ∈ xs, IsScore x)
    (hpos : ∃ x ∈ xs, value x ≠ 0) :
    (sumFloats (xs.map (share (sumFloats xs)))).isFinite = true ∧
      |value (sumFloats (xs.map (share (sumFloats xs)))) - 1| < 1 / 10 ^ 9 := by
  have hwithin : ∀ x ∈ xs, Within 0 1 x := fun x hx => (h x hx).within
  obtain ⟨t, ht, htmax, hterror⟩ := exists_denotes_sumFloats hwithin hlen
  have hle : ∀ x ∈ xs, value x ≤ t := by
    intro x hx
    have hxs : ∀ y ∈ xs, Within 0 ⊤ y := fun y hy => (hwithin y hy).mono le_rfl le_top
    exact EReal.coe_le_coe_iff.1
      (le_sumFloats hxs ht hx (denotes_value (value_of_within (hwithin x hx)).1))
  have ht0 : 0 < t := by
    obtain ⟨x, hx, hne⟩ := hpos
    have hx0 := (value_of_within (hwithin x hx)).2.1
    exact (lt_of_le_of_ne hx0 hne.symm).trans_le (hle x hx)
  have hshares : ∀ y ∈ xs.map (share (sumFloats xs)), Within 0 1 y :=
    List.forall_mem_map.2 fun x hx => within_share_of_mem hwithin hx
  obtain ⟨s, hs, -, hserror⟩ := exists_denotes_sumFloats hshares (by rwa [List.length_map])
  have hquotients := abs_exactSum_map_sub_le fun x hx =>
    abs_value_share_sub_le ht ht0 htmax (h x hx) (hle x hx)
  refine ⟨hs.isFinite_eq, ?_⟩
  rw [hs.value_eq]
  exact abs_sub_one_lt_of_errors (abs_one_sub_inv_mul_le ht0 hterror) hquotients hserror

/-! ## Scores of a query -/

/-- A similarity is zero where the distance overflows, and otherwise not too small. -/
theorem isScore_similarity {f g : Fingerprint} (hf : ∀ x ∈ f.slots, x.isFinite = true)
    (hg : ∀ y ∈ g.slots, Within 0 ⊤ y) : IsScore (similarity f g) := by
  refine ⟨within_similarity hf hg, ?_⟩
  by_cases hsize : f.size = g.size
  · obtain ⟨s, hs, h0, -⟩ := within_sumFloats (within_of_mem_squaredDifferences hf hg)
    have hsimilarity := denotes_similarity hsize hs h0
    by_cases htop : s = ⊤
    · rw [htop, closeness_top] at hsimilarity
      exact .inl hsimilarity.value_eq
    · have hleast := twoPow_le_closeness (k := 512) (by norm_num) (by norm_num) (hs.lt_twoPow h0 htop).le
      have hvalue := hsimilarity.unique (denotes_value (value_of_within (within_similarity hf hg)).1)
      rw [hvalue] at hleast
      exact .inr (EReal.coe_le_coe_iff.1 hleast)
  · unfold similarity
    rw [if_neg hsize]
    exact .inl denotes_zero.value_eq

variable {c : Classifier} {f : Fingerprint}

theorem isScore_of_mem_scores (hc : c.Sound) (hf : ∀ x ∈ f.slots, x.isFinite = true)
    {s : String × Float} (hs : s ∈ c.scores f) : IsScore s.2 := by
  obtain ⟨⟨label, g⟩, he, rfl⟩ := List.mem_map.1 hs
  exact isScore_similarity hf (hc label g ((OrderedMap.mem_entries_iff _ _ _).1 he))

theorem values_shares (c : Classifier) (f : Fingerprint) : (c.shares f).values =
    ((c.scores f).map (·.2)).map (share (sumFloats ((c.scores f).map (·.2)))) := by
  simp [shares, OrderedMap.values, OrderedMap.mapValues, scores]

theorem get?_shares {label : String} {x : Float} (h : (c.shares f).get? label = some x) :
    ∃ g, c.centroids.get? label = some g ∧
      x = share (sumFloats ((c.scores f).map (·.2))) (similarity f g) := by
  unfold shares at h
  rw [OrderedMap.get?_mapValues] at h
  obtain ⟨g, hg, rfl⟩ := Option.map_eq_some_iff.1 h
  exact ⟨g, hg, rfl⟩

theorem beq_zero_iff_of_isScore (h : IsScore x) : (x == 0.0) = true ↔ value x = 0 := by
  rw [beq_iff_eq (denotes_value (value_of_within h.within).1) denotes_zero]
  exact EReal.coe_eq_zero

theorem abs_sumFloats_values_shares_sub_one_lt (hc : c.Sound) (hf : ∀ x ∈ f.slots, x.isFinite = true)
    (hlen : c.labels.length ≤ 2 ^ 20)
    (hsome : ∃ label g, c.centroids.get? label = some g ∧ (similarity f g == 0.0) = false) :
    (sumFloats (c.shares f).values).isFinite = true ∧
      |value (sumFloats (c.shares f).values) - 1| < 1 / 10 ^ 9 := by
  rw [values_shares]
  have hscores : ∀ x ∈ (c.scores f).map (·.2), IsScore x :=
    List.forall_mem_map.2 fun s hs => isScore_of_mem_scores hc hf hs
  apply abs_sumFloats_shares_sub_one_lt _ hscores
  · obtain ⟨label, g, hg, hne⟩ := hsome
    have hmem : similarity f g ∈ (c.scores f).map (·.2) :=
      List.mem_map.2 ⟨(label, similarity f g), mem_scores_iff.2 ⟨g, hg, rfl⟩, rfl⟩
    refine ⟨_, hmem, fun hzero => ?_⟩
    rw [(beq_zero_iff_of_isScore (hscores _ hmem)).2 hzero] at hne
    cases hne
  · rw [List.length_map, scores, List.length_map]
    rwa [labels, OrderedMap.keys, List.length_map] at hlen

theorem shares_le_of_similarity_le (hc : c.Sound) (hf : ∀ x ∈ f.slots, x.isFinite = true)
    {g h : Fingerprint} {k l : String} (hg : c.centroids.get? k = some g)
    (hh : c.centroids.get? l = some h) {x y : Float} (hx : (c.shares f).get? k = some x)
    (hy : (c.shares f).get? l = some y) (hle : similarity f g ≤ similarity f h) : x ≤ y := by
  obtain ⟨g', hg', rfl⟩ := get?_shares hx
  obtain ⟨h', hh', rfl⟩ := get?_shares hy
  obtain rfl : g = g' := Option.some.inj (hg.symm.trans hg')
  obtain rfl : h = h' := Option.some.inj (hh.symm.trans hh')
  have hall : ∀ z ∈ (c.scores f).map (·.2), Within 0 1 z :=
    List.forall_mem_map.2 fun s hs => within_scores hc hf hs
  apply share_le_share hall _ _ hle
  · exact List.mem_map.2 ⟨(k, similarity f g), mem_scores_iff.2 ⟨g, hg, rfl⟩, rfl⟩
  · exact List.mem_map.2 ⟨(l, similarity f h), mem_scores_iff.2 ⟨h, hh, rfl⟩, rfl⟩

/-- Confidences are normalized, whatever training led to the classifier.  If the fingerprint is similar
to any label at all, the confidences of up to a million labels, added in label order, differ from one by
less than 10⁻⁹.  Greater similarities have no smaller confidences, and where there is no similarity there
is no confidence. -/
theorem confidences_add_up_to_one (m : Matcher) (calls : List TrainingCall)
    (hcalls : ∀ call ∈ calls, (call.batch m).labels.length < 2 ^ 64) (f : Fingerprint)
    (hf : ∀ x ∈ f.slots, x.isFinite = true) :
    let c := (untrained m).afterCalls calls
    (c.isTrained = false → c.confidencesFor f = .error .untrained) ∧
    (c.isTrained = true → ∃ shares, c.confidencesFor f = .ok shares ∧ shares.keys = c.labels ∧
      (c.labels.length ≤ 2 ^ 20 →
        (∃ label g, c.centroids.get? label = some g ∧ (similarity f g == 0.0) = false) →
        (sumFloats shares.values).isFinite = true ∧
          |value (sumFloats shares.values) - 1| < 1 / 10 ^ 9) ∧
      (∀ k g x l h y, c.centroids.get? k = some g → shares.get? k = some x →
        c.centroids.get? l = some h → shares.get? l = some y → similarity f g ≤ similarity f h →
          x ≤ y) ∧
      ((∀ label g, c.centroids.get? label = some g → (similarity f g == 0.0) = true) →
        ∀ x ∈ shares.values, (x == 0.0) = true)) := by
  intro c
  have hc : c.Sound := sound_afterCalls_of_length hcalls
  constructor
  · intro ht
    exact if_neg (Bool.eq_false_iff.1 ht)
  · intro ht
    refine ⟨c.shares f, confidencesFor_eq ht f, OrderedMap.keys_mapValues _ _, ?_, ?_, ?_⟩
    · exact abs_sumFloats_values_shares_sub_one_lt hc hf
    · intro k g x l h y hg hx hh hy hle
      exact shares_le_of_similarity_le hc hf hg hh hx hy hle
    · intro hzero x hx
      have hscores : ∀ s ∈ c.scores f, Denotes s.2 0 := by
        rintro ⟨label, z⟩ hs
        obtain ⟨g, hg, rfl⟩ := mem_scores_iff.1 hs
        have hscore := isScore_of_mem_scores hc hf hs
        have hdenotes := denotes_value (value_of_within hscore.within).1
        rwa [(beq_zero_iff_of_isScore hscore).1 (hzero label g hg)] at hdenotes
      exact (beq_iff_eq (shares_of_zero hscores hx) denotes_zero).2 rfl

/-- Two batches, the first of which is refused, and a fingerprint near to one of two labels. -/
theorem confidences_add_up_to_one_for_two_labels :
    let calls := [TrainingCall.train ⟨[⟨[-1.0]⟩], ["a"]⟩,
      TrainingCall.train ⟨[⟨[1.0, 2.0]⟩, ⟨[7.0, 3.0]⟩], ["b", "a"]⟩]
    let f : Fingerprint := ⟨[2.0, 2.0]⟩
    let c := (untrained .substring).afterCalls calls
    (∀ call ∈ calls, (call.batch .substring).labels.length < 2 ^ 64) ∧
      (∀ x ∈ f.slots, x.isFinite = true) ∧ c.isTrained = true ∧ c.labels.length ≤ 2 ^ 20 ∧
      ∃ shares, c.confidencesFor f = .ok shares ∧ shares.keys = ["a", "b"] ∧
        |value (sumFloats shares.values) - 1| < 1 / 10 ^ 9 := by
  intro calls f c
  have hcalls : ∀ call ∈ calls, (call.batch .substring).labels.length < 2 ^ 64 := by
    simp [calls, TrainingCall.batch]
  have hf : ∀ x ∈ f.slots, x.isFinite = true := by decide +kernel
  have ht : c.isTrained = true := by decide +kernel
  have hlabels : c.labels = ["a", "b"] := by decide +kernel
  have hlen : c.labels.length ≤ 2 ^ 20 := by
    rw [hlabels]
    decide
  have hsimilar : c.centroids.get? "b" = some ⟨[1.0, 2.0]⟩ := by decide +kernel
  obtain ⟨-, htrained⟩ := confidences_add_up_to_one .substring calls hcalls f hf
  obtain ⟨shares, hok, hkeys, hsum, -⟩ := htrained ht
  exact ⟨hcalls, hf, ht, hlen, shares, hok, hkeys.trans hlabels,
    (hsum hlen ⟨"b", _, hsimilar, by decide +kernel⟩).2⟩

end Classifier

end AsmOrigin
