import AsmOrigin.Proofs.Ranking

/-!
Answers to queries whose scores are numbers between zero and one.

The best label is one of the labels scored and has the greatest score (`bestLabel_spec`).  A share lies
between zero and one as well, since no score exceeds the sum of all (`within_share_of_mem`), and shares
are ordered as scores are (`share_le_share`).
-/

namespace AsmOrigin

open Binary64

/-- Floats that compare with zero and one as confidences do. -/
structure IsConfidence (x : Float) : Prop where
  isNaN_eq : x.isNaN = false
  nonneg : 0.0 ≤ x
  le_one : x ≤ 1.0

theorem isConfidence_of_within {x : Float} (h : Within 0 1 x) : IsConfidence x := by
  obtain ⟨a, ha, h0, h1⟩ := h
  exact ⟨ha.1, (le_iff_le denotes_zero ha).2 h0, (le_iff_le ha denotes_one).2 h1⟩

namespace Classifier

/-! ## The best label -/

/-- Among scores that are not negative the best label is that of a greatest score. -/
theorem bestLabel_spec {scores : List (String × Float)} (hne : scores ≠ [])
    (h : ∀ s ∈ scores, Within 0 ⊤ s.2) :
    ∃ s ∈ scores, bestLabel scores = s.1 ∧
      ∀ s' ∈ scores, ∀ a a', Denotes s.2 a → Denotes s'.2 a' → a' ≤ a := by
  obtain ⟨b, hb, hb0⟩ := exists_denotes_start
  have hstart : Denotes ("", -1.0).2 b := hb
  obtain ⟨r, d, hr, hd, -, hmax, hplace⟩ := exists_denotes_best hstart scores
  obtain ⟨s, hs⟩ := List.exists_mem_of_ne_nil scores hne
  obtain ⟨a, ha, ha0, -⟩ := h s hs
  obtain rfl | ⟨-, before, behind, hsplit, -⟩ := hplace
  · have hle : a ≤ b := hd.unique hb ▸ hmax s hs a ha
    exact absurd (ha0.trans hle) hb0.not_ge
  · refine ⟨r, ?_, congrArg Prod.fst hr, fun s' hs' c c' hc hc' => ?_⟩
    · rw [hsplit]
      exact List.mem_append_right _ List.mem_cons_self
    · rw [hc.unique hd]
      exact hmax s' hs' c' hc'

/-- Where all scores are zero the first label is the best one. -/
theorem bestLabel_of_zero {s : String × Float} {scores : List (String × Float)}
    (h : ∀ s' ∈ s :: scores, Denotes s'.2 0) : bestLabel (s :: scores) = s.1 := by
  have hstay : ∀ rest : List (String × Float), (∀ s' ∈ rest, Denotes s'.2 0) →
      rest.foldl (fun best s => if s.2 > best.2 then s else best) s = s := by
    intro rest hrest
    induction rest with
    | nil => rfl
    | cons s' r ih =>
      have hnot : ¬ s'.2 > s.2 := fun hgt =>
        lt_irrefl _ ((lt_iff_lt (h s List.mem_cons_self) (hrest s' List.mem_cons_self)).1 hgt)
      rw [List.foldl_cons, if_neg hnot]
      exact ih fun s'' hs'' => hrest s'' (List.mem_cons_of_mem s' hs'')
  obtain ⟨b, hb, hb0⟩ := exists_denotes_start
  have hfirst : s.2 > -1.0 := (lt_iff_lt hb (h s List.mem_cons_self)).2 hb0
  unfold bestLabel
  rw [List.foldl_cons, if_pos hfirst, hstay scores fun s' hs' => h s' (List.mem_cons_of_mem s hs')]

/-! ## Shares -/

variable {total x y : Float} {s a b : EReal}

theorem total_pos_iff (ht : Denotes total s) : total > 0.0 ↔ 0 < s := lt_iff_lt denotes_zero ht

/-- The share of a score in a sum that is at least as great. -/
theorem denotes_share (ht : Denotes total s) (hx : Within 0 1 x) (ha : Denotes x a) :
    Denotes (share total x) (if 0 < s then rounded (a / s) else a) := by
  unfold share
  by_cases h : 0 < s
  · obtain ⟨a', ha', h0, h1⟩ := hx
    obtain rfl := ha.unique ha'
    rw [if_pos ((total_pos_iff ht).2 h), if_pos h]
    exact denotes_div ha ht h.ne' (.inl ⟨ne_top_of_le_ne_top (EReal.coe_ne_top 1) h1,
      ne_bot_of_le_ne_bot EReal.zero_ne_bot h0⟩)
  · rw [if_neg (mt (total_pos_iff ht).1 h), if_neg h]
    exact ha

/-- A quotient by something at least as great, which may be infinite. -/
theorem rounded_div_le_one {a b : EReal} (hb : 0 < b) (hab : a ≤ b) : rounded (a / b) ≤ 1 := by
  conv_rhs => rw [← rounded_one]
  refine rounded_mono ?_
  rcases eq_or_ne b ⊤ with rfl | htop
  · rw [EReal.div_top]
    exact zero_le_one
  · rw [EReal.div_le_iff_le_mul hb htop, mul_one]
    exact hab

theorem within_share (ht : Denotes total s) (hx : Within 0 1 x) (ha : Denotes x a) (hle : a ≤ s) :
    Within 0 1 (share total x) := by
  have hshare := denotes_share ht hx ha
  obtain ⟨a', ha', h0, h1⟩ := hx
  obtain rfl := ha.unique ha'
  refine ⟨_, hshare, ?_, ?_⟩
  · split
    · rename_i h
      exact rounded_nonneg (EReal.div_nonneg h0 h.le)
    · exact h0
  · split
    · rename_i h
      exact rounded_div_le_one h hle
    · exact h1

theorem share_mono (ht : Denotes total s) (hx : Within 0 1 x) (hy : Within 0 1 y)
    (ha : Denotes x a) (hb : Denotes y b) (hab : a ≤ b) : share total x ≤ share total y := by
  refine (le_iff_le (denotes_share ht hx ha) (denotes_share ht hy hb)).2 ?_
  split
  · rename_i h
    exact rounded_mono (EReal.div_le_div_right_of_nonneg h.le hab)
  · exact hab

/-- Of scores from zero to one, the shares in their sum lie there as well. -/
theorem within_share_of_mem {xs : List Float} (h : ∀ y ∈ xs, Within 0 1 y) (hx : x ∈ xs) :
    Within 0 1 (share (sumFloats xs) x) := by
  have hxs : ∀ y ∈ xs, Within 0 ⊤ y := fun y hy => (h y hy).mono le_rfl le_top
  obtain ⟨s, hs, -, -⟩ := within_sumFloats hxs
  obtain ⟨a, ha⟩ := exists_denotes (h x hx).isNaN_eq
  exact within_share hs (h x hx) ha (le_sumFloats hxs hs hx ha)

theorem share_le_share {xs : List Float} (h : ∀ y ∈ xs, Within 0 1 y) (hx : x ∈ xs) (hy : y ∈ xs)
    (hxy : x ≤ y) : share (sumFloats xs) x ≤ share (sumFloats xs) y := by
  obtain ⟨s, hs, -, -⟩ := within_sumFloats fun z hz => (h z hz).mono le_rfl le_top
  obtain ⟨a, ha⟩ := exists_denotes (h x hx).isNaN_eq
  obtain ⟨b, hb⟩ := exists_denotes (h y hy).isNaN_eq
  exact share_mono hs (h x hx) (h y hy) ha hb ((le_iff_le ha hb).1 hxy)

/-! ## Answers -/

variable {c : Classifier} {f : Fingerprint}

theorem entries_ne_nil (ht : c.isTrained = true) : c.centroids.entries ≠ [] := by
  unfold isTrained OrderedMap.isEmpty at ht
  simpa using ht

theorem fst_mem_labels {s : String × Float} (hs : s ∈ c.scores f) : s.1 ∈ c.labels := by
  obtain ⟨e, he, rfl⟩ := List.mem_map.1 hs
  exact List.mem_map_of_mem he

theorem predictFingerprint_eq_ok_iff {label : String} : c.predictFingerprint f = .ok label ↔
    c.isTrained = true ∧ bestLabel (c.scores f) = label := by
  unfold predictFingerprint whenTrained
  split
  · rename_i h
    rw [Except.ok.injEq, and_iff_right h]
  · rename_i h
    simp [h]

theorem confidencesFor_eq (ht : c.isTrained = true) (f : Fingerprint) :
    c.confidencesFor f = .ok (c.shares f) := by
  unfold confidencesFor whenTrained
  rw [if_pos ht]

theorem mem_values_shares_iff {x : Float} : x ∈ (c.shares f).values ↔
    ∃ s ∈ c.scores f, x = share (sumFloats ((c.scores f).map (·.2))) s.2 := by
  simp [shares, OrderedMap.values, OrderedMap.mapValues, scores, eq_comm]

end Classifier

end AsmOrigin
