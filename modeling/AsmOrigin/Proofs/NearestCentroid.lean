import AsmOrigin.Proofs.Selection
import AsmOrigin.Proofs.Similarity.WholeNumbers

/-!
Whole fingerprints are given the nearest label.

Between whole numbers the similarity orders centroids as their exact distances do, so the label that is
answered is the first of those with an exactly nearest centroid (`bestLabel_of_isWhole`).
-/

namespace AsmOrigin

open Binary64

namespace Classifier

variable {c : Classifier} {f g : Fingerprint} {label : String}

/-- The label's centroid is at the least exact distance from the fingerprint. -/
def Nearest (c : Classifier) (f : Fingerprint) (label : String) : Prop :=
  ∃ g, c.centroids.get? label = some g ∧
    ∀ k h, c.centroids.get? k = some h → squaredDistance f g ≤ squaredDistance f h

/-- All centroids are whole and comparable with the fingerprint. -/
def WholeAround (c : Classifier) (f : Fingerprint) : Prop :=
  ∀ label g, c.centroids.get? label = some g → WholeNear f g

/-- Winning is being nearest, ahead of all other labels that are. -/
theorem Wins.nearest {s : String × Float} (hf : f.IsWhole) (hc : c.WholeAround f)
    (h : Wins (c.scores f) s) :
    c.Nearest f s.1 ∧ ∀ k, c.Nearest f k → k = s.1 ∨ utf8 s.1 < utf8 k := by
  obtain ⟨g, hg, hs⟩ := mem_scores_iff.1 h.mem
  refine ⟨⟨g, hg, fun k g' hg' => ?_⟩, fun k ⟨g', hg', hmin⟩ => ?_⟩
  · by_contra hlt
    refine h.greatest (k, similarity f g') (mem_scores_iff.2 ⟨g', hg', rfl⟩) ?_
    rw [hs]
    exact (hc k g' hg').similarity_lt (hc s.1 g hg) hf (not_le.1 hlt)
  · refine eq_or_utf8_lt_of_le (h.first (k, similarity f g') (mem_scores_iff.2 ⟨g', hg', rfl⟩) ?_)
    rw [hs]
    exact (hc k g' hg').similarity_le (hc s.1 g hg) hf (hmin s.1 g hg)

theorem bestLabel_of_isWhole (ht : c.isTrained = true) (hf : f.IsWhole) (hc : c.WholeAround f) :
    c.Nearest f (bestLabel (c.scores f)) ∧
      ∀ k, c.Nearest f k → k = bestLabel (c.scores f) ∨ utf8 (bestLabel (c.scores f)) < utf8 k := by
  obtain ⟨s, hs, hbest⟩ | ⟨hnan, -⟩ := bestLabel_scores_cases c f
  · rw [hbest]
    exact hs.nearest hf hc
  · obtain ⟨⟨k, g⟩, hmem⟩ := List.exists_mem_of_ne_nil _ (entries_ne_nil ht)
    have hg : c.centroids.get? k = some g := (OrderedMap.mem_entries_iff _ k g).1 hmem
    have hnumber := ((hc k g hg).denotes_similarity hf).1
    have hnone := hnan (k, similarity f g) (mem_scores_iff.2 ⟨g, hg, rfl⟩)
    rw [hnumber] at hnone
    cases hnone

/-- A fingerprint that is one label's centroid, and no other label's, has that label as the nearest. -/
theorem eq_of_nearest_of_equalSlots (hf : f.IsWhole) (hc : c.WholeAround f)
    (hg : c.centroids.get? label = some g) (hequal : f.EqualSlots g)
    (honly : ∀ k h, c.centroids.get? k = some h → f.EqualSlots h → k = label) {k : String}
    (hk : c.Nearest f k) : k = label := by
  obtain ⟨h, hh, hmin⟩ := hk
  have hzero {k : String} {h : Fingerprint} (hk : c.centroids.get? k = some h) :
      squaredDistance f h = 0 ↔ f.EqualSlots h :=
    squaredDistance_eq_zero_iff (hc k h hk).size_eq hf (hc k h hk).whole
  have hle := hmin label g hg
  rw [(hzero hg).2 hequal] at hle
  exact honly k h hh ((hzero hh).1 (le_antisymm hle (squaredDistance_nonneg f h)))

/-- Similarities never misorder whole numbers of realistic size.  Of two fingerprints at different exact
distances from a third one, the nearer is strictly more similar, however many slots they have.  A trained
classifier with whole centroids of the fingerprint's size therefore answers the first label in byte order
of those exactly nearest to it, and the label whose centroid the fingerprint is if there is only one. -/
theorem whole_fingerprints_by_distance :
    (∀ a b b' : Fingerprint, a.size = b.size → a.size = b'.size →
      a.IsWhole → b.IsWhole → b'.IsWhole →
      squaredDistance a b < squaredDistance a b' → squaredDistance a b' ≤ 2 ^ 40 →
        similarity a b' < similarity a b) ∧
    ∀ (c : Classifier) (f : Fingerprint), c.isTrained = true → f.IsWhole → c.WholeAround f →
      ∃ label, c.predictFingerprint f = .ok label ∧ c.Nearest f label ∧
        (∀ k, c.Nearest f k → k = label ∨ utf8 label < utf8 k) ∧
        ∀ k g, c.centroids.get? k = some g → f.EqualSlots g →
          (∀ l h, c.centroids.get? l = some h → f.EqualSlots h → l = k) → label = k := by
  constructor
  · intro a b b' hb hb' hwa hwb hwb' hlt hle
    have hnear : WholeNear a b := ⟨hb, hwb, hlt.le.trans hle⟩
    exact hnear.similarity_lt ⟨hb', hwb', hle⟩ hwa hlt
  · intro c f ht hf hc
    obtain ⟨hnearest, hfirst⟩ := bestLabel_of_isWhole ht hf hc
    refine ⟨bestLabel (c.scores f), if_pos ht, hnearest, hfirst, ?_⟩
    intro k g hg hequal honly
    exact eq_of_nearest_of_equalSlots hf hc hg hequal honly hnearest

/-- One slot with a count in it. -/
def oneCount (n : Nat) : Fingerprint := ⟨[ofCount n]⟩

theorem size_oneCount (n : Nat) : (oneCount n).size = 1 := rfl

theorem isWhole_oneCount {n : Nat} (h : n ≤ 2 ^ 53) : (oneCount n).IsWhole := by
  intro x hx
  rw [List.mem_singleton.1 hx]
  exact isWhole_ofCount h

theorem squaredDistance_oneCount {m n : Nat} (hm : m ≤ 2 ^ 53) (hn : n ≤ 2 ^ 53) :
    squaredDistance (oneCount m) (oneCount n) = ((m : ℝ) - n) ^ 2 := by
  show [(value (ofCount m) - value (ofCount n)) ^ 2].sum = _
  rw [value_ofCount hm, value_ofCount hn, List.sum_singleton]

/-- Two centroids at one distance, on either side of the fingerprint. -/
theorem whole_fingerprints_by_distance_in_a_tie :
    let c : Classifier := ⟨.substring, .ofList [("rust", oneCount 5), ("go", oneCount 1)]⟩
    c.isTrained = true ∧ (oneCount 3).IsWhole ∧ c.WholeAround (oneCount 3) ∧
      c.predictFingerprint (oneCount 3) = .ok "go" ∧ c.Nearest (oneCount 3) "go" ∧
      (∀ k, c.Nearest (oneCount 3) k → k = "go" ∨ utf8 "go" < utf8 k) ∧
      similarity (oneCount 3) (oneCount 7) < similarity (oneCount 3) (oneCount 1) := by
  intro c
  have ht : c.isTrained = true := by decide +kernel
  have hwhole : ∀ n ≤ 9, (oneCount n).IsWhole := fun n hn => isWhole_oneCount (hn.trans (by norm_num))
  have hdistance : ∀ n ≤ 9, squaredDistance (oneCount 3) (oneCount n) = (3 - n) ^ 2 := fun n hn =>
    squaredDistance_oneCount (by norm_num) (hn.trans (by norm_num))
  have hc : c.WholeAround (oneCount 3) := by
    intro label g hg
    have hmem : (label, g) ∈ [("rust", oneCount 5), ("go", oneCount 1)] :=
      (OrderedMap.mem_or_of_get?_foldl_insert hg).resolve_right (by simp)
    obtain ⟨n, hn, rfl⟩ : ∃ n ≤ 5, g = oneCount n := by
      simp only [List.mem_cons, Prod.mk.injEq, List.not_mem_nil, or_false] at hmem
      rcases hmem with ⟨-, rfl⟩ | ⟨-, rfl⟩
      · exact ⟨5, by norm_num, rfl⟩
      · exact ⟨1, by norm_num, rfl⟩
    refine ⟨(size_oneCount 3).trans (size_oneCount n).symm, hwhole n (by omega), ?_⟩
    have hn' : (n : ℝ) ≤ 5 := by exact_mod_cast hn
    rw [hdistance n (by omega)]
    nlinarith [n.cast_nonneg (α := ℝ)]
  have hpredict : c.predictFingerprint (oneCount 3) = .ok "go" := by decide +kernel
  obtain ⟨hordered, hanswered⟩ := whole_fingerprints_by_distance
  obtain ⟨label, hlabel, hnearest, hfirst, -⟩ := hanswered c _ ht (hwhole 3 (by norm_num)) hc
  obtain rfl : "go" = label := Except.ok.inj (hpredict.symm.trans hlabel)
  refine ⟨ht, hwhole 3 (by norm_num), hc, hpredict, hnearest, hfirst, ?_⟩
  apply hordered (oneCount 3) (oneCount 1) (oneCount 7)
    ((size_oneCount 3).trans (size_oneCount 1).symm) ((size_oneCount 3).trans (size_oneCount 7).symm)
    (hwhole 3 (by norm_num)) (hwhole 1 (by norm_num)) (hwhole 7 (by norm_num))
  · rw [hdistance 1 (by norm_num), hdistance 7 (by norm_num)]
    norm_num
  · rw [hdistance 7 (by norm_num)]
    norm_num

end Classifier

end AsmOrigin
