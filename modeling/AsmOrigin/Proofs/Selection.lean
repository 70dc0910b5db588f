import AsmOrigin.Proofs.ByteOrder
import AsmOrigin.Proofs.QueryPaths

/-!
Which label a fingerprint is given.

It is the label with the greatest similarity among those that are numbers, and of several such labels the
one whose bytes come first.  Only where no similarity is a number is it the empty text
(`predictFingerprint_by_similarity`).
-/

namespace AsmOrigin.Classifier

open Binary64

variable {c : Classifier} {f : Fingerprint} {label : String}

/-- The label is known, its similarity to the fingerprint is a number, and no other label with such a
similarity has a greater one. -/
def MostSimilar (c : Classifier) (f : Fingerprint) (label : String) : Prop :=
  ∃ g, c.centroids.get? label = some g ∧ (similarity f g).isNaN = false ∧
    ∀ k h, c.centroids.get? k = some h → (similarity f h).isNaN = false →
      similarity f h ≤ similarity f g

theorem eq_or_utf8_lt_of_le {k l : String} (h : k ≤ l) : l = k ∨ utf8 k < utf8 l := by
  by_cases hlt : k < l
  · exact .inr (utf8_lt_utf8_iff.2 hlt)
  · exact .inl (String.le_antisymm (String.not_lt.1 hlt) h)

/-- Winning is being most similar, ahead of all other labels that are. -/
theorem Wins.mostSimilar {s : String × Float} (h : Wins (c.scores f) s) :
    c.MostSimilar f s.1 ∧ ∀ k, c.MostSimilar f k → k = s.1 ∨ utf8 s.1 < utf8 k := by
  obtain ⟨g, hg, hs⟩ := mem_scores_iff.1 h.mem
  have hnum : (similarity f g).isNaN = false := hs ▸ h.isNaN_eq
  refine ⟨⟨g, hg, hnum, fun k g' hg' hnum' => ?_⟩, fun k ⟨g', hg', _, hmax⟩ => ?_⟩
  · have hnot := h.greatest (k, similarity f g') (mem_scores_iff.2 ⟨g', hg', rfl⟩)
    rw [hs] at hnot
    exact le_of_not_lt_of_number hnum hnum' hnot
  · refine eq_or_utf8_lt_of_le (h.first (k, similarity f g') (mem_scores_iff.2 ⟨g', hg', rfl⟩) ?_)
    rw [hs]
    exact hmax s.1 g hg hnum

theorem similarity_of_size_ne {g : Fingerprint} (h : g.size ≠ f.size) : similarity f g = 0.0 :=
  if_neg (Ne.symm h)

/-- A most similar label of another size than the fingerprint leaves no label with a positive
similarity. -/
theorem MostSimilar.not_pos {g : Fingerprint} (h : c.MostSimilar f label)
    (hg : c.centroids.get? label = some g) (hsize : g.size ≠ f.size) {k : String} {g' : Fingerprint}
    (hg' : c.centroids.get? k = some g') : ¬ 0.0 < similarity f g' := by
  obtain ⟨g₀, hg₀, -, hmax⟩ := h
  obtain rfl : g₀ = g := Option.some.inj (hg₀.symm.trans hg)
  cases hnum : (similarity f g').isNaN with
  | true => exact not_lt_of_isNaN (.inr hnum)
  | false =>
    have hle := hmax k g' hg' hnum
    rw [similarity_of_size_ne hsize] at hle
    obtain ⟨a, ha⟩ := exists_denotes hnum
    rw [lt_iff_lt denotes_zero ha]
    exact ((le_iff_le ha denotes_zero).1 hle).not_gt

/-- A trained classifier gives every fingerprint, whatever its slots hold, the first label in byte order
of those with the greatest similarity that is a number, and the empty text if no similarity is a number.
A label of another size than the fingerprint is given only if no label has a positive similarity. -/
theorem predictFingerprint_by_similarity (c : Classifier) (f : Fingerprint)
    (ht : c.isTrained = true) :
    ∃ label, c.predictFingerprint f = .ok label ∧
      ((∃ k g, c.centroids.get? k = some g ∧ (similarity f g).isNaN = false) →
        c.MostSimilar f label ∧ ∀ k, c.MostSimilar f k → k = label ∨ utf8 label < utf8 k) ∧
      ((∀ k g, c.centroids.get? k = some g → (similarity f g).isNaN = true) → label = "") ∧
      ∀ g, c.centroids.get? label = some g → g.size ≠ f.size →
        ∀ k g', c.centroids.get? k = some g' → ¬ 0.0 < similarity f g' := by
  refine ⟨bestLabel (c.scores f), predictFingerprint_eq_ok_iff.2 ⟨ht, rfl⟩, ?_⟩
  obtain ⟨s, hs, hbest⟩ | ⟨hnan, hbest⟩ := bestLabel_scores_cases c f
  · rw [hbest]
    obtain ⟨hmost, hfirst⟩ := hs.mostSimilar
    refine ⟨fun _ => ⟨hmost, hfirst⟩, fun hall => ?_, fun g hg hsize k g' hg' =>
      hmost.not_pos hg hsize hg'⟩
    obtain ⟨g, hg, hnum, -⟩ := hmost
    exact absurd (hall s.1 g hg) (Bool.eq_false_iff.1 hnum)
  · rw [hbest]
    have hall : ∀ k g, c.centroids.get? k = some g → (similarity f g).isNaN = true := fun k g hg =>
      hnan (k, similarity f g) (mem_scores_iff.2 ⟨g, hg, rfl⟩)
    refine ⟨?_, fun _ => rfl, fun g hg hsize => ?_⟩
    · rintro ⟨k, g, hg, hnum⟩
      exact absurd (hall k g hg) (Bool.eq_false_iff.1 hnum)
    · -- the empty text may be a known label, but sizes that differ give a number
      have hzero := hall "" g hg
      rw [similarity_of_size_ne hsize] at hzero
      exact absurd hzero (by decide)

/-- A tie between labels around one that is not a number and one of another size. -/
theorem predictFingerprint_of_a_tie :
    let c : Classifier := ⟨.substring, .ofList [("go", ⟨[3.0]⟩), ("c", ⟨[0.0 / 0.0]⟩), ("rust", ⟨[1.0]⟩),
      ("d", ⟨[2.0, 2.0]⟩)]⟩
    c.isTrained = true ∧ c.predictFingerprint ⟨[2.0]⟩ = .ok "go" ∧
      c.MostSimilar ⟨[2.0]⟩ "go" ∧ ∀ k, c.MostSimilar ⟨[2.0]⟩ k → k = "go" ∨ utf8 "go" < utf8 k := by
  intro c
  have ht : c.isTrained = true := by decide +kernel
  have hlabel : c.predictFingerprint ⟨[2.0]⟩ = .ok "go" := by decide +kernel
  have hget : c.centroids.get? "go" = some ⟨[3.0]⟩ := by decide +kernel
  obtain ⟨label, hpredict, hmost, -⟩ := predictFingerprint_by_similarity c ⟨[2.0]⟩ ht
  obtain rfl : "go" = label := Except.ok.inj (hlabel.symm.trans hpredict)
  exact ⟨ht, hlabel, hmost ⟨"go", _, hget, by decide +kernel⟩⟩

end AsmOrigin.Classifier
