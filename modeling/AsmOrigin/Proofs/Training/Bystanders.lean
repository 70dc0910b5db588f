import AsmOrigin.Proofs.QueryPaths
import AsmOrigin.Proofs.Training.Runs

/-!
Labels that a batch does not hold.

A batch changes the scores of its own labels only (`mem_scores_after_iff`).  If scores change under some
labels only and the best label is not one of them, the next best label is the same one or one of those
(`bestLabel_bystander`): retraining other labels never brings forward a third one.
-/

namespace AsmOrigin

open Binary64

namespace Classifier

/-! ## Two rankings -/

/-- Of two winners that both lists hold neither is ahead. -/
theorem Wins.fst_eq {scores scores' : List (String × Float)} {s s' : String × Float}
    (h : Wins scores s) (h' : Wins scores' s') (hs : s ∈ scores') (hs' : s' ∈ scores) :
    s.1 = s'.1 := by
  have hle : s.2 ≤ s'.2 := le_of_not_lt_of_number h'.isNaN_eq h.isNaN_eq (h'.greatest s hs)
  have hge : s'.2 ≤ s.2 := le_of_not_lt_of_number h.isNaN_eq h'.isNaN_eq (h.greatest s' hs')
  exact String.le_antisymm (h.first s' hs' hle) (h'.first s hs hge)

/-- What comes to the front when scores change under some labels only: the best label of before, unless
it is one of those, or one of those. -/
theorem bestLabel_bystander {c d : Classifier} {f : Fingerprint} {changed : List String}
    (hsame : ∀ s : String × Float, s.1 ∉ changed → (s ∈ d.scores f ↔ s ∈ c.scores f))
    (hnot : bestLabel (c.scores f) ∉ changed) :
    bestLabel (d.scores f) = bestLabel (c.scores f) ∨ bestLabel (d.scores f) ∈ changed := by
  obtain ⟨s, hs, hc⟩ | ⟨hc, hcnone⟩ := bestLabel_scores_cases c f
  · rw [hc] at hnot ⊢
    have hsd := (hsame s hnot).2 hs.mem
    obtain ⟨s', hs', hd⟩ | ⟨hd, -⟩ := bestLabel_scores_cases d f
    · rw [hd]
      by_cases hmem : s'.1 ∈ changed
      · exact .inr hmem
      · exact .inl (hs'.fst_eq hs ((hsame s' hmem).1 hs'.mem) hsd)
    · exact absurd (hd s hsd) (Bool.eq_false_iff.1 hs.isNaN_eq)
  · -- nothing was a number before, so only a changed score can be one now
    obtain ⟨s', hs', hd⟩ | ⟨-, hdnone⟩ := bestLabel_scores_cases d f
    · rw [hd]
      by_cases hmem : s'.1 ∈ changed
      · exact .inr hmem
      · have hnan := hc s' ((hsame s' hmem).1 hs'.mem)
        exact absurd hnan (Bool.eq_false_iff.1 hs'.isNaN_eq)
    · exact .inl (hdnone.trans hcnone.symm)

/-! ## Retraining -/

variable {c : Classifier} {t : TrainingSet} {f : Fingerprint}

/-- Scores of labels outside the batch are what they were. -/
theorem mem_scores_after_iff (c : Classifier) (t : TrainingSet) (f : Fingerprint)
    {s : String × Float} (hs : s.1 ∉ t.labels) :
    s ∈ (after (trainInPlace t) c).scores f ↔ s ∈ c.scores f := by
  obtain ⟨label, x⟩ := s
  simp only [mem_scores_iff, get?_after, if_neg fun h : t.Accepted ∧ label ∈ t.labels => hs h.2]

theorem isTrained_after (h : c.isTrained = true) (t : TrainingSet) :
    (after (trainInPlace t) c).isTrained = true := by
  rw [isTrained_iff] at h ⊢
  obtain ⟨label, hlabel⟩ := h
  refine ⟨label, ?_⟩
  rw [get?_after]
  split
  · rfl
  · exact hlabel

/-- After a batch that does not hold the label that a fingerprint is given, the fingerprint is given the
same label or one that the batch holds, also if it was given no known label.  A refused batch changes
nothing. -/
theorem prediction_after_retraining_others (c : Classifier) (f : Fingerprint) (t : TrainingSet)
    (label : String) (hlabel : c.predictFingerprint f = .ok label) (hnot : label ∉ t.labels) :
    ∃ label', (after (trainInPlace t) c).predictFingerprint f = .ok label' ∧
      (label' = label ∨ label' ∈ t.labels) := by
  obtain ⟨htrained, rfl⟩ := predictFingerprint_eq_ok_iff.1 hlabel
  refine ⟨_, predictFingerprint_eq_ok_iff.2 ⟨isTrained_after htrained t, rfl⟩, ?_⟩
  exact bestLabel_bystander (fun s hs => mem_scores_after_iff c t f hs) hnot

/-- A batch moves the centroid of one label away and that of another into a tie with the label answered,
which comes second by name. -/
theorem prediction_after_a_batch_that_ties :
    let c := after (trainInPlace ⟨[⟨[9.0]⟩, ⟨[2.0]⟩, ⟨[5.0]⟩], ["c", "go", "rust"]⟩)
      (untrained .substring)
    let t : TrainingSet := ⟨[⟨[2.0]⟩, ⟨[7.0]⟩], ["c", "rust"]⟩
    c.predictFingerprint ⟨[1.0]⟩ = .ok "go" ∧ "go" ∉ t.labels ∧
      ∃ label', (after (trainInPlace t) c).predictFingerprint ⟨[1.0]⟩ = .ok label' ∧
        (label' = "go" ∨ label' ∈ t.labels) := by
  intro c t
  have hlabel : c.predictFingerprint ⟨[1.0]⟩ = .ok "go" := by decide +kernel
  have hnot : "go" ∉ t.labels := by decide
  exact ⟨hlabel, hnot, prediction_after_retraining_others c ⟨[1.0]⟩ t "go" hlabel hnot⟩

end Classifier

end AsmOrigin
