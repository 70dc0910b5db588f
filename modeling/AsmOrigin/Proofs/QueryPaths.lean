import AsmOrigin.Proofs.Queries

/-!
One query, asked in several ways.

Whatever the centroids and the fingerprint hold, the label that is answered has the greatest share: the
winner among the scores stays ahead when all of them are divided by one sum (`not_lt_share`).  All ways
to ask therefore answer alike, from a listing or from its fingerprint (`query_paths_agree`).
-/

namespace AsmOrigin

open Binary64

namespace Classifier

variable {c : Classifier} {f : Fingerprint} {scores : List (String × Float)}

/-! ## Scores -/

theorem pairwise_scores (c : Classifier) (f : Fingerprint) :
    (c.scores f).Pairwise fun s s' => s.1 < s'.1 :=
  List.pairwise_map.2 c.centroids.ascending

theorem isNaN_or_within_scores {s : String × Float} (hs : s ∈ c.scores f) :
    s.2.isNaN = true ∨ Within 0 1 s.2 := by
  obtain ⟨e, -, rfl⟩ := List.mem_map.1 hs
  exact isNaN_or_within_similarity f e.2

theorem mem_scores_iff {label : String} {x : Float} : (label, x) ∈ c.scores f ↔
    ∃ g, c.centroids.get? label = some g ∧ x = similarity f g := by
  simp only [scores, List.mem_map, Prod.mk.injEq]
  constructor
  · rintro ⟨⟨k, g⟩, he, rfl, rfl⟩
    exact ⟨g, (OrderedMap.mem_entries_iff _ _ _).1 he, rfl⟩
  · rintro ⟨g, hg, rfl⟩
    exact ⟨(label, g), (OrderedMap.mem_entries_iff _ _ _).2 hg, rfl, rfl⟩

/-- What a fingerprint is answered, by the label that wins or because it has no score at all. -/
theorem bestLabel_scores_cases (c : Classifier) (f : Fingerprint) :
    (∃ s, Wins (c.scores f) s ∧ bestLabel (c.scores f) = s.1) ∨
      (∀ s ∈ c.scores f, s.2.isNaN = true) ∧ bestLabel (c.scores f) = "" :=
  bestLabel_cases (pairwise_scores c f) fun _ hs =>
    (isNaN_or_within_scores hs).imp_right fun h => h.mono le_rfl le_top

/-- No score exceeds that of the label answered. -/
theorem not_lt_of_bestLabel {x : Float} (hx : (bestLabel (c.scores f), x) ∈ c.scores f) :
    ∀ s ∈ c.scores f, ¬ x < s.2 := by
  intro s hs
  obtain ⟨w, hw, hbest⟩ | ⟨hnan, -⟩ := bestLabel_scores_cases c f
  · obtain ⟨g, hg, rfl⟩ := mem_scores_iff.1 hx
    obtain ⟨g', hg', hsim⟩ := mem_scores_iff.1 hw.mem
    rw [hbest, hg', Option.some.injEq] at hg
    rw [← hg, ← hsim]
    exact hw.greatest s hs
  · have hn : x.isNaN = true := hnan (_, x) hx
    exact not_lt_of_isNaN (.inl hn)

/-! ## Shares -/

/-- The scores as shares of their sum, put under their labels one after another. -/
def normalized (scores : List (String × Float)) : OrderedMap Float :=
  .ofList (scores.map fun s => (s.1, share (sumFloats (scores.map (·.2))) s.2))

/-- No label is lost or merged when the shares are put under their labels. -/
theorem shares_eq_normalized (c : Classifier) (f : Fingerprint) :
    c.shares f = normalized (c.scores f) := by
  rw [← OrderedMap.ofList_entries (c.shares f)]
  unfold normalized shares OrderedMap.mapValues
  simp [scores, Function.comp_def]

/-- Dividing by the sum does not reorder scores; nothing is divided where the sum is not a number. -/
theorem not_lt_share (h : ∀ s ∈ scores, s.2.isNaN = true ∨ Within 0 1 s.2) {x y : Float}
    (hx : x ∈ scores.map (·.2)) (hy : y ∈ scores.map (·.2)) (hxy : ¬ x < y) :
    ¬ share (sumFloats (scores.map (·.2))) x < share (sumFloats (scores.map (·.2))) y := by
  have hscore : ∀ z ∈ scores.map (·.2), z.isNaN = true ∨ Within 0 1 z := List.forall_mem_map.2 h
  generalize scores.map (·.2) = zs at *
  cases htotal : (sumFloats zs).isNaN with
  | true =>
    have hnot : ¬ sumFloats zs > 0.0 := not_lt_of_isNaN (.inr htotal)
    unfold share
    rwa [if_neg hnot, if_neg hnot]
  | false =>
    -- where the sum is a number, so are all scores
    have hnum : ∀ z ∈ zs, Within 0 1 z := fun z hz => (hscore z hz).resolve_left fun hn => by
      rw [isNaN_sumFloats hz hn] at htotal
      cases htotal
    obtain ⟨t, ht⟩ := exists_denotes htotal
    obtain ⟨a, ha⟩ := exists_denotes (hnum x hx).isNaN_eq
    obtain ⟨b, hb⟩ := exists_denotes (hnum y hy).isNaN_eq
    have hba : b ≤ a := not_lt.1 (mt (lt_iff_lt ha hb).2 hxy)
    have hsx := denotes_share ht (hnum x hx) ha
    have hsy := denotes_share ht (hnum y hy) hb
    have hle := (le_iff_le hsy hsx).1 (share_mono ht (hnum y hy) (hnum x hx) hb ha hba)
    exact fun hlt => hle.not_gt ((lt_iff_lt hsx hsy).1 hlt)

/-- A known label that is answered has its share under it, and no share exceeds it. -/
theorem confidence_of_known {label : String} (hbest : bestLabel (c.scores f) = label)
    (hknown : label ∈ c.labels) :
    (c.shares f).get? label = some (Prediction.confidence ⟨label, c.shares f⟩) ∧
      ∀ x ∈ (c.shares f).values, ¬ Prediction.confidence ⟨label, c.shares f⟩ < x := by
  obtain ⟨g, hg⟩ := Option.isSome_iff_exists.1 ((OrderedMap.mem_keys_iff _ _).1 hknown)
  have hscore : (label, similarity f g) ∈ c.scores f := mem_scores_iff.2 ⟨g, hg, rfl⟩
  have hget : (c.shares f).get? label =
      some (share (sumFloats ((c.scores f).map (·.2))) (similarity f g)) := by
    unfold shares
    rw [OrderedMap.get?_mapValues, hg, Option.map_some]
  have hconfidence : Prediction.confidence ⟨label, c.shares f⟩ =
      share (sumFloats ((c.scores f).map (·.2))) (similarity f g) := by
    unfold Prediction.confidence
    rw [hget, Option.getD_some]
  rw [hconfidence]
  refine ⟨hget, fun x hx => ?_⟩
  obtain ⟨s, hs, rfl⟩ := mem_values_shares_iff.1 hx
  exact not_lt_share (fun r hr => isNaN_or_within_scores hr) (List.mem_map_of_mem hscore)
    (List.mem_map_of_mem hs) (not_lt_of_bestLabel (hbest ▸ hscore) s hs)

/-! ## Ways to ask -/

theorem whenTrained_eq {α : Type} (c : Classifier) (answer : α) :
    c.whenTrained answer = if c.centroids.entries = [] then .error .untrained else .ok answer := by
  unfold whenTrained isTrained OrderedMap.isEmpty
  cases c.centroids.entries <;> rfl

/-- Either no centroid is stored and every query fails, or some are and all queries are answered: the
label, the confidences and both together are those of the listing's fingerprint.  The confidences have
the known labels as their keys; if the label answered is a known one, its confidence is one of them and
none exceeds it. -/
theorem query_paths_agree (c : Classifier) (listing : String) :
    (c.centroids.entries = [] ∧
      c.predict listing = .error .untrained ∧ c.confidences listing = .error .untrained ∧
      c.classify listing = .error .untrained ∧
      c.predictFingerprint (c.extract listing) = .error .untrained ∧
      c.confidencesFor (c.extract listing) = .error .untrained) ∨
    (c.centroids.entries ≠ [] ∧ ∃ p : Prediction,
      c.classify listing = .ok p ∧
      c.predict listing = .ok p.label ∧ c.predictFingerprint (c.extract listing) = .ok p.label ∧
      c.confidences listing = .ok p.confidences ∧
      c.confidencesFor (c.extract listing) = .ok p.confidences ∧
      p.confidences = normalized (c.scores (c.extract listing)) ∧ p.confidences.keys = c.labels ∧
      (p.label ∈ c.labels → p.confidences.get? p.label = some p.confidence ∧
        ∀ x ∈ p.confidences.values, ¬ p.confidence < x)) := by
  by_cases hnil : c.centroids.entries = []
  · have hfail : ∀ {α : Type} (a : α), c.whenTrained a = .error .untrained := fun a => by
      rw [whenTrained_eq, if_pos hnil]
    exact .inl ⟨hnil, hfail _, hfail _, hfail _, hfail _, hfail _⟩
  · have hanswer : ∀ {α : Type} (a : α), c.whenTrained a = .ok a := fun a => by
      rw [whenTrained_eq, if_neg hnil]
    exact .inr ⟨hnil, ⟨bestLabel (c.scores (c.extract listing)), c.shares (c.extract listing)⟩,
      hanswer _, hanswer _, hanswer _, hanswer _, hanswer _, shares_eq_normalized _ _,
      OrderedMap.keys_mapValues _ _, confidence_of_known rfl⟩

end Classifier

end AsmOrigin
