import AsmOrigin.Proofs.Training.Reachable

/-!
Classifiers trained on listings answer with positive confidences.

The slots of a listing's fingerprint are counts up to 2⁶⁸, so a batch of listings is always accepted and
its means stay below 2¹²¹, however many listings there are (`bounded_after_ofSamples`).  Similarities
are then at least 2⁻¹⁴⁹ and their sum at most 2⁵³, which keeps every confidence above zero
(`classify_ranks`).
-/

namespace AsmOrigin

open Binary64 TrainingSet

/-- A prediction over these labels, one of which it names: every confidence is a positive number up to
one, and none is greater than that of the named label. -/
structure Prediction.Ranks (p : Prediction) (labels : List String) : Prop where
  mem_keys_iff : ∀ label, label ∈ p.confidences.keys ↔ label ∈ labels
  label_mem : p.label ∈ labels
  isNaN_eq : ∀ x ∈ p.confidences.values, x.isNaN = false
  pos : ∀ x ∈ p.confidences.values, 0.0 < x
  le_one : ∀ x ∈ p.confidences.values, x ≤ 1.0
  le_confidence : ∀ x ∈ p.confidences.values, x ≤ p.confidence

/-- The order and the number of the labels do not matter. -/
theorem Prediction.Ranks.congr {p : Prediction} {labels labels' : List String} (h : p.Ranks labels)
    (hlabels : ∀ label, label ∈ labels ↔ label ∈ labels') : p.Ranks labels' :=
  ⟨fun label => (h.mem_keys_iff label).trans (hlabels label), (hlabels _).1 h.label_mem,
    h.isNaN_eq, h.pos, h.le_one, h.le_confidence⟩

namespace Classifier

/-! ## Bounded centroids -/

/-- Every centroid has so many slots, none of them negative or above 2ᵏ. -/
def Bounded (c : Classifier) (size : Nat) (k : ℤ) : Prop :=
  ∀ label g, c.centroids.get? label = some g → g.size = size ∧ ∀ y ∈ g.slots, Within 0 (twoPow k) y

variable {c : Classifier} {f : Fingerprint} {size : Nat} {k : ℤ}

theorem within_scores_of_le (hk : 0 ≤ k) (hk' : k < 400) (hc : c.Bounded size k)
    (hsize : f.size = size) (hf : ∀ x ∈ f.slots, Within 0 (twoPow k) x) {s : String × Float}
    (hs : s ∈ c.scores f) : Within (twoPow (-k - 28)) 1 s.2 := by
  obtain ⟨⟨label, g⟩, he, rfl⟩ := List.mem_map.1 hs
  obtain ⟨hg, hslots⟩ := hc label g ((OrderedMap.mem_entries_iff _ _ _).1 he)
  exact within_similarity_of_le hk hk' (hsize.trans hg.symm) hf hslots

/-- The share of a score from 2⁻ᵏ to 1 in a sum of such scores. -/
theorem within_share_of_le {total x : Float} {s : ℝ} (hk : 0 ≤ k) (hk' : k ≤ 1000)
    (hx : Within (twoPow (-k)) 1 x) (hs : Denotes total s) (hs53 : s ≤ 2 ^ (53 : ℤ))
    (hle : ∀ a, Denotes x a → a ≤ s) : Within (twoPow (-k - 53)) 1 (share total x) := by
  have hunit : Within 0 1 x := hx.mono (twoPow_pos _).le le_rfl
  obtain ⟨a, ha, hak, ha1⟩ := hx
  have has := hle a ha
  obtain ⟨q, hq, -, hq1⟩ := within_share hs hunit ha has
  lift a to ℝ using ⟨ne_top_of_le_ne_top (EReal.coe_ne_top 1) ha1,
    ne_bot_of_le_ne_bot (EReal.coe_ne_bot _) hak⟩
  have hak : (2 : ℝ) ^ (-k) ≤ a := EReal.coe_le_coe_iff.1 hak
  have has : a ≤ s := EReal.coe_le_coe_iff.1 has
  have hapos : 0 < a := lt_of_lt_of_le (by positivity) hak
  have hspos : 0 < s := hapos.trans_le has
  have hshare := denotes_share hs hunit ha
  rw [if_pos (EReal.coe_pos.2 hspos), ← EReal.coe_div] at hshare
  refine ⟨q, hq, ?_, hq1⟩
  rw [hq.unique hshare, ← rounded_twoPow (k := -k - 53) (by omega) (by omega)]
  refine rounded_mono (EReal.coe_le_coe_iff.2 ?_)
  rw [le_div_iff₀ hspos]
  calc (2 : ℝ) ^ (-k - 53) * s ≤ 2 ^ (-k - 53) * 2 ^ (53 : ℤ) :=
        mul_le_mul_of_nonneg_left hs53 (by positivity)
    _ = 2 ^ (-k) := by
        rw [← zpow_add₀ (by norm_num)]
        congr 1
        omega
    _ ≤ a := hak

theorem within_shares_of_le (hk : 0 ≤ k) (hk' : k < 400) (hc : c.Bounded size k)
    (hsize : f.size = size) (hf : ∀ x ∈ f.slots, Within 0 (twoPow k) x) {x : Float}
    (hx : x ∈ (c.shares f).values) : Within (twoPow (-k - 81)) 1 x := by
  obtain ⟨s, hs, rfl⟩ := mem_values_shares_iff.1 hx
  have hscores : ∀ y ∈ (c.scores f).map (·.2), Within 0 (twoPow 0) y := by
    refine List.forall_mem_map.2 fun s' hs' => ?_
    refine (within_scores_of_le hk hk' hc hsize hf hs').mono (twoPow_pos _).le ?_
    rw [twoPow, zpow_zero]
    exact le_rfl
  obtain ⟨total, htotal, -, h53⟩ :=
    exists_coe_of_within (within_sumFloats_of_le (k := 0) (by norm_num) (by norm_num) hscores)
  have hle : ∀ a, Denotes s.2 a → a ≤ total := fun a ha =>
    le_sumFloats (fun y hy => (hscores y hy).mono le_rfl le_top) htotal (List.mem_map_of_mem hs) ha
  have hscore := within_scores_of_le hk hk' hc hsize hf hs
  have h := within_share_of_le (k := k + 28) (by omega) (by omega)
    (hscore.mono (twoPow_mono (by omega)) le_rfl) htotal h53 hle
  exact h.mono (twoPow_mono (by omega)) le_rfl

/-- A trained classifier with bounded centroids ranks its labels for any bounded fingerprint. -/
theorem ranks_of_bounded (hk : 0 ≤ k) (hk' : k < 400) (hc : c.Bounded size k)
    (ht : c.isTrained = true) (hsize : f.size = size)
    (hf : ∀ x ∈ f.slots, Within 0 (twoPow k) x) :
    Prediction.Ranks ⟨bestLabel (c.scores f), c.shares f⟩ c.labels := by
  have hshares := fun x hx => within_shares_of_le (x := x) hk hk' hc hsize hf hx
  have hscores : ∀ s ∈ c.scores f, Within 0 1 s.2 := fun s hs =>
    (within_scores_of_le hk hk' hc hsize hf hs).mono (twoPow_pos _).le le_rfl
  have hne : c.scores f ≠ [] := by simpa [scores] using entries_ne_nil ht
  obtain ⟨best, hbest, hlabel, hmax⟩ := bestLabel_spec hne
    fun s hs => (hscores s hs).mono le_rfl le_top
  have hconfidence : Prediction.confidence ⟨bestLabel (c.scores f), c.shares f⟩ =
      share (sumFloats ((c.scores f).map (·.2))) best.2 := by
    obtain ⟨⟨label, g⟩, he, rfl⟩ := List.mem_map.1 hbest
    have hget : c.centroids.get? label = some g := (OrderedMap.mem_entries_iff _ _ _).1 he
    unfold Prediction.confidence
    simp only [hlabel]
    unfold shares
    rw [OrderedMap.get?_mapValues, hget]
    rfl
  refine ⟨fun label => ?_, ?_, fun x hx => (hshares x hx).isNaN_eq, fun x hx => ?_, fun x hx => ?_,
    fun x hx => ?_⟩
  · show label ∈ (c.shares f).keys ↔ _
    rw [shares, OrderedMap.keys_mapValues]
    rfl
  · show bestLabel (c.scores f) ∈ c.labels
    rw [hlabel]
    exact fst_mem_labels hbest
  · obtain ⟨a, ha, hpos, -⟩ := hshares x hx
    exact (lt_iff_lt denotes_zero ha).2 ((twoPow_pos _).trans_le hpos)
  · exact (isConfidence_of_within ((hshares x hx).mono (twoPow_pos _).le le_rfl)).le_one
  · rw [hconfidence]
    obtain ⟨s, hs, rfl⟩ := mem_values_shares_iff.1 hx
    obtain ⟨a, ha⟩ := exists_denotes (hscores s hs).isNaN_eq
    obtain ⟨b, hb⟩ := exists_denotes (hscores best hbest).isNaN_eq
    exact share_le_share (List.forall_mem_map.2 hscores) (List.mem_map_of_mem hs)
      (List.mem_map_of_mem hbest) ((le_iff_le ha hb).2 (hmax s hs b a hb ha))

/-! ## Training on samples of one size -/

theorem expectedSize_eq {t : TrainingSet} (hlen : t.fingerprints.length = t.labels.length)
    (hsize : ∀ f ∈ t.fingerprints, f.size = size) {label : String} (hlabel : label ∈ t.labels) :
    t.expectedSize label = size := by
  have hlt : t.labels.idxOf label < t.fingerprints.length := hlen ▸ List.idxOf_lt_length_of_mem hlabel
  unfold expectedSize
  rw [List.getElem?_eq_getElem hlt]
  exact hsize _ (List.getElem_mem hlt)

/-- Samples of one size without bad slots are accepted. -/
theorem accepted_of_uniform {t : TrainingSet} (hlen : t.fingerprints.length = t.labels.length)
    (hsize : ∀ f ∈ t.fingerprints, f.size = size)
    (hbad : ∀ f ∈ t.fingerprints, ∀ x ∈ f.slots, ¬ IsBad x) : t.Accepted := by
  refine ⟨hlen, fun i label f hs hunfit => ?_⟩
  have hf : f ∈ t.fingerprints := List.mem_of_getElem? hs.fingerprint_eq
  rcases hunfit with hne | ⟨x, hx, hxbad⟩
  · refine hne ?_
    rw [hsize f hf, expectedSize_eq hlen hsize (List.mem_of_getElem? hs.label_eq)]
  · exact hbad f hf x hx hxbad

theorem not_isBad_of_within {x : Float} (hx : Within 0 (twoPow k) x) : ¬ IsBad x := by
  obtain ⟨a, ha, h0, hak⟩ := hx
  rintro (hnan | hinf | hneg)
  · rw [ha.1] at hnan
    cases hnan
  · rcases (isInf_iff ha).1 hinf with rfl | rfl
    · exact absurd hak (EReal.coe_lt_top _).not_ge
    · exact absurd h0 (by simp)
  · exact absurd ((lt_iff_lt ha denotes_zero).1 hneg) h0.not_gt

/-- Means of samples of one size with slots up to 2ᵏ, beside centroids of that size and as small. -/
theorem bounded_after {t : TrainingSet} (hc : c.Bounded size (k + 53)) (hk : -1075 ≤ k) (hk' : k < 971)
    (hacc : t.Accepted) (hsize : ∀ f ∈ t.fingerprints, f.size = size)
    (hslots : ∀ f ∈ t.fingerprints, ∀ x ∈ f.slots, Within 0 (twoPow k) x) :
    (after (trainInPlace t) c).Bounded size (k + 53) := by
  intro label g hg
  rw [get?_after] at hg
  split at hg
  · rename_i h
    obtain rfl := Option.some.inj hg
    refine ⟨?_, fun y hy => ?_⟩
    · show ((List.range (t.expectedSize label)).map _).length = size
      rw [List.length_map, List.length_range, expectedSize_eq hacc.1 hsize h.2]
    · obtain ⟨slot, -, rfl⟩ := List.mem_map.1 hy
      refine within_slotMean_of_le hk hk' ((mem_labels_iff hacc).1 h.2) (fun f hf x hx => ?_) slot
      obtain ⟨i, hs⟩ := mem_members_iff.1 hf
      exact hslots f (List.mem_of_getElem? hs.fingerprint_eq) x hx
  · exact hc label g hg

theorem bounded_untrained (m : Matcher) (size : Nat) (k : ℤ) : (untrained m).Bounded size k := by
  rintro label g ⟨⟩

theorem mem_labels_after_iff {t : TrainingSet} (hacc : t.Accepted) {label : String} :
    label ∈ (after (trainInPlace t) c).labels ↔ label ∈ t.labels ∨ label ∈ c.labels := by
  rw [labels, labels, OrderedMap.mem_keys_iff, OrderedMap.mem_keys_iff, get?_after]
  by_cases hlabel : label ∈ t.labels
  · rw [if_pos ⟨hacc, hlabel⟩]
    exact iff_of_true rfl (.inl hlabel)
  · rw [if_neg fun h => hlabel h.2, or_iff_right hlabel]

end Classifier

/-! ## Training on listings -/

theorem length_fingerprints_ofSamples (m : Matcher) (samples : List (String × String)) :
    (TrainingSet.ofSamples m samples).fingerprints.length =
      (TrainingSet.ofSamples m samples).labels.length := by
  rw [TrainingSet.fingerprints_ofSamples, TrainingSet.labels_ofSamples, List.length_map, List.length_map]

namespace Classifier

theorem after_trainSamples (samples : List (String × String)) (c : Classifier) :
    after (trainSamplesInPlace samples) c =
      after (trainInPlace (TrainingSet.ofSamples c.matcher samples)) c :=
  congrArg Prod.snd (run_trainSamplesInPlace samples c)

theorem answer_trainSamples_eq_ok_iff {samples : List (String × String)} :
    answer (trainSamplesInPlace samples) c = .ok () ↔
      (TrainingSet.ofSamples c.matcher samples).Accepted := by
  rw [← answer_eq_ok_iff c]
  exact (congrArg Prod.fst (run_trainSamplesInPlace samples c)).congr_left

variable {m : Matcher} {samples : List (String × String)}

theorem size_ofListing (m : Matcher) (listing : String) :
    (Fingerprint.ofListing m listing).size = Slot.all.length := by
  rw [Fingerprint.ofListing, Profile.fingerprint_eq]
  exact List.length_map _

theorem forall_mem_ofSamples {p : Fingerprint → Prop}
    (h : ∀ s ∈ samples, p (Fingerprint.ofListing m s.2)) :
    ∀ f ∈ (TrainingSet.ofSamples m samples).fingerprints, p f := by
  rw [TrainingSet.fingerprints_ofSamples]
  exact List.forall_mem_map.2 h

theorem size_of_mem_ofSamples (m : Matcher) (samples : List (String × String)) :
    ∀ f ∈ (TrainingSet.ofSamples m samples).fingerprints, f.size = Slot.all.length :=
  forall_mem_ofSamples fun s _ => size_ofListing m s.2

/-- Listings whose characters a machine word can count are accepted, however many there are, and their
means keep the bound on centroids. -/
theorem bounded_after_ofSamples (hc : c.Bounded Slot.all.length 121) (hm : m.WordSized)
    (hlen : ∀ s ∈ samples, s.2.toList.length < 2 ^ 64) :
    (TrainingSet.ofSamples m samples).Accepted ∧
      (after (trainInPlace (TrainingSet.ofSamples m samples)) c).Bounded Slot.all.length 121 := by
  have hsize := size_of_mem_ofSamples m samples
  have hslots : ∀ f ∈ (TrainingSet.ofSamples m samples).fingerprints, ∀ x ∈ f.slots,
      Within 0 (twoPow 68) x :=
    forall_mem_ofSamples fun s hs x hx => within_slots_ofListing hm (hlen s hs) hx
  have hacc : (TrainingSet.ofSamples m samples).Accepted :=
    accepted_of_uniform (length_fingerprints_ofSamples m samples) hsize fun f hf x hx =>
      not_isBad_of_within (hslots f hf x hx)
  exact ⟨hacc, bounded_after (k := 68) hc (by norm_num) (by norm_num) hacc hsize hslots⟩

theorem mem_labels_after_ofSamples (h : (TrainingSet.ofSamples m samples).Accepted) (label : String) :
    label ∈ (after (trainInPlace (.ofSamples m samples)) c).labels ↔
      label ∈ samples.map (·.1) ∨ label ∈ c.labels := by
  rw [← TrainingSet.labels_ofSamples m samples]
  exact mem_labels_after_iff h

theorem exists_trainSamples (hm : m.WordSized) (hne : samples ≠ [])
    (hlen : ∀ s ∈ samples, s.2.toList.length < 2 ^ 64) :
    ∃ c, ((untrained m).trainSamples samples).2 = .ok c ∧ c.matcher = m ∧ c.isTrained = true ∧
      c.Bounded Slot.all.length 121 ∧ ∀ label, label ∈ c.labels ↔ label ∈ samples.map (·.1) := by
  obtain ⟨hacc, hbounded⟩ := bounded_after_ofSamples (bounded_untrained m _ _) hm hlen
  have hlabels : ∀ label,
      label ∈ (after (trainInPlace (TrainingSet.ofSamples m samples)) (untrained m)).labels ↔
        label ∈ samples.map (·.1) := fun label =>
    (mem_labels_after_ofSamples hacc label).trans (or_iff_left List.not_mem_nil)
  refine ⟨_, ?_, matcher_after _ _, ?_, hbounded, hlabels⟩
  · show ((untrained m).train (TrainingSet.ofSamples m samples)).2 = _
    rw [train_eq_trainInPlace, (answer_eq_ok_iff _ _).2 hacc]
    rfl
  · obtain ⟨s, hs⟩ := List.exists_mem_of_ne_nil _ hne
    exact (isTrained_iff _).2 ⟨s.1, (OrderedMap.mem_keys_iff _ _).1
      ((hlabels s.1).2 (List.mem_map_of_mem hs))⟩

/-- A classifier trained on listings ranks exactly their labels for any listing. -/
theorem classify_ranks (hm : m.WordSized) (hne : samples ≠ [])
    (hlen : ∀ s ∈ samples, s.2.toList.length < 2 ^ 64) :
    ∃ c, ((untrained m).trainSamples samples).2 = .ok c ∧
      ∀ listing : String, listing.toList.length < 2 ^ 64 →
        ∃ p, c.classify listing = .ok p ∧ p.Ranks (samples.map (·.1)) := by
  obtain ⟨c, hc, hmatcher, ht, hbounded, hlabels⟩ := exists_trainSamples hm hne hlen
  refine ⟨c, hc, fun listing hlisting => ⟨_, if_pos ht, ?_⟩⟩
  have hslots : ∀ x ∈ (c.extract listing).slots, Within 0 (twoPow 121) x := by
    intro x hx
    rw [extract, hmatcher] at hx
    exact (within_slots_ofListing hm hlisting hx).mono le_rfl (twoPow_mono (by norm_num))
  exact (ranks_of_bounded (by norm_num) (by norm_num) hbounded ht (size_ofListing _ _) hslots).congr
    hlabels

end Classifier

end AsmOrigin
