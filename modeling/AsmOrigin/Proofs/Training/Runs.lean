import AsmOrigin.Proofs.Training.Refusal

/-!
Runs of training: what a classifier holds after any number of batches, accepted or refused.

One batch sets the centroids of its labels to their means and leaves all others (`get?_after`), so after
a run each label has its mean in the last accepted batch that held it.
-/

namespace AsmOrigin

/-! ## Means -/

/-- Mean of one slot: the values in batch order, added from left to right and divided by their number. -/
def slotMean (members : List Fingerprint) (slot : Nat) : Float :=
  sumFloats (members.filterMap (·.slots[slot]?)) / ofCount members.length

theorem getElem?_foldl_zipWith {n : Nat} {members : List Fingerprint} {acc : List Float}
    (hacc : acc.length = n) (h : ∀ f ∈ members, f.size = n) (slot : Nat) :
    (members.foldl (fun sums f => List.zipWith (· + ·) sums f.slots) acc)[slot]? =
      acc[slot]?.map fun x => (members.filterMap (·.slots[slot]?)).foldl (· + ·) x := by
  induction members generalizing acc with
  | nil => simp
  | cons f r ih =>
    have hf : f.slots.length = n := h f List.mem_cons_self
    rw [List.foldl_cons, ih (by simp [hacc, hf]) fun g hg => h g (List.mem_cons_of_mem f hg),
      List.getElem?_zipWith]
    by_cases hs : slot < n
    · have hcons : (f :: r).filterMap (·.slots[slot]?) =
          f.slots[slot] :: r.filterMap (·.slots[slot]?) :=
        List.filterMap_cons_some (List.getElem?_eq_getElem (by omega))
      rw [hcons, List.getElem?_eq_getElem (by omega : slot < acc.length),
        List.getElem?_eq_getElem (by omega : slot < f.slots.length)]
      rfl
    · rw [List.getElem?_eq_none (by omega)]
      rfl

theorem meanFingerprint_eq {n : Nat} {members : List Fingerprint} (h : ∀ f ∈ members, f.size = n) :
    meanFingerprint n members = ⟨(List.range n).map (slotMean members)⟩ := by
  have hzero : (List.replicate n (0.0 : Float)).length = n := List.length_replicate
  refine congrArg Fingerprint.mk (List.ext_getElem? fun slot => ?_)
  rw [List.getElem?_map, getElem?_foldl_zipWith hzero h, List.getElem?_map]
  by_cases hs : slot < n
  · rw [List.getElem?_replicate_of_lt hs, List.getElem?_range hs]
    rfl
  · rw [List.getElem?_eq_none (by simpa using hs), List.getElem?_eq_none (by simpa using hs)]
    rfl

namespace TrainingSet

variable {t : TrainingSet} {label : String}

/-- What the batch teaches about a label: slot by slot, the mean of the samples with that label. -/
def mean (t : TrainingSet) (label : String) : Fingerprint :=
  ⟨(List.range (t.expectedSize label)).map (slotMean (members t.pairs label))⟩

theorem defect?_eq_none_iff_accepted :
    (t.fingerprints.length = t.labels.length ∧ t.defect? = none) ↔ t.Accepted :=
  and_congr_right defect?_batch_eq_none_iff

theorem groupMean_eq (h : t.Accepted) (label : String) :
    groupMean (members t.pairs label) = t.mean label := by
  unfold groupMean
  rw [head?_members h.1]
  refine meanFingerprint_eq fun f hf => ?_
  obtain ⟨i, hs⟩ := mem_members_iff.1 hf
  by_contra hne
  exact h.2 i label f hs (.inl hne)

theorem mem_labels_iff (h : t.Accepted) : label ∈ t.labels ↔ members t.pairs label ≠ [] := by
  rw [ne_eq, members_eq_nil_iff, not_not, pairs, List.map_fst_zip (by rw [h.1])]

theorem mem_lessons_iff (h : t.Accepted) {f : Fingerprint} :
    (label, f) ∈ t.lessons ↔ label ∈ t.labels ∧ f = t.mean label := by
  rw [mem_labels_iff h, ← groupMean_eq h]
  unfold lessons
  simp only [List.mem_map, Prod.exists, Prod.mk.injEq, mem_groups_iff]
  constructor
  · rintro ⟨k, ms, ⟨rfl, hne⟩, rfl, rfl⟩
    exact ⟨hne, rfl⟩
  · rintro ⟨hne, rfl⟩
    exact ⟨label, _, ⟨rfl, hne⟩, rfl, rfl⟩

end TrainingSet

/-! ## One batch -/

namespace Classifier

open TrainingSet

variable {t : TrainingSet} {label : String}

theorem matcher_foldl_put (es : List (String × Fingerprint)) (c : Classifier) :
    (es.foldl put c).matcher = c.matcher := by
  induction es generalizing c with
  | nil => rfl
  | cons e r ih => exact ih (c.put e)

theorem matcher_after (t : TrainingSet) (c : Classifier) :
    (after (trainInPlace t) c).matcher = c.matcher := by
  unfold after
  rw [run_trainInPlace]
  cases t.learn.2 with
  | error e => rfl
  | ok learned => exact matcher_foldl_put learned c

theorem centroids_foldl_put (es : List (String × Fingerprint)) (c : Classifier) :
    (es.foldl put c).centroids = es.foldl (fun m e => m.insert e.1 e.2) c.centroids := by
  induction es generalizing c with
  | nil => rfl
  | cons e r ih => exact ih (c.put e)

/-- Training answers without an error exactly on the batches that are accepted. -/
theorem answer_eq_ok_iff (c : Classifier) (t : TrainingSet) :
    answer (trainInPlace t) c = .ok () ↔ t.Accepted := by
  rw [← defect?_eq_none_iff_accepted]
  by_cases h : t.fingerprints.length = t.labels.length
  · rw [answer_trainInPlace c h]
    cases t.defect? <;> simp [h]
  · unfold answer
    rw [run_trainInPlace, learn_eq, if_neg h]
    simp [h]

theorem after_of_not_accepted (h : ¬ t.Accepted) (c : Classifier) :
    after (trainInPlace t) c = c := by
  rw [← answer_eq_ok_iff c] at h
  unfold answer after at *
  rw [run_trainInPlace] at *
  cases hl : t.learn.2 with
  | error e => rfl
  | ok learned =>
    rw [hl] at h
    exact absurd rfl h

theorem after_of_accepted (h : t.Accepted) (c : Classifier) :
    after (trainInPlace t) c = t.lessons.foldl put c := by
  obtain ⟨hlen, hd⟩ := defect?_eq_none_iff_accepted.2 h
  unfold after
  rw [run_trainInPlace, learn_eq, if_pos hlen, hd]

theorem train_of_accepted (h : t.Accepted) (c : Classifier) :
    (c.train t).2 = .ok (after (trainInPlace t) c) := by
  rw [train_eq_trainInPlace, (answer_eq_ok_iff c t).2 h]
  rfl

open Classical in
/-- One batch sets the centroids of its labels if it is accepted, and no others. -/
theorem get?_after (c : Classifier) (t : TrainingSet) (label : String) :
    (after (trainInPlace t) c).centroids.get? label =
      if t.Accepted ∧ label ∈ t.labels then some (t.mean label) else c.centroids.get? label := by
  by_cases h : t.Accepted
  · rw [after_of_accepted h, centroids_foldl_put]
    have hkeys : t.lessons.map (·.1) = t.groups.keys := by
      simp [lessons, OrderedMap.keys, Function.comp_def]
    by_cases hl : label ∈ t.labels
    · rw [if_pos ⟨h, hl⟩]
      exact OrderedMap.get?_foldl_insert_of_mem (hkeys ▸ t.groups.nodup_keys)
        ((mem_lessons_iff h).2 ⟨hl, rfl⟩) c.centroids
    · rw [if_neg (fun h' => hl h'.2), OrderedMap.get?_foldl_insert_of_notMem]
      intro hmem
      obtain ⟨⟨k, f⟩, hf, rfl⟩ := List.mem_map.1 hmem
      exact hl ((mem_lessons_iff h).1 hf).1
  · rw [after_of_not_accepted h, if_neg (fun h' => h h'.1)]

/-! ## Runs -/

/-- The classifier after training in place on one batch after another. -/
def afterAll (c : Classifier) (batches : List TrainingSet) : Classifier :=
  batches.foldl (fun c t => after (trainInPlace t) c) c

theorem afterAll_append (c : Classifier) (batches : List TrainingSet) (t : TrainingSet) :
    c.afterAll (batches ++ [t]) = after (trainInPlace t) (c.afterAll batches) :=
  List.foldl_concat _ _ _ _

/-- The last batch of a run that has an effect on the label. -/
def IsLastLesson (batches : List TrainingSet) (label : String) (t : TrainingSet) : Prop :=
  t.Accepted ∧ label ∈ t.labels ∧ ∃ before later, batches = before ++ t :: later ∧
    ∀ u ∈ later, u.Accepted → label ∉ u.labels

theorem isLastLesson_append_iff {batches : List TrainingSet} {t u : TrainingSet} :
    IsLastLesson (batches ++ [t]) label u ↔
      (t.Accepted ∧ label ∈ t.labels ∧ u = t) ∨
        (¬ (t.Accepted ∧ label ∈ t.labels) ∧ IsLastLesson batches label u) := by
  constructor
  · rintro ⟨hacc, hmem, before, later, h, hlater⟩
    rcases List.eq_nil_or_concat later with rfl | ⟨init, v, rfl⟩
    · obtain ⟨-, h⟩ := List.append_inj' h rfl
      obtain rfl : t = u := List.head_eq_of_cons_eq h
      exact .inl ⟨hacc, hmem, rfl⟩
    · rw [List.concat_eq_append] at h hlater
      have h' : batches ++ [t] = (before ++ u :: init) ++ [v] := by
        rw [h, List.append_assoc, List.cons_append]
      obtain ⟨rfl, htv⟩ := List.append_inj' h' rfl
      obtain rfl : t = v := List.head_eq_of_cons_eq htv
      have ht := hlater t (List.mem_append_right _ (List.mem_singleton_self t))
      exact .inr ⟨fun h => ht h.1 h.2, hacc, hmem, before, init, rfl,
        fun u hu => hlater u (List.mem_append_left _ hu)⟩
  · rintro (⟨hacc, hmem, rfl⟩ | ⟨hnot, hacc, hmem, before, later, rfl, hlater⟩)
    · exact ⟨hacc, hmem, batches, [], rfl, fun u hu => absurd hu List.not_mem_nil⟩
    · refine ⟨hacc, hmem, before, later ++ [t], by simp, fun v hv hvacc hvmem => ?_⟩
      rcases List.mem_append.1 hv with hv | hv
      · exact hlater v hv hvacc hvmem
      · obtain rfl := List.mem_singleton.1 hv
        exact hnot ⟨hvacc, hvmem⟩

theorem get?_afterAll_iff (m : Matcher) (batches : List TrainingSet) (label : String)
    (f : Fingerprint) : ((untrained m).afterAll batches).centroids.get? label = some f ↔
      ∃ t, IsLastLesson batches label t ∧ f = t.mean label := by
  induction batches using List.reverseRecOn generalizing f with
  | nil =>
    refine iff_of_false (by rintro ⟨⟩) ?_
    rintro ⟨t, ⟨-, -, before, later, h, -⟩, -⟩
    exact absurd h (by simp)
  | append_singleton batches t ih =>
    rw [afterAll_append, get?_after]
    simp only [isLastLesson_append_iff]
    split
    · rename_i h
      constructor
      · rintro ⟨⟩
        exact ⟨t, .inl ⟨h.1, h.2, rfl⟩, rfl⟩
      · rintro ⟨u, ⟨-, -, rfl⟩ | ⟨hnot, -⟩, rfl⟩
        · rfl
        · exact absurd h hnot
    · rename_i h
      rw [ih]
      constructor
      · rintro ⟨u, hu, rfl⟩
        exact ⟨u, .inr ⟨h, hu⟩, rfl⟩
      · rintro ⟨u, ⟨hacc, hmem, -⟩ | ⟨-, hu⟩, rfl⟩
        · exact absurd ⟨hacc, hmem⟩ h
        · exact ⟨u, hu, rfl⟩

theorem exists_isLastLesson_iff {batches : List TrainingSet} :
    (∃ t, IsLastLesson batches label t) ↔ ∃ t ∈ batches, t.Accepted ∧ label ∈ t.labels := by
  induction batches using List.reverseRecOn with
  | nil =>
    refine iff_of_false ?_ (by simp)
    rintro ⟨t, -, -, before, later, h, -⟩
    exact absurd h (by simp)
  | append_singleton batches t ih =>
    simp only [isLastLesson_append_iff, List.mem_append, List.mem_singleton]
    constructor
    · rintro ⟨u, ⟨hacc, hmem, rfl⟩ | ⟨-, hu⟩⟩
      · exact ⟨u, .inr rfl, hacc, hmem⟩
      · obtain ⟨v, hv, h⟩ := ih.1 ⟨u, hu⟩
        exact ⟨v, .inl hv, h⟩
    · rintro ⟨u, hu | rfl, h⟩
      · by_cases ht : t.Accepted ∧ label ∈ t.labels
        · exact ⟨t, .inl ⟨ht.1, ht.2, rfl⟩⟩
        · obtain ⟨v, hv⟩ := ih.2 ⟨u, hu, h⟩
          exact ⟨v, .inr ⟨ht, hv⟩⟩
      · exact ⟨u, .inl ⟨h.1, h.2, rfl⟩⟩

theorem isTrained_iff (c : Classifier) :
    c.isTrained = true ↔ ∃ label, (c.centroids.get? label).isSome = true := by
  unfold isTrained OrderedMap.isEmpty
  rw [Bool.not_eq_true', List.isEmpty_eq_false_iff_exists_mem]
  constructor
  · rintro ⟨e, he⟩
    exact ⟨e.1, Option.isSome_iff_exists.2 ⟨e.2, (OrderedMap.mem_entries_iff _ _ _).1 he⟩⟩
  · rintro ⟨label, h⟩
    obtain ⟨f, hf⟩ := Option.isSome_iff_exists.1 h
    exact ⟨(label, f), (OrderedMap.mem_entries_iff _ _ _).2 hf⟩

theorem pairwise_labels (c : Classifier) : c.labels.Pairwise fun k l => utf8 k < utf8 l :=
  List.pairwise_map.2 (c.centroids.ascending.imp utf8_lt_utf8_iff.2)

/-- What any run of training in place leaves behind.  A label has a centroid exactly if some accepted
batch held it, and the centroid is the label's mean in the last accepted batch that held it.  A refused
batch changes nothing, an accepted one nothing for labels it does not hold; labels are ascending in the
order of their bytes, and the classifier is trained exactly if some accepted batch was not empty. -/
theorem centroids_after_every_run (m : Matcher) (batches : List TrainingSet) :
    (∀ (c : Classifier) (t : TrainingSet), answer (trainInPlace t) c = .ok () ↔ t.Accepted) ∧
    (∀ label, (((untrained m).afterAll batches).centroids.get? label).isSome = true ↔
      ∃ t ∈ batches, t.Accepted ∧ label ∈ t.labels) ∧
    (∀ label f, ((untrained m).afterAll batches).centroids.get? label = some f ↔
      ∃ t, IsLastLesson batches label t ∧ f = t.mean label) ∧
    (∀ t : TrainingSet, ¬ t.Accepted →
      (untrained m).afterAll (batches ++ [t]) = (untrained m).afterAll batches) ∧
    (∀ (t : TrainingSet) label, label ∉ t.labels →
      ((untrained m).afterAll (batches ++ [t])).centroids.get? label =
        ((untrained m).afterAll batches).centroids.get? label) ∧
    ((untrained m).afterAll batches).labels.Pairwise (fun k l => utf8 k < utf8 l) ∧
    (((untrained m).afterAll batches).isTrained = true ↔
      ∃ t ∈ batches, t.Accepted ∧ t.labels ≠ []) := by
  have hsome : ∀ label, (((untrained m).afterAll batches).centroids.get? label).isSome = true ↔
      ∃ t ∈ batches, t.Accepted ∧ label ∈ t.labels := fun label => by
    rw [Option.isSome_iff_exists, ← exists_isLastLesson_iff]
    simp only [get?_afterAll_iff]
    exact ⟨fun ⟨_, t, ht, _⟩ => ⟨t, ht⟩, fun ⟨t, ht⟩ => ⟨_, t, ht, rfl⟩⟩
  refine ⟨answer_eq_ok_iff, hsome, get?_afterAll_iff m batches, fun t ht => ?_,
    fun t label hl => ?_, pairwise_labels _, ?_⟩
  · rw [afterAll_append, after_of_not_accepted ht]
  · rw [afterAll_append, get?_after, if_neg fun h => hl h.2]
  · rw [isTrained_iff]
    simp only [hsome]
    constructor
    · rintro ⟨label, t, ht, hacc, hl⟩
      exact ⟨t, ht, hacc, List.ne_nil_of_mem hl⟩
    · rintro ⟨t, ht, hacc, hne⟩
      obtain ⟨label, hl⟩ := List.exists_mem_of_ne_nil _ hne
      exact ⟨label, t, ht, hacc, hl⟩

end Classifier

end AsmOrigin
