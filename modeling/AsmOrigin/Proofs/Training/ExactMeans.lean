import AsmOrigin.Proofs.Binary64.Nearest
import AsmOrigin.Proofs.Training.Interleaving
import AsmOrigin.Proofs.Training.Listings

/-!
Exact means of listings.

The slots of a listing are counts.  As long as a label has at most 2⁵³ samples and no slot sums to more
than that over them, its centroid holds the quotients of these sums by their number
(`get?_after_trainSamples`), so every slot is the float nearest to the exact mean.  Nothing else about
the samples matters: not their order, nor how often they are repeated if those of one label are repeated
equally often (`exact_means_of_listings`).
-/

namespace AsmOrigin

open Binary64 TrainingSet

/-! ## The samples of a label -/

/-- The listings with the label, in the order of the samples. -/
def listingsOf (samples : List (String × String)) (label : String) : List String :=
  samples.filterMap fun s => if s.1 = label then some s.2 else none

/-- What a slot counts in each listing with the label. -/
def slotCounts (m : Matcher) (samples : List (String × String)) (label : String) (slot : Slot) :
    List Nat :=
  (listingsOf samples label).map fun listing => slot.count (.ofListing m listing)

/-- No label has more than 2⁵³ samples, and no slot sums to more than that over them. -/
structure ExactlySummable (m : Matcher) (samples : List (String × String)) : Prop where
  length_le : ∀ label, (listingsOf samples label).length ≤ 2 ^ 53
  sum_le : ∀ label, ∀ slot ∈ Slot.all, (slotCounts m samples label slot).sum ≤ 2 ^ 53

/-- Every sample so many times as its label says. -/
def repeated (copies : String → Nat) (samples : List (String × String)) : List (String × String) :=
  samples.flatMap fun s => List.replicate (copies s.1) s

variable {m : Matcher} {samples samples' : List (String × String)} {label : String} {slot : Slot}

theorem listingsOf_cons (s : String × String) (samples : List (String × String)) (label : String) :
    listingsOf (s :: samples) label =
      if s.1 = label then s.2 :: listingsOf samples label else listingsOf samples label := by
  unfold listingsOf
  by_cases h : s.1 = label <;> simp [h]

theorem listingsOf_append (xs ys : List (String × String)) (label : String) :
    listingsOf (xs ++ ys) label = listingsOf xs label ++ listingsOf ys label :=
  List.filterMap_append

theorem listingsOf_eq_nil_iff : listingsOf samples label = [] ↔ label ∉ samples.map (·.1) := by
  induction samples with
  | nil => simp [listingsOf]
  | cons s r ih =>
    rw [listingsOf_cons, List.map_cons, List.mem_cons, not_or]
    split
    · rename_i h
      simp [h]
    · rename_i h
      rw [ih, and_iff_right (Ne.symm h)]

theorem listingsOf_perm (h : samples'.Perm samples) (label : String) :
    (listingsOf samples' label).Perm (listingsOf samples label) :=
  h.filterMap _

theorem listingsOf_sublist (samples : List (String × String)) (label : String) :
    (listingsOf samples label).Sublist (samples.map (·.2)) := by
  induction samples with
  | nil => exact .slnil
  | cons s r ih =>
    rw [listingsOf_cons, List.map_cons]
    split
    · exact ih.cons_cons s.2
    · exact ih.cons s.2

/-- It is enough that all samples together are not too many. -/
theorem exactlySummable_of_total (hlen : samples.length ≤ 2 ^ 53)
    (hsum : ∀ slot ∈ Slot.all,
      ((samples.map (·.2)).map fun listing => slot.count (.ofListing m listing)).sum ≤ 2 ^ 53) :
    ExactlySummable m samples where
  length_le label := by
    have h := (listingsOf_sublist samples label).length_le
    rw [List.length_map] at h
    exact h.trans hlen
  sum_le label slot hslot :=
    (((listingsOf_sublist samples label).map _).sum_le_sum fun _ _ => Nat.zero_le _).trans
      (hsum slot hslot)

theorem listingsOf_replicate (k : Nat) (s : String × String) (label : String) :
    listingsOf (List.replicate k s) label = if s.1 = label then List.replicate k s.2 else [] := by
  induction k with
  | zero => simp [listingsOf]
  | succ k ih =>
    rw [List.replicate_succ, listingsOf_cons, ih]
    split <;> rfl

/-- Repetition by label repeats all samples of a label equally often. -/
theorem listingsOf_repeated (copies : String → Nat) (samples : List (String × String))
    (label : String) : listingsOf (repeated copies samples) label =
      (listingsOf samples label).flatMap (List.replicate (copies label)) := by
  induction samples with
  | nil => rfl
  | cons s r ih =>
    show listingsOf (List.replicate (copies s.1) s ++ repeated copies r) label = _
    rw [listingsOf_append, listingsOf_replicate, listingsOf_cons, ih]
    split
    · rename_i h
      rw [h, List.flatMap_cons]
    · rw [List.nil_append]

theorem length_flatMap_replicate {α : Type} (k : Nat) (xs : List α) :
    (xs.flatMap (List.replicate k)).length = k * xs.length := by
  induction xs with
  | nil => rfl
  | cons x r ih =>
    rw [List.flatMap_cons, List.length_append, List.length_replicate, ih, List.length_cons,
      Nat.mul_succ, Nat.add_comm]

theorem sum_flatMap_replicate (k : Nat) (ns : List Nat) :
    (ns.flatMap (List.replicate k)).sum = k * ns.sum := by
  induction ns with
  | nil => rfl
  | cons n r ih =>
    rw [List.flatMap_cons, List.sum_append, List.sum_replicate, ih, List.sum_cons, Nat.mul_add,
      smul_eq_mul]

theorem map_flatMap_replicate {α β : Type} (f : α → β) (k : Nat) (xs : List α) :
    (xs.flatMap (List.replicate k)).map f = (xs.map f).flatMap (List.replicate k) := by
  rw [List.map_flatMap, List.flatMap_map]
  simp only [List.map_replicate]

/-- A label has as many listings as it occurs among the samples. -/
theorem length_listingsOf (samples : List (String × String)) (label : String) :
    (listingsOf samples label).length = (samples.map (·.1)).count label := by
  induction samples with
  | nil => rfl
  | cons s r ih =>
    rw [listingsOf_cons, List.map_cons, List.count_cons, ← ih]
    by_cases h : s.1 = label <;> simp [h]

theorem exactlySummable_repeated {copies : String → Nat}
    (hlen : ∀ label, copies label * (listingsOf samples label).length ≤ 2 ^ 53)
    (hsum : ∀ label, ∀ slot ∈ Slot.all,
      copies label * (slotCounts m samples label slot).sum ≤ 2 ^ 53) :
    ExactlySummable m (repeated copies samples) where
  length_le label := by
    rw [listingsOf_repeated, length_flatMap_replicate]
    exact hlen label
  sum_le label slot hslot := by
    unfold slotCounts
    rw [listingsOf_repeated, map_flatMap_replicate, sum_flatMap_replicate]
    exact hsum label slot hslot

/-! ## Centroids -/

/-- The mean of a label: slot by slot, the quotient of the sum of the counts by their number. -/
def exactMean (m : Matcher) (samples : List (String × String)) (label : String) : Fingerprint :=
  ⟨Slot.all.map fun slot =>
    ofCount (slotCounts m samples label slot).sum / ofCount (listingsOf samples label).length⟩

theorem mem_labels_ofSamples_iff :
    label ∈ (TrainingSet.ofSamples m samples).labels ↔ listingsOf samples label ≠ [] := by
  rw [TrainingSet.labels_ofSamples]
  exact not_iff_not.1 (listingsOf_eq_nil_iff.symm.trans not_ne_iff.symm)

theorem members_ofSamples (m : Matcher) (samples : List (String × String)) (label : String) :
    members (TrainingSet.ofSamples m samples).pairs label =
      (listingsOf samples label).map (Fingerprint.ofListing m) := by
  have hpairs : (TrainingSet.ofSamples m samples).pairs =
      samples.map fun s => (s.1, Fingerprint.ofListing m s.2) := by
    rw [TrainingSet.pairs, TrainingSet.labels_ofSamples, TrainingSet.fingerprints_ofSamples, List.zip_map']
  rw [hpairs]
  clear hpairs
  induction samples with
  | nil => rfl
  | cons s r ih =>
    rw [List.map_cons, members_cons, listingsOf_cons, ih]
    split <;> rfl

theorem column_ofListing {i : Nat} (h : Slot.all[i]? = some slot) (listings : List String) :
    (listings.map (Fingerprint.ofListing m)).filterMap (·.slots[i]?) =
      (listings.map fun listing => slot.count (.ofListing m listing)).map ofCount := by
  have hslot : ∀ listing, (Fingerprint.ofListing m listing).slots[i]? =
      some (ofCount (slot.count (.ofListing m listing))) := fun listing => by
    rw [Fingerprint.ofListing, Profile.fingerprint_eq, List.getElem?_map, h, Option.map_some]
  rw [List.filterMap_map, List.map_map, ← List.filterMap_eq_map]
  exact List.filterMap_congr fun listing _ => hslot listing

theorem accepted_ofSamples (h : ExactlySummable m samples) :
    (TrainingSet.ofSamples m samples).Accepted := by
  refine Classifier.accepted_of_uniform (length_fingerprints_ofSamples m samples)
    (Classifier.size_of_mem_ofSamples m samples) ?_
  refine Classifier.forall_mem_ofSamples fun s hs x hx => ?_
  rw [Fingerprint.ofListing, Profile.fingerprint_eq] at hx
  obtain ⟨slot, hslot, rfl⟩ := List.mem_map.1 hx
  have hmem : slot.count (.ofListing m s.2) ∈ slotCounts m samples s.1 slot :=
    List.mem_map_of_mem (List.mem_filterMap.2 ⟨s, hs, if_pos rfl⟩)
  have hle : slot.count (.ofListing m s.2) ≤ 2 ^ 53 :=
    (List.le_sum_of_mem hmem).trans (h.sum_le s.1 slot hslot)
  refine Classifier.not_isBad_of_within (k := 53) (within_ofCount ?_ (by norm_num) (by norm_num))
  exact_mod_cast hle

theorem mean_ofSamples (h : ExactlySummable m samples) (hne : listingsOf samples label ≠ []) :
    (TrainingSet.ofSamples m samples).mean label = exactMean m samples label := by
  have hsize : (TrainingSet.ofSamples m samples).expectedSize label = Slot.all.length :=
    Classifier.expectedSize_eq (length_fingerprints_ofSamples m samples)
      (Classifier.size_of_mem_ofSamples m samples) (mem_labels_ofSamples_iff.2 hne)
  refine congrArg Fingerprint.mk (List.ext_getElem? fun i => ?_)
  rw [hsize, List.getElem?_map, List.getElem?_map]
  cases hslot : Slot.all[i]? with
  | none =>
    rw [List.getElem?_eq_none (by simpa using List.getElem?_eq_none_iff.1 hslot)]
    rfl
  | some slot =>
    obtain ⟨hlt, rfl⟩ := List.getElem?_eq_some_iff.1 hslot
    rw [List.getElem?_range hlt, Option.map_some, Option.map_some, slotMean, members_ofSamples,
      column_ofListing hslot, List.length_map]
    exact congrArg (fun x => some (x / _))
      (sumFloats_map_ofCount (h.sum_le label _ (List.getElem_mem hlt)))

namespace Classifier

variable {c : Classifier}

theorem answer_trainSamples (h : ExactlySummable c.matcher samples) :
    answer (trainSamplesInPlace samples) c = .ok () :=
  answer_trainSamples_eq_ok_iff.2 (accepted_ofSamples h)

/-- Listings give their labels exact means and leave all other centroids. -/
theorem get?_after_trainSamples (h : ExactlySummable c.matcher samples) (label : String) :
    (after (trainSamplesInPlace samples) c).centroids.get? label =
      if listingsOf samples label = [] then c.centroids.get? label
      else some (exactMean c.matcher samples label) := by
  rw [after_trainSamples, get?_after]
  by_cases hnil : listingsOf samples label = []
  · rw [if_pos hnil, if_neg fun h => mem_labels_ofSamples_iff.1 h.2 hnil]
  · rw [if_neg hnil, if_pos ⟨accepted_ofSamples h, mem_labels_ofSamples_iff.2 hnil⟩,
      mean_ofSamples h hnil]

end Classifier

/-! ## What a mean is near to -/

/-- Every slot of a mean is the float nearest to the exact mean, between the least and the greatest of
the counts. -/
theorem slot_of_exactMean (h : ExactlySummable m samples) (hne : listingsOf samples label ≠ [])
    (hslot : slot ∈ Slot.all) :
    let counts := slotCounts m samples label slot
    let x := ofCount counts.sum / ofCount (listingsOf samples label).length
    IsNearest x (counts.sum / (listingsOf samples label).length) ∧
      ∃ least greatest, counts.min? = some least ∧ counts.max? = some greatest ∧
        ofCount least ≤ x ∧ x ≤ ofCount greatest := by
  intro counts x
  have hlen : counts.length = (listingsOf samples label).length := List.length_map _
  have hpos : 0 < (listingsOf samples label).length := List.length_pos_iff.2 hne
  have hn := h.length_le label
  have hsum : counts.sum ≤ 2 ^ 53 := h.sum_le label slot hslot
  have hle : ∀ n ∈ counts, n ≤ 2 ^ 53 := fun n hn => (List.le_sum_of_mem hn).trans hsum
  have hcounts : counts ≠ [] := by rwa [ne_eq, ← List.length_eq_zero_iff, hlen, List.length_eq_zero_iff]
  obtain ⟨least, hleast⟩ := Option.isSome_iff_exists.1 (List.isSome_min?_of_ne_nil hcounts)
  obtain ⟨greatest, hgreatest⟩ := Option.isSome_iff_exists.1 (List.isSome_max?_of_ne_nil hcounts)
  obtain ⟨hmin, hmin_le⟩ := List.min?_eq_some_iff.1 hleast
  obtain ⟨hmax, hle_max⟩ := List.max?_eq_some_iff.1 hgreatest
  refine ⟨isNearest_ofCount_div hsum hpos hn, least, greatest, hleast, hgreatest, ?_, ?_⟩
  · refine ofCount_le_ofCount_div (hle _ hmin) hsum hpos hn ?_
    have := List.card_nsmul_le_sum counts least hmin_le
    rwa [smul_eq_mul, hlen, Nat.mul_comm] at this
  · refine ofCount_div_le_ofCount (hle _ hmax) hsum hpos hn ?_
    have := List.sum_le_card_nsmul counts greatest hle_max
    rwa [smul_eq_mul, hlen, Nat.mul_comm] at this

/-! ## What a mean depends on -/

theorem exactlySummable_of_perm (h : ExactlySummable m samples) (hperm : samples'.Perm samples) :
    ExactlySummable m samples' where
  length_le label := (listingsOf_perm hperm label).length_eq ▸ h.length_le label
  sum_le label slot hslot := by
    have hcounts := (listingsOf_perm hperm label).map fun listing => slot.count (.ofListing m listing)
    exact hcounts.sum_eq.le.trans (h.sum_le label slot hslot)

theorem exactMean_congr (h : ExactlySummable m samples) (h' : ExactlySummable m samples')
    (hne : listingsOf samples label ≠ []) {k : Nat} (hk : 0 < k)
    (hperm : (listingsOf samples' label).Perm ((listingsOf samples label).flatMap (List.replicate k))) :
    exactMean m samples' label = exactMean m samples label := by
  have hlen : (listingsOf samples' label).length = k * (listingsOf samples label).length := by
    rw [hperm.length_eq, length_flatMap_replicate]
  have hpos : 0 < (listingsOf samples label).length := List.length_pos_iff.2 hne
  refine congrArg Fingerprint.mk (List.map_congr_left fun slot hslot => ?_)
  have hsum : (slotCounts m samples' label slot).sum = k * (slotCounts m samples label slot).sum := by
    unfold slotCounts
    rw [(hperm.map _).sum_eq, map_flatMap_replicate, sum_flatMap_replicate]
  refine ofCount_div_congr (h'.sum_le label slot hslot) ?_ (h'.length_le label)
    (h.sum_le label slot hslot) hpos (h.length_le label) ?_
  · rw [hlen]
    exact Nat.mul_pos hk hpos
  · rw [hsum, hlen]
    ring

namespace Classifier

variable {c : Classifier}

/-- The second list of samples is learned as well and leaves the same classifier as the first, so that
every query is answered alike. -/
structure LearnsAlike (c : Classifier) (samples samples' : List (String × String)) : Prop where
  answer_eq : answer (trainSamplesInPlace samples') c = .ok ()
  after_eq : after (trainSamplesInPlace samples') c = after (trainSamplesInPlace samples) c
  predictFingerprint_eq : ∀ f, (after (trainSamplesInPlace samples') c).predictFingerprint f =
    (after (trainSamplesInPlace samples) c).predictFingerprint f
  confidencesFor_eq : ∀ f, (after (trainSamplesInPlace samples') c).confidencesFor f =
    (after (trainSamplesInPlace samples) c).confidencesFor f

/-- Samples in another order, those of a label repeated equally often, are learned alike. -/
theorem learnsAlike_of_perm_repeated (h : ExactlySummable c.matcher samples)
    (h' : ExactlySummable c.matcher samples') {copies : String → Nat}
    (hcopies : ∀ label, 0 < copies label) (hperm : samples'.Perm (repeated copies samples)) :
    c.LearnsAlike samples samples' := by
  have hlistings : ∀ label, (listingsOf samples' label).Perm
      ((listingsOf samples label).flatMap (List.replicate (copies label))) := fun label =>
    listingsOf_repeated copies samples label ▸ listingsOf_perm hperm label
  have hafter : after (trainSamplesInPlace samples') c = after (trainSamplesInPlace samples) c := by
    refine ext_get? ?_ fun label => ?_
    · rw [after_trainSamples, after_trainSamples, matcher_after, matcher_after]
    · rw [get?_after_trainSamples h, get?_after_trainSamples h']
      have hp := hlistings label
      by_cases hnil : listingsOf samples label = []
      · rw [hnil] at hp
        rw [if_pos hnil, if_pos hp.eq_nil]
      · have hnil' : listingsOf samples' label ≠ [] := fun hnil' => by
          have hlen := hp.length_eq
          rw [length_flatMap_replicate, hnil', List.length_nil] at hlen
          have hpos := Nat.mul_pos (hcopies label) (List.length_pos_iff.2 hnil)
          omega
        rw [if_neg hnil, if_neg hnil', exactMean_congr h h' hnil (hcopies label) hp]
  exact ⟨answer_trainSamples h', hafter, fun f => by rw [hafter], fun f => by rw [hafter]⟩

/-- Where counts stay within 2⁵³, training on listings is exact.  Every slot of a centroid is the float
nearest to the mean of the counts and lies between the least and the greatest of them; the same
classifier comes of the samples in any other order, also if all samples of a label are repeated equally
often. -/
theorem exact_means_of_listings (c : Classifier) (samples : List (String × String))
    (h : ExactlySummable c.matcher samples) :
    answer (trainSamplesInPlace samples) c = .ok () ∧
    (∀ label ∈ samples.map (·.1), ∃ g,
      (after (trainSamplesInPlace samples) c).centroids.get? label = some g ∧
      g.size = Slot.all.length ∧
      ∀ (i : Nat) slot x, Slot.all[i]? = some slot → g.slots[i]? = some x →
        let counts := slotCounts c.matcher samples label slot
        IsNearest x (counts.sum / (listingsOf samples label).length) ∧
          ∃ least greatest, counts.min? = some least ∧ counts.max? = some greatest ∧
            ofCount least ≤ x ∧ x ≤ ofCount greatest) ∧
    (∀ samples' : List (String × String), samples'.Perm samples → c.LearnsAlike samples samples') ∧
    ∀ (copies : String → Nat) (samples' : List (String × String)), (∀ label, 0 < copies label) →
      samples'.Perm (repeated copies samples) → ExactlySummable c.matcher samples' →
        c.LearnsAlike samples samples' := by
  refine ⟨answer_trainSamples h, fun label hlabel => ?_, fun samples' hperm => ?_,
    fun copies samples' hcopies hperm h' => learnsAlike_of_perm_repeated h h' hcopies hperm⟩
  · have hne : listingsOf samples label ≠ [] := fun hnil => listingsOf_eq_nil_iff.1 hnil hlabel
    refine ⟨exactMean c.matcher samples label, ?_, List.length_map _, fun i slot x hslot hx => ?_⟩
    · rw [get?_after_trainSamples h, if_neg hne]
    · unfold exactMean at hx
      rw [List.getElem?_map, hslot, Option.map_some, Option.some.injEq] at hx
      subst hx
      exact slot_of_exactMean h hne (List.mem_of_getElem? hslot)
  · have hrepeated : repeated (fun _ => 1) samples = samples := List.flatMap_singleton' samples
    have hperm' : samples'.Perm (repeated (fun _ => 1) samples) := hrepeated.symm ▸ hperm
    exact learnsAlike_of_perm_repeated h (exactlySummable_of_perm h hperm) (fun _ => Nat.one_pos)
      hperm'

/-- Three listings of one label, one of which calls, come twice each and in another order. -/
theorem exact_means_of_repeated_listings :
    let samples := [("c", "mov eax, 1"), ("go", "ret"), ("c", "call f"), ("c", "xor eax, eax")]
    let samples' := [("c", "call f"), ("c", "mov eax, 1"), ("c", "xor eax, eax"), ("go", "ret"),
      ("c", "xor eax, eax"), ("c", "mov eax, 1"), ("c", "call f")]
    let copies := fun label => if label = "c" then 2 else 1
    ExactlySummable .substring samples ∧ ExactlySummable .substring samples' ∧
      (∀ label, 0 < copies label) ∧ samples'.Perm (repeated copies samples) ∧
      (untrained .substring).LearnsAlike samples samples' ∧
      ∃ g, (after (trainSamplesInPlace samples) (untrained .substring)).centroids.get? "c" = some g ∧
        g.size = Slot.all.length := by
  intro samples samples' copies
  have h : ExactlySummable .substring samples :=
    exactlySummable_of_total (by decide) (by decide +kernel)
  have h' : ExactlySummable .substring samples' :=
    exactlySummable_of_total (by decide) (by decide +kernel)
  have hcopies : ∀ label, 0 < copies label := fun label => by
    show 0 < if label = "c" then 2 else 1
    split <;> decide
  have hperm : samples'.Perm (repeated copies samples) := by decide +kernel
  obtain ⟨-, hmeans, -, hrepeated⟩ := exact_means_of_listings (untrained .substring) samples h
  obtain ⟨g, hg, hsize, -⟩ := hmeans "c" List.mem_cons_self
  exact ⟨h, h', hcopies, hperm, hrepeated copies samples' hcopies hperm h', g, hg, hsize⟩

end Classifier

end AsmOrigin
