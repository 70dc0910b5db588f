import AsmOrigin.Commands
import AsmOrigin.Proofs.Training.ExactMeans
import AsmOrigin.Proofs.Work

/-!
The demonstration comes out right, however many copies it trains on.

No slot of a snippet counts more than sixteen (`count_le_sixteen`), so the sums over up to 2⁴⁹ copies are
exact and the mean of any number of copies is that of one (`train_trainingSet`).  What remains to be
evaluated is one classifier on four fingerprints (`isClear_by_learned`).
-/

namespace AsmOrigin.Demo

open Work Classifier

/-! ## The snippets in numbers -/

/-- What the slots of each snippet count, beside its label. -/
def slotTable : List (String × List Nat) :=
  [("C", [9, 3, 1, 1, 0, 1, 2, 0, 2, 1, 1, 0, 0, 0, 0, 0, 0, 1, 0, 0]),
   ("C++", [9, 3, 1, 1, 0, 1, 2, 0, 2, 0, 0, 2, 0, 0, 0, 0, 0, 1, 0, 0]),
   ("Python", [9, 3, 1, 1, 0, 0, 3, 1, 3, 0, 0, 0, 0, 1, 2, 0, 0, 1, 0, 0]),
   ("Go", [9, 3, 1, 1, 0, 0, 3, 1, 3, 0, 0, 0, 0, 0, 0, 2, 1, 1, 0, 0])]

/-- The counts of a snippet. -/
def countsOf (s : String × String) : String × List Nat :=
  (s.1, Slot.all.map fun slot => slot.count (.ofListing .substring s.2))

-- the characters are taken from the literals here: decoding them from their bytes is what would be slow
set_option maxRecDepth 4000 in
theorem map_countsOf_snippets : snippets.map countsOf = slotTable := by
  simp only [snippets, countsOf, List.map_cons, List.map_nil, Profile.ofListing]
  rw [show cSnippet.toList = _ from String.toList_ofList,
    show cppSnippet.toList = _ from String.toList_ofList,
    show pythonSnippet.toList = _ from String.toList_ofList,
    show goSnippet.toList = _ from String.toList_ofList]
  decide +kernel

/-- A line of the table as a fingerprint. -/
def tableFingerprint (e : String × List Nat) : Fingerprint := ⟨e.2.map ofCount⟩

theorem tableFingerprint_countsOf (s : String × String) :
    tableFingerprint (countsOf s) = .ofListing .substring s.2 := by
  rw [Fingerprint.ofListing, Profile.fingerprint_eq]
  exact congrArg Fingerprint.mk List.map_map

theorem count_le_sixteen {s : String × String} (hs : s ∈ snippets) {slot : Slot}
    (hslot : slot ∈ Slot.all) : slot.count (.ofListing .substring s.2) ≤ 16 := by
  have htable : ∀ e ∈ slotTable, ∀ n ∈ e.2, n ≤ 16 := by decide
  have hmem : countsOf s ∈ slotTable := map_countsOf_snippets ▸ List.mem_map_of_mem hs
  exact htable _ hmem _ (List.mem_map_of_mem hslot)

/-! ## Any number of copies -/

theorem length_listingsOf_snippets (label : String) : (listingsOf snippets label).length ≤ 1 := by
  have hnodup : (snippets.map (·.1)).Nodup := by decide
  rw [length_listingsOf]
  exact List.nodup_iff_count_le_one.1 hnodup label

theorem sum_slotCounts_snippets_le (label : String) {slot : Slot} (hslot : slot ∈ Slot.all) :
    (slotCounts .substring snippets label slot).sum ≤ 16 := by
  have hcount : ∀ n ∈ slotCounts .substring snippets label slot, n ≤ 16 := by
    intro n hn
    obtain ⟨listing, hlisting, rfl⟩ := List.mem_map.1 hn
    obtain ⟨s, hs, rfl⟩ := List.mem_map.1 ((listingsOf_sublist snippets label).subset hlisting)
    exact count_le_sixteen hs hslot
  have hsum := List.sum_le_card_nsmul _ 16 hcount
  have hlen : (slotCounts .substring snippets label slot).length ≤ 1 := by
    unfold slotCounts
    rw [List.length_map]
    exact length_listingsOf_snippets label
  rw [smul_eq_mul] at hsum
  omega

/-- The snippets, each so many times. -/
abbrev copiesOf (copies : Nat) : List (String × String) := repeated (fun _ => copies) snippets

theorem copiesOf_one : copiesOf 1 = snippets := List.flatMap_singleton' snippets

theorem trainingSet_eq (copies : Nat) :
    trainingSet copies = TrainingSet.ofSamples .substring (copiesOf copies) := by
  rw [TrainingSet.ofSamples_eq]
  unfold trainingSet copiesOf repeated
  rw [List.map_flatMap]
  simp only [List.map_replicate]

theorem exactlySummable_copiesOf {copies : Nat} (h : copies ≤ 2 ^ 49) :
    ExactlySummable .substring (copiesOf copies) := by
  apply exactlySummable_repeated
  · intro label
    have := Nat.mul_le_mul h (length_listingsOf_snippets label)
    omega
  · intro label slot hslot
    have := Nat.mul_le_mul h (sum_slotCounts_snippets_le label hslot)
    omega

/-- The classifier that one copy of each snippet leads to. -/
def learned : Classifier :=
  after (trainInPlace (.ofPairs (slotTable.map fun e => (e.1, tableFingerprint e))))
    (untrained .substring)

theorem learned_eq : learned = after (trainSamplesInPlace snippets) (untrained .substring) := by
  have htable : trainingSet 1 = .ofPairs (slotTable.map fun e => (e.1, tableFingerprint e)) := by
    have hline : (fun e : String × List Nat => (e.1, tableFingerprint e)) ∘ countsOf =
        fun s => (s.1, .ofListing .substring s.2) :=
      funext fun s => congrArg (Prod.mk s.1) (tableFingerprint_countsOf s)
    unfold trainingSet
    rw [← map_countsOf_snippets, List.map_map, hline, List.map_eq_flatMap]
    rfl
  rw [after_trainSamples, learned, ← htable, trainingSet_eq, copiesOf_one]
  rfl

/-- Training on any number of copies up to 2⁴⁹ leads to the same classifier. -/
theorem train_trainingSet {copies : Nat} (h0 : 1 ≤ copies) (h : copies ≤ 2 ^ 49) :
    ((untrained .substring).train (trainingSet copies)).2 = .ok learned := by
  have hsnippets : ExactlySummable .substring snippets :=
    copiesOf_one ▸ exactlySummable_copiesOf (by norm_num)
  have hcopies := exactlySummable_copiesOf h
  have hsame := learnsAlike_of_perm_repeated (c := untrained .substring) hsnippets hcopies
    (fun _ => h0) (List.Perm.refl _)
  rw [trainingSet_eq, train_of_accepted (accepted_ofSamples hcopies), learned_eq,
    ← hsame.after_eq, after_trainSamples]
  rfl

/-! ## The snippets classified -/

/-- What a classifier makes of a labelled fingerprint. -/
def outcomeOf (c : Classifier) (label : String) (f : Fingerprint) : Outcome :=
  ⟨label, bestLabel (c.scores f), c.shares f⟩

/-- The expected label is recognized, and no other label of the four is as likely. -/
structure Outcome.IsClear (o : Outcome) : Prop where
  correct : o.isCorrect = true
  labels : o.prediction.confidences.keys = ["C", "C++", "Go", "Python"]
  greatest : ∃ x, o.prediction.confidences.get? o.expected = some x ∧
    ∀ label y, o.prediction.confidences.get? label = some y → label ≠ o.expected → y < x

/-- A greatest value of a map, by its entries. -/
theorem greatest_of_entries {m : OrderedMap Float} {label : String} (hlabel : label ∈ m.keys)
    (h : ∀ e ∈ m.entries, e.1 ≠ label → e.2 < (m.get? label).getD 0.0) :
    ∃ x, m.get? label = some x ∧ ∀ k y, m.get? k = some y → k ≠ label → y < x := by
  obtain ⟨x, hx⟩ := Option.isSome_iff_exists.1 ((OrderedMap.mem_keys_iff m label).1 hlabel)
  rw [hx] at h
  exact ⟨x, hx, fun k y hy hne => h (k, y) ((OrderedMap.mem_entries_iff m k y).2 hy) hne⟩

theorem isClear_by_learned : ∀ e ∈ slotTable, (outcomeOf learned e.1 (tableFingerprint e)).IsClear := by
  have hevaluated : ∀ e ∈ slotTable,
      let o := outcomeOf learned e.1 (tableFingerprint e)
      o.isCorrect = true ∧ o.prediction.confidences.keys = ["C", "C++", "Go", "Python"] ∧
        o.expected ∈ ["C", "C++", "Go", "Python"] ∧
        ∀ s ∈ o.prediction.confidences.entries, s.1 ≠ o.expected →
          s.2 < (o.prediction.confidences.get? o.expected).getD 0.0 := by
    decide +kernel
  intro e he
  obtain ⟨hcorrect, hkeys, hmem, hgreatest⟩ := hevaluated e he
  exact ⟨hcorrect, hkeys, greatest_of_entries (hkeys ▸ hmem) hgreatest⟩

theorem isClear_of_mem_snippets {s : String × String} (hs : s ∈ snippets) :
    (outcomeOf learned s.1 (.ofListing .substring s.2)).IsClear := by
  have hmem : countsOf s ∈ slotTable := map_countsOf_snippets ▸ List.mem_map_of_mem hs
  rw [← tableFingerprint_countsOf]
  exact isClear_by_learned _ hmem

/-! ## The run -/

variable {c : Classifier} {t : FileTree}

theorem endsIn_classifySnippets (h : c.isTrained = true) (listings : List (String × String)) :
    EndsIn (classifySnippets c listings) t
      (.ok (listings.map fun s => outcomeOf c s.1 (c.extract s.2))) := by
  induction listings with
  | nil => exact endsIn_pure []
  | cons s r ih =>
    obtain ⟨label, listing⟩ := s
    have hclassify : c.classify listing =
        .ok ⟨bestLabel (c.scores (c.extract listing)), c.shares (c.extract listing)⟩ := if_pos h
    have hstep : EndsIn (within (.classifyingDemo label) (ofModel (c.classify listing))) t
        (.ok ⟨bestLabel (c.scores (c.extract listing)), c.shares (c.extract listing)⟩) := by
      rw [hclassify]
      exact endsIn_within (endsIn_ofExcept rfl) _
    exact endsIn_bind_ok hstep (endsIn_bind_ok ih (endsIn_pure _))

/-- An untrained classifier fails at the first snippet. -/
theorem endsIn_classifySnippets_of_untrained (h : c.isTrained = false) (s : String × String)
    (r : List (String × String)) : EndsIn (classifySnippets c (s :: r)) t
      (.error ⟨[.classifyingDemo s.1], .model .untrained⟩) := by
  obtain ⟨label, listing⟩ := s
  have hclassify : c.classify listing = .error .untrained := if_neg (by simp [h])
  have hstep : EndsIn (within (.classifyingDemo label) (ofModel (c.classify listing))) t
      (.error ⟨[.classifyingDemo label], .model .untrained⟩) := by
    rw [hclassify]
    exact endsIn_within (endsIn_ofExcept rfl) _
  exact endsIn_bind_error hstep _

theorem endsIn_run {copies : Nat} {r : Except Failure (List Outcome)}
    (h : ((untrained .substring).train (trainingSet copies)).2 = .ok c)
    (hr : EndsIn (classifySnippets c snippets) t r) : EndsIn (run copies) t r := by
  have htrained : EndsIn (trained ((untrained .substring).train (trainingSet copies))) t (.ok c) := by
    refine endsIn_bind_ok (endsIn_report _) (endsIn_ofExcept ?_)
    rw [h]
    rfl
  exact endsIn_bind_ok (endsIn_within htrained .trainingDemo) hr

/-- The demonstration on any tree of files.  Trained on 1 to 2⁴⁹ copies it gives one outcome for each
snippet, in the order of the table: the label is right and alone has the greatest confidence, and all
numbers are those of one copy.  On no copies it fails at the first snippet, since nothing was learned. -/
theorem run_of_any_copies (t : FileTree) :
    (∀ copies, 1 ≤ copies → copies ≤ 2 ^ 49 → ∃ outcomes : List Outcome,
      EndsIn (run copies) t (.ok outcomes) ∧ EndsIn (run 1) t (.ok outcomes) ∧
      outcomes.map (·.expected) = snippets.map (·.1) ∧
      ∀ o ∈ outcomes, o.IsClear) ∧
    EndsIn (run 0) t (.error ⟨[.classifyingDemo "C"], .model .untrained⟩) := by
  constructor
  · intro copies h0 h
    have htrained : learned.isTrained = true := by decide +kernel
    have hends := endsIn_classifySnippets (t := t) htrained snippets
    refine ⟨_, endsIn_run (train_trainingSet h0 h) hends,
      endsIn_run (train_trainingSet le_rfl (by norm_num)) hends, ?_, ?_⟩
    · rw [List.map_map]
      rfl
    · intro o ho
      obtain ⟨s, hs, rfl⟩ := List.mem_map.1 ho
      exact isClear_of_mem_snippets hs
  · have hempty : ((untrained .substring).train (trainingSet 0)).2 = .ok (untrained .substring) := rfl
    exact endsIn_run hempty (endsIn_classifySnippets_of_untrained rfl _ _)

end AsmOrigin.Demo
