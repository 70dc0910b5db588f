import AsmOrigin.Proofs.Training.Listings

/-!
Runs of training on listings.

One call with listings is accepted and keeps the centroids bounded (`Classifier.OfListings.train`), so no
call of a run from an untrained classifier is refused.  Every text is then comparable with every centroid,
and similar to it (`Classifier.listings_never_refused`).
-/

namespace AsmOrigin

open Binary64

/-- The listings are texts of fewer than 2⁶⁴ bytes. -/
def AreShort (samples : List (String × String)) : Prop := ∀ s ∈ samples, (utf8 s.2).length < 2 ^ 64

namespace Classifier

variable {c : Classifier} {calls : List (List (String × String))} {samples : List (String × String)}

/-- The classifier after training on one list of listings after another. -/
def afterListings (c : Classifier) (calls : List (List (String × String))) : Classifier :=
  c.afterCalls (calls.map .trainSamples)

/-- What is true of a classifier that learned from listings only: its centroids have all slots, and these
are bounded like means of counts. -/
structure OfListings (c : Classifier) : Prop where
  wordSized : c.matcher.WordSized
  bounded : c.Bounded Slot.all.length 121

theorem ofListings_untrained {m : Matcher} (hm : m.WordSized) : (untrained m).OfListings :=
  ⟨hm, bounded_untrained m _ _⟩

/-! ## One call -/

theorem OfListings.train (hc : c.OfListings) (hsamples : AreShort samples) :
    answer (trainSamplesInPlace samples) c = .ok () ∧
      (after (trainSamplesInPlace samples) c).OfListings ∧
      ∀ label, label ∈ (after (trainSamplesInPlace samples) c).labels ↔
        label ∈ samples.map (·.1) ∨ label ∈ c.labels := by
  have hlen : ∀ s ∈ samples, s.2.toList.length < 2 ^ 64 := fun s hs =>
    (length_toList_le_utf8 s.2).trans_lt (hsamples s hs)
  obtain ⟨hacc, hbounded⟩ := bounded_after_ofSamples hc.bounded hc.wordSized hlen
  rw [after_trainSamples]
  refine ⟨answer_trainSamples_eq_ok_iff.2 hacc, ⟨?_, hbounded⟩, mem_labels_after_ofSamples hacc⟩
  rw [matcher_after]
  exact hc.wordSized

/-! ## Runs -/

theorem OfListings.run (hc : c.OfListings) (hcalls : ∀ samples ∈ calls, AreShort samples) :
    (c.afterListings calls).OfListings ∧ ∀ label, label ∈ (c.afterListings calls).labels ↔
      label ∈ c.labels ∨ ∃ samples ∈ calls, label ∈ samples.map (·.1) := by
  induction calls generalizing c with
  | nil => exact ⟨hc, fun label => by simp [afterListings, afterCalls]⟩
  | cons samples r ih =>
    obtain ⟨hsamples, hr⟩ := List.forall_mem_cons.1 hcalls
    obtain ⟨-, hafter, hlabels⟩ := hc.train hsamples
    obtain ⟨hrun, hrun_labels⟩ := ih hafter hr
    refine ⟨hrun, fun label => (hrun_labels label).trans ?_⟩
    rw [hlabels, List.exists_mem_cons_iff, or_assoc, or_left_comm]

/-! ## What a text meets -/

theorem isFinite_of_within {k : ℤ} {x : Float} (hx : Within 0 (twoPow k) x) :
    x.isFinite = true ∧ 0.0 ≤ x := by
  obtain ⟨r, hr, hr0, -⟩ := exists_coe_of_within hx
  exact ⟨(isFinite_iff hr).2 ⟨r, rfl⟩, (le_iff_le denotes_zero hr).2 (EReal.coe_nonneg.2 hr0)⟩

/-- A text can be compared with every centroid, and no centroid is so far away that nothing of the
similarity is left. -/
theorem OfListings.similarity_pos (hc : c.OfListings) {text : String}
    (htext : (utf8 text).length < 2 ^ 64) {label : String} {g : Fingerprint}
    (hg : c.centroids.get? label = some g) :
    (c.extract text).size = g.size ∧ 0.0 < similarity (c.extract text) g := by
  obtain ⟨hsize, hslots⟩ := hc.bounded label g hg
  have hlen : text.toList.length < 2 ^ 64 := (length_toList_le_utf8 text).trans_lt htext
  have hextract : ∀ x ∈ (c.extract text).slots, Within 0 (twoPow 121) x := fun x hx =>
    (within_slots_ofListing hc.wordSized hlen hx).mono le_rfl (twoPow_mono (by norm_num))
  have hcomparable : (c.extract text).size = g.size := (size_ofListing _ text).trans hsize.symm
  obtain ⟨a, ha, hpos, -⟩ :=
    within_similarity_of_le (by norm_num) (by norm_num) hcomparable hextract hslots
  exact ⟨hcomparable, (lt_iff_lt denotes_zero ha).2 ((twoPow_pos _).trans_le hpos)⟩

/-- No call that trains on listings is refused, whatever the matcher, however many calls and listings
there are, and whatever the listings hold.  After any run of such calls the labels are those of all
listings so far, and every centroid has twenty slots, each finite and not negative.  So the scores of a
text are those of all labels, and each is the positive similarity to a comparable centroid. -/
theorem listings_never_refused (m : Matcher) (hm : m.WordSized) (calls : List (List (String × String)))
    (hcalls : ∀ samples ∈ calls, AreShort samples) :
    let c := (untrained m).afterListings calls
    (∀ before samples behind, calls = before ++ samples :: behind →
      answer (trainSamplesInPlace samples) ((untrained m).afterListings before) = .ok ()) ∧
    (∀ label, label ∈ c.labels ↔ ∃ samples ∈ calls, label ∈ samples.map (·.1)) ∧
    (∀ label g, c.centroids.get? label = some g →
      g.size = 20 ∧ ∀ x ∈ g.slots, x.isFinite = true ∧ 0.0 ≤ x) ∧
    ∀ text, (utf8 text).length < 2 ^ 64 →
      (c.scores (c.extract text)).map (·.1) = c.labels ∧
      ∀ s ∈ c.scores (c.extract text), ∃ g, c.centroids.get? s.1 = some g ∧
        (c.extract text).size = g.size ∧ s.2 = similarity (c.extract text) g ∧ 0.0 < s.2 := by
  intro c
  have hstart := ofListings_untrained hm
  obtain ⟨hc, hlabels⟩ := hstart.run hcalls
  refine ⟨fun before samples behind hsplit => ?_,
    fun label => (hlabels label).trans (or_iff_right List.not_mem_nil), fun label g hg => ?_,
    fun text htext => ⟨List.map_map, fun s hs => ?_⟩⟩
  · rw [hsplit, List.forall_mem_append, List.forall_mem_cons] at hcalls
    obtain ⟨hbefore, hsamples, -⟩ := hcalls
    exact ((hstart.run hbefore).1.train hsamples).1
  · obtain ⟨hsize, hslots⟩ := hc.bounded label g hg
    exact ⟨hsize, fun x hx => isFinite_of_within (hslots x hx)⟩
  · obtain ⟨⟨label, g⟩, he, rfl⟩ := List.mem_map.1 hs
    have hg : c.centroids.get? label = some g := (OrderedMap.mem_entries_iff _ _ _).1 he
    obtain ⟨hcomparable, hpos⟩ := hc.similarity_pos htext hg
    exact ⟨g, hg, hcomparable, rfl, hpos⟩

/-- Two calls, one of them with an empty listing, and a text that neither of them held. -/
theorem listings_never_refused_two_calls :
    let calls := [[("c", "mov eax, 1"), ("c", "")], [("go", "call f")]]
    let c := (untrained .substring).afterListings calls
    (∀ samples ∈ calls, AreShort samples) ∧ c.labels = ["c", "go"] ∧
      answer (trainSamplesInPlace [("go", "call f")])
        ((untrained .substring).afterListings [[("c", "mov eax, 1"), ("c", "")]]) = .ok () ∧
      ∀ s ∈ c.scores (c.extract "push rbp"), 0.0 < s.2 := by
  intro calls c
  have hcalls : ∀ samples ∈ calls, AreShort samples := by
    unfold AreShort
    decide
  obtain ⟨hok, -, -, htext⟩ :=
    listings_never_refused .substring Matcher.wordSized_substring calls hcalls
  refine ⟨hcalls, by decide +kernel, hok [_] _ [] rfl, fun s hs => ?_⟩
  obtain ⟨g, -, -, -, hpos⟩ := (htext "push rbp" (by decide)).2 s hs
  exact hpos

end Classifier

end AsmOrigin
