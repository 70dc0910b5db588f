import AsmOrigin.Proofs.Queries
import AsmOrigin.Proofs.Training.Means

/-!
Every classifier that training can lead to.

Whatever the calls, no centroid holds a slot that is not a number or is negative (`sound_afterCalls`); an
infinite slot comes from a sum that overflowed.  Queries with finite slots are therefore answered with
numbers between zero and one and with a label that is known.
-/

namespace AsmOrigin

open Binary64 TrainingSet

/-! ## Calls -/

/-- A call that trains a classifier in place. -/
inductive TrainingCall where
  | train (t : TrainingSet)
  | trainSamples (samples : List (String × String))

namespace TrainingCall

def perform : TrainingCall → Classifier.Change Unit
  | train t => Classifier.trainInPlace t
  | trainSamples samples => Classifier.trainSamplesInPlace samples

/-- The batch that a classifier with this matcher learns from the call. -/
def batch (m : Matcher) : TrainingCall → TrainingSet
  | train t => t
  | trainSamples samples => .ofSamples m samples

/-- No list or text of the call is longer than a machine word can count. -/
def WordSized : TrainingCall → Prop
  | train t => t.fingerprints.length < 2 ^ 64 ∧ t.labels.length < 2 ^ 64
  | trainSamples samples => samples.length < 2 ^ 64 ∧
      ∀ s ∈ samples, (utf8 s.1).length < 2 ^ 64 ∧ (utf8 s.2).length < 2 ^ 64

theorem length_labels_batch_lt {call : TrainingCall} (h : call.WordSized) (m : Matcher) :
    (call.batch m).labels.length < 2 ^ 64 := by
  cases call with
  | train t => exact h.2
  | trainSamples samples =>
    rw [batch, TrainingSet.labels_ofSamples, List.length_map]
    exact h.1

end TrainingCall

namespace Classifier

/-- The classifier after one call after another. -/
def afterCalls (c : Classifier) (calls : List TrainingCall) : Classifier :=
  calls.foldl (fun c call => after call.perform c) c

theorem after_perform (call : TrainingCall) (c : Classifier) :
    after call.perform c = after (trainInPlace (call.batch c.matcher)) c := by
  cases call with
  | train t => rfl
  | trainSamples samples => exact congrArg Prod.snd (run_trainSamplesInPlace samples c)

/-- A run of calls is a run of the batches they stand for. -/
theorem afterCalls_eq (calls : List TrainingCall) (c : Classifier) :
    c.afterCalls calls = c.afterAll (calls.map (·.batch c.matcher)) := by
  induction calls generalizing c with
  | nil => rfl
  | cons call r ih =>
    show (after call.perform c).afterCalls r = _
    rw [after_perform, ih, matcher_after]
    rfl

theorem matcher_afterCalls (calls : List TrainingCall) (c : Classifier) :
    (c.afterCalls calls).matcher = c.matcher := by
  induction calls generalizing c with
  | nil => rfl
  | cons call r ih =>
    show ((after call.perform c).afterCalls r).matcher = _
    rw [ih, after_perform, matcher_after]

/-! ## Centroids -/

theorem length_members_le (t : TrainingSet) (label : String) :
    (members t.pairs label).length ≤ t.labels.length := by
  refine (List.length_filterMap_le _ _).trans ?_
  rw [pairs, List.length_zip]
  exact min_le_left _ _

theorem slots_of_isLastLesson {batches : List TrainingSet} {label : String} {t : TrainingSet}
    (ht : IsLastLesson batches label t) (hlen : ∀ u ∈ batches, u.labels.length < 2 ^ 64)
    {slot : Nat} {x : Float} (hx : (t.mean label).slots[slot]? = some x) :
    Within 0 ⊤ x ∧ (x.isInf = true →
      (sumFloats ((members t.pairs label).filterMap (·.slots[slot]?))).isInf = true) := by
  obtain ⟨hacc, hmem, before, later, rfl, -⟩ := ht
  have hx' : x = slotMean (members t.pairs label) slot := by
    unfold mean at hx
    rw [List.getElem?_map, Option.map_eq_some_iff] at hx
    obtain ⟨n, hn, rfl⟩ := hx
    obtain ⟨hlt, rfl⟩ := List.getElem?_eq_some_iff.1 hn
    rw [List.getElem_range]
  subst hx'
  refine within_slotMean ((mem_labels_iff hacc).1 hmem) ?_ ?_ slot
  · exact (length_members_le t label).trans_lt
      (hlen t (List.mem_append_right _ List.mem_cons_self))
  · intro f hf y hy hbad
    obtain ⟨i, hs⟩ := mem_members_iff.1 hf
    exact hacc.2 i label f hs (.inr ⟨y, hy, hbad⟩)

/-! ## Answers -/

/-- No centroid holds a slot that is negative or not a number. -/
def Sound (c : Classifier) : Prop :=
  ∀ label g, c.centroids.get? label = some g → ∀ y ∈ g.slots, Within 0 ⊤ y

variable {c : Classifier} {f : Fingerprint}

theorem within_scores (hc : c.Sound) (hf : ∀ x ∈ f.slots, x.isFinite = true)
    {s : String × Float} (hs : s ∈ c.scores f) : Within 0 1 s.2 := by
  obtain ⟨⟨label, g⟩, he, rfl⟩ := List.mem_map.1 hs
  exact within_similarity hf (hc label g ((OrderedMap.mem_entries_iff _ _ _).1 he))

theorem predictFingerprint_mem (hc : c.Sound) (ht : c.isTrained = true)
    (hf : ∀ x ∈ f.slots, x.isFinite = true) :
    ∃ label ∈ c.labels, c.predictFingerprint f = .ok label := by
  have hne : c.scores f ≠ [] := by simpa [scores] using entries_ne_nil ht
  obtain ⟨s, hs, hbest, -⟩ := bestLabel_spec hne
    fun s hs => (within_scores hc hf hs).mono le_rfl le_top
  refine ⟨s.1, fst_mem_labels hs, ?_⟩
  unfold predictFingerprint whenTrained
  rw [if_pos ht, hbest]

theorem within_shares (hc : c.Sound) (hf : ∀ x ∈ f.slots, x.isFinite = true) {x : Float}
    (hx : x ∈ (c.shares f).values) : Within 0 1 x := by
  obtain ⟨s, hs, rfl⟩ := mem_values_shares_iff.1 hx
  have hall : ∀ y ∈ (c.scores f).map (·.2), Within 0 1 y :=
    List.forall_mem_map.2 fun s' hs' => within_scores hc hf hs'
  exact within_share_of_mem hall (List.mem_map_of_mem hs)

theorem predictFingerprint_of_zero (ht : c.isTrained = true) (hzero : ∀ s ∈ c.scores f, Denotes s.2 0) :
    ∃ least ∈ c.labels, c.predictFingerprint f = .ok least ∧
      ∀ k ∈ c.labels, k = least ∨ utf8 least < utf8 k := by
  obtain ⟨e, r, he⟩ := List.exists_cons_of_ne_nil (entries_ne_nil ht)
  have hscores : c.scores f = (e.1, similarity f e.2) :: r.map fun e => (e.1, similarity f e.2) := by
    unfold scores
    rw [he, List.map_cons]
  have hlabels : c.labels = e.1 :: r.map (·.1) := by
    unfold labels OrderedMap.keys
    rw [he, List.map_cons]
  have hbest : bestLabel (c.scores f) = e.1 := by
    rw [hscores] at hzero ⊢
    exact bestLabel_of_zero hzero
  refine ⟨e.1, hlabels ▸ List.mem_cons_self, ?_, fun k hk => ?_⟩
  · unfold predictFingerprint whenTrained
    rw [if_pos ht, hbest]
  · have hasc := pairwise_labels c
    rw [hlabels] at hasc hk
    exact (List.mem_cons.1 hk).imp_right ((List.pairwise_cons.1 hasc).1 k)

theorem shares_of_zero (hzero : ∀ s ∈ c.scores f, Denotes s.2 0) {x : Float}
    (hx : x ∈ (c.shares f).values) : Denotes x 0 := by
  obtain ⟨s, hs, rfl⟩ := mem_values_shares_iff.1 hx
  have htotal : Denotes (sumFloats ((c.scores f).map (·.2))) 0 := by
    refine denotes_sumFloats_zero fun y hy => ?_
    obtain ⟨s', hs', rfl⟩ := List.mem_map.1 hy
    exact hzero s' hs'
  have hshare := denotes_share htotal ⟨0, hzero s hs, le_rfl, zero_le_one⟩ (hzero s hs)
  rwa [if_neg (lt_irrefl _)] at hshare

/-! ## All runs -/

theorem exists_isLastLesson_of_afterCalls {calls : List TrainingCall}
    (hcalls : ∀ call ∈ calls, call.WordSized) {m : Matcher} {label : String} {g : Fingerprint}
    (hg : ((untrained m).afterCalls calls).centroids.get? label = some g) :
    ∃ t, IsLastLesson (calls.map (·.batch m)) label t ∧ g = t.mean label ∧
      ∀ (slot : Nat) x, g.slots[slot]? = some x → Within 0 ⊤ x ∧ (x.isInf = true →
        (sumFloats ((members t.pairs label).filterMap (·.slots[slot]?))).isInf = true) := by
  rw [afterCalls_eq, get?_afterAll_iff] at hg
  obtain ⟨t, ht, rfl⟩ := hg
  refine ⟨t, ht, rfl, fun slot x hx => slots_of_isLastLesson ht (fun u hu => ?_) hx⟩
  obtain ⟨call, hcall, rfl⟩ := List.mem_map.1 hu
  exact TrainingCall.length_labels_batch_lt (hcalls call hcall) m

/-- Batches of realistic lengths leave no slot that is negative or not a number. -/
theorem sound_afterCalls_of_length {calls : List TrainingCall} {m : Matcher}
    (hlen : ∀ call ∈ calls, (call.batch m).labels.length < 2 ^ 64) :
    ((untrained m).afterCalls calls).Sound := by
  intro label g hg y hy
  rw [afterCalls_eq, get?_afterAll_iff] at hg
  obtain ⟨t, ht, rfl⟩ := hg
  obtain ⟨slot, hslot⟩ := List.mem_iff_getElem?.1 hy
  exact (slots_of_isLastLesson ht (List.forall_mem_map.2 hlen) hslot).1

theorem sound_afterCalls {calls : List TrainingCall} (hcalls : ∀ call ∈ calls, call.WordSized)
    (m : Matcher) : ((untrained m).afterCalls calls).Sound :=
  sound_afterCalls_of_length fun call h => TrainingCall.length_labels_batch_lt (hcalls call h) m

/-- After any run of training calls, accepted or refused, every slot of every centroid is a number that
is not negative, and infinite only where the sum over the samples of the label's last accepted batch is.
A fingerprint with finite slots, such as that of any text, then gets similarities and confidences between
zero and one and a known label; if it is similar to nothing, the least label and confidences of zero. -/
theorem answers_in_every_reachable_state (m : Matcher) (calls : List TrainingCall)
    (hcalls : ∀ call ∈ calls, call.WordSized) :
    let c := (untrained m).afterCalls calls
    (∀ label (g : Fingerprint), c.centroids.get? label = some g →
      ∃ t, IsLastLesson (calls.map (·.batch m)) label t ∧ g = t.mean label ∧
        ∀ (slot : Nat) x, g.slots[slot]? = some x → x.isNaN = false ∧ 0.0 ≤ x ∧ (x.isInf = true →
          (sumFloats ((members t.pairs label).filterMap (·.slots[slot]?))).isInf = true)) ∧
    (m.WordSized → ∀ text, (utf8 text).length < 2 ^ 64 →
      ∀ x ∈ (c.extract text).slots, x.isFinite = true) ∧
    (c.isTrained = true → ∀ f : Fingerprint, (∀ x ∈ f.slots, x.isFinite = true) →
      (∀ label g, c.centroids.get? label = some g → IsConfidence (similarity f g)) ∧
      (∃ label ∈ c.labels, c.predictFingerprint f = .ok label) ∧
      (∃ shares, c.confidencesFor f = .ok shares ∧ shares.keys = c.labels ∧
        ∀ x ∈ shares.values, IsConfidence x) ∧
      ((∀ label g, c.centroids.get? label = some g → (similarity f g == 0.0) = true) →
        (∃ least ∈ c.labels, c.predictFingerprint f = .ok least ∧
          ∀ k ∈ c.labels, k = least ∨ utf8 least < utf8 k) ∧
        ∃ shares, c.confidencesFor f = .ok shares ∧ ∀ x ∈ shares.values, (x == 0.0) = true)) := by
  intro c
  have hc : c.Sound := sound_afterCalls hcalls m
  refine ⟨fun label g hg => ?_, fun hm text htext x hx => ?_, fun ht f hf => ⟨?_, ?_, ?_, ?_⟩⟩
  · obtain ⟨t, ht, hmean, hslots⟩ := exists_isLastLesson_of_afterCalls hcalls hg
    refine ⟨t, ht, hmean, fun slot x hx => ?_⟩
    obtain ⟨⟨a, ha, ha0, -⟩, hinf⟩ := hslots slot x hx
    exact ⟨ha.1, (le_iff_le denotes_zero ha).2 ha0, hinf⟩
  · have hmatcher : c.matcher = m := matcher_afterCalls calls (untrained m)
    have hlen : text.toList.length < 2 ^ 64 := (length_toList_le_utf8 text).trans_lt htext
    unfold extract at hx
    rw [hmatcher] at hx
    obtain ⟨r, hr, -, -⟩ := exists_coe_of_within (within_slots_ofListing hm hlen hx)
    exact (isFinite_iff hr).2 ⟨r, rfl⟩
  · intro label g hg
    exact isConfidence_of_within (within_similarity hf (hc label g hg))
  · exact predictFingerprint_mem hc ht hf
  · exact ⟨c.shares f, confidencesFor_eq ht f, OrderedMap.keys_mapValues _ _,
      fun x hx => isConfidence_of_within (within_shares hc hf hx)⟩
  · intro hzero
    have hscores : ∀ s ∈ c.scores f, Denotes s.2 0 := by
      intro s hs
      obtain ⟨a, ha⟩ := exists_denotes (within_scores hc hf hs).isNaN_eq
      obtain ⟨⟨label, g⟩, he, rfl⟩ := List.mem_map.1 hs
      have hbeq := hzero label g ((OrderedMap.mem_entries_iff _ _ _).1 he)
      rwa [(beq_iff_eq ha denotes_zero).1 hbeq] at ha
    refine ⟨predictFingerprint_of_zero ht hscores, c.shares f, confidencesFor_eq ht f, ?_⟩
    exact fun x hx => (beq_iff_eq (shares_of_zero hscores hx) denotes_zero).2 rfl

/-- A batch whose sum overflows leaves an infinite centroid, and queries are still answered. -/
theorem answers_after_an_overflowing_batch :
    let call := TrainingCall.train ⟨[⟨[1.7e308]⟩, ⟨[1.7e308]⟩], ["a", "a"]⟩
    let c := (untrained .substring).afterCalls [call]
    call.WordSized ∧ ((c.centroids.get? "a").map fun g => g.slots.map Float.isInf) = some [true] ∧
      ∃ label ∈ c.labels, c.predictFingerprint ⟨[0.0]⟩ = .ok label := by
  intro call c
  have hcall : call.WordSized := ⟨by decide, by decide⟩
  have hcalls : ∀ call' ∈ [call], call'.WordSized := fun call' h => List.mem_singleton.1 h ▸ hcall
  have htrained : c.isTrained = true := by decide +kernel
  have hfinite : ∀ x ∈ (⟨[0.0]⟩ : Fingerprint).slots, x.isFinite = true := by decide +kernel
  obtain ⟨-, -, h⟩ := answers_in_every_reachable_state .substring [call] hcalls
  exact ⟨hcall, by decide +kernel, (h htrained ⟨[0.0]⟩ hfinite).2.1⟩

end Classifier

end AsmOrigin
