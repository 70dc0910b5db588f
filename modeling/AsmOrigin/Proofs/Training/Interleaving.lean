import AsmOrigin.Proofs.Training.Runs

/-!
Training does not see how the labels of a batch are interleaved.

A batch is learned label by label, so all that counts is which fingerprints each label has and in which
order (`SameSequences`): two batches that agree on this are learned alike (`learn_congr`).  Batches
without a common label act on different centroids.  They commute (`after_comm`), and together they are
one batch that is accepted if both are (`accepted_append_iff`).
-/

namespace AsmOrigin

namespace TrainingSet

variable {s t : TrainingSet} {label : String}

/-! ## The same fingerprints for each label -/

/-- Each label has the same fingerprints in the same order. -/
def SameSequences (s t : TrainingSet) : Prop :=
  ∀ label, members s.pairs label = members t.pairs label

theorem groups_congr (h : SameSequences s t) : s.groups = t.groups :=
  OrderedMap.ext_get? fun label => by rw [get?_groups, get?_groups, h label]

theorem count_pairs (pairs : List (String × Fingerprint)) (label : String) (f : Fingerprint) :
    pairs.count (label, f) = (members pairs label).count f := by
  induction pairs with
  | nil => rfl
  | cons p r ih =>
    rw [members_cons]
    by_cases hp : p.1 = label
    · have hbeq : (p == (label, f)) = (p.2 == f) := by
        rw [Bool.eq_iff_iff, beq_iff_eq, beq_iff_eq, Prod.ext_iff]
        exact and_iff_right hp
      rw [if_pos hp, List.count_cons, List.count_cons, ih, hbeq]
    · rw [if_neg hp, ← ih, List.count_cons_of_ne]
      intro h
      exact hp (congrArg Prod.fst h)

/-- Such batches hold the same samples, interleaved in different ways. -/
theorem pairs_perm (h : SameSequences s t) : s.pairs.Perm t.pairs := by
  rw [List.perm_iff_count]
  rintro ⟨label, f⟩
  rw [count_pairs, count_pairs, h label]

theorem length_pairs (h : s.fingerprints.length = s.labels.length) : s.pairs.length = s.size := by
  unfold pairs size
  rw [List.length_zip, h, min_self]

theorem learn_congr (hs : s.fingerprints.length = s.labels.length)
    (ht : t.fingerprints.length = t.labels.length) (h : SameSequences s t) : s.learn = t.learn := by
  unfold learn
  rw [if_pos hs, if_pos ht, groups_congr h]

/-! ## Two batches as one -/

theorem pairs_append (hs : s.fingerprints.length = s.labels.length) (t : TrainingSet) :
    (s ++ t).pairs = s.pairs ++ t.pairs :=
  List.zip_append hs.symm

theorem members_append (xs ys : List (String × Fingerprint)) (label : String) :
    members (xs ++ ys) label = members xs label ++ members ys label :=
  List.filterMap_append

theorem members_eq_nil_of_notMem (h : label ∉ t.labels) : members t.pairs label = [] := by
  rw [members_eq_nil_iff]
  intro hmem
  obtain ⟨⟨k, f⟩, hp, rfl⟩ := List.mem_map.1 hmem
  exact h (List.of_mem_zip hp).1

theorem members_append_left (hs : s.fingerprints.length = s.labels.length) (h : label ∉ t.labels) :
    members (s ++ t).pairs label = members s.pairs label := by
  rw [pairs_append hs, members_append, members_eq_nil_of_notMem h, List.append_nil]

theorem members_append_right (hs : s.fingerprints.length = s.labels.length) (h : label ∉ s.labels) :
    members (s ++ t).pairs label = members t.pairs label := by
  rw [pairs_append hs, members_append, members_eq_nil_of_notMem h, List.nil_append]

/-- A batch is accepted label by label. -/
theorem accepted_iff_groupDefect? : t.Accepted ↔ t.fingerprints.length = t.labels.length ∧
    ∀ label, groupDefect? label (members t.pairs label) = none := by
  rw [← defect?_eq_none_iff_accepted]
  refine and_congr_right fun _ => ?_
  unfold defect?
  rw [List.findSome?_eq_none_iff]
  constructor
  · intro h label
    by_cases hne : members t.pairs label = []
    · rw [hne]
      rfl
    · exact h (label, members t.pairs label) (mem_groups_iff.2 ⟨rfl, hne⟩)
  · rintro h ⟨label, ms⟩ hg
    obtain ⟨rfl, -⟩ := mem_groups_iff.1 hg
    exact h label

theorem length_append (hs : s.fingerprints.length = s.labels.length)
    (ht : t.fingerprints.length = t.labels.length) :
    (s ++ t).fingerprints.length = (s ++ t).labels.length := by
  show (s.fingerprints ++ t.fingerprints).length = (s.labels ++ t.labels).length
  rw [List.length_append, List.length_append, hs, ht]

theorem accepted_append_iff (hs : s.fingerprints.length = s.labels.length)
    (ht : t.fingerprints.length = t.labels.length) (h : s.labels.Disjoint t.labels) :
    (s ++ t).Accepted ↔ s.Accepted ∧ t.Accepted := by
  rw [accepted_iff_groupDefect?, accepted_iff_groupDefect?, accepted_iff_groupDefect?]
  constructor
  · rintro ⟨-, hboth⟩
    refine ⟨⟨hs, fun label => ?_⟩, ht, fun label => ?_⟩
    · by_cases hl : label ∈ t.labels
      · rw [members_eq_nil_of_notMem fun hl' => h hl' hl]
        rfl
      · rw [← members_append_left hs hl]
        exact hboth label
    · by_cases hl : label ∈ s.labels
      · rw [members_eq_nil_of_notMem (h hl)]
        rfl
      · rw [← members_append_right hs hl]
        exact hboth label
  · rintro ⟨⟨-, hleft⟩, -, hright⟩
    refine ⟨length_append hs ht, fun label => ?_⟩
    by_cases hl : label ∈ s.labels
    · rw [members_append_left hs (h hl)]
      exact hleft label
    · rw [members_append_right hs hl]
      exact hright label

theorem mean_append_left (hst : (s ++ t).Accepted) (hs : s.Accepted) (h : label ∉ t.labels) :
    (s ++ t).mean label = s.mean label := by
  rw [← groupMean_eq hst, ← groupMean_eq hs, members_append_left hs.1 h]

theorem mean_append_right (hst : (s ++ t).Accepted) (hs : s.Accepted) (ht : t.Accepted)
    (h : label ∉ s.labels) : (s ++ t).mean label = t.mean label := by
  rw [← groupMean_eq hst, ← groupMean_eq ht, members_append_right hs.1 h]

end TrainingSet

/-! ## Training -/

namespace Classifier

open TrainingSet

variable {s t : TrainingSet}

theorem ext_get? {c d : Classifier} (hmatcher : c.matcher = d.matcher)
    (h : ∀ label, c.centroids.get? label = d.centroids.get? label) : c = d := by
  obtain ⟨m, cs⟩ := c
  obtain ⟨n, ds⟩ := d
  obtain rfl : m = n := hmatcher
  exact congrArg (Classifier.mk m) (OrderedMap.ext_get? h)

/-- Batches without a common label may be learned in either order. -/
theorem after_comm (h : s.labels.Disjoint t.labels) (c : Classifier) :
    after (trainInPlace t) (after (trainInPlace s) c) =
      after (trainInPlace s) (after (trainInPlace t) c) := by
  apply ext_get?
  · rw [matcher_after, matcher_after, matcher_after, matcher_after]
  · intro label
    rw [get?_after, get?_after, get?_after, get?_after]
    by_cases hs : s.Accepted ∧ label ∈ s.labels
    · have ht : ¬ (t.Accepted ∧ label ∈ t.labels) := fun ht => h hs.2 ht.2
      rw [if_neg ht, if_neg ht]
    · rw [if_neg hs, if_neg hs]

/-- Accepted batches without a common label may be learned at once. -/
theorem after_append (hs : s.Accepted) (ht : t.Accepted) (h : s.labels.Disjoint t.labels)
    (c : Classifier) :
    after (trainInPlace (s ++ t)) c = after (trainInPlace t) (after (trainInPlace s) c) := by
  have hst : (s ++ t).Accepted := (accepted_append_iff hs.1 ht.1 h).2 ⟨hs, ht⟩
  have hmem : ∀ label, label ∈ (s ++ t).labels ↔ label ∈ s.labels ∨ label ∈ t.labels :=
    fun label => List.mem_append
  apply ext_get?
  · rw [matcher_after, matcher_after, matcher_after]
  · intro label
    rw [get?_after, get?_after, get?_after]
    simp only [hst, hs, ht, true_and, hmem]
    by_cases hl : label ∈ t.labels
    · have hl' : label ∉ s.labels := fun hl' => h hl' hl
      rw [if_pos (.inr hl), if_pos hl, mean_append_right hst hs ht hl']
    · by_cases hl' : label ∈ s.labels
      · rw [if_pos (.inl hl'), if_neg hl, if_pos hl', mean_append_left hst hs hl]
      · rw [if_neg (not_or.2 ⟨hl', hl⟩), if_neg hl, if_neg hl']

/-- Training depends only on the sequence of fingerprints that each label has.  Batches that agree on it
have the same result, with the same report, and leave the same centroids.  Two batches without a common
label are accepted as one exactly if each is, and then it is all the same whether they are learned one
after the other, in either order, or at once. -/
theorem train_by_sequences (c : Classifier) :
    (∀ s t : TrainingSet, s.fingerprints.length = s.labels.length →
      t.fingerprints.length = t.labels.length → SameSequences s t →
      c.train s = c.train t ∧ answer (trainInPlace s) c = answer (trainInPlace t) c ∧
        after (trainInPlace s) c = after (trainInPlace t) c) ∧
    ∀ s t : TrainingSet, s.fingerprints.length = s.labels.length →
      t.fingerprints.length = t.labels.length → s.labels.Disjoint t.labels →
      (answer (trainInPlace (s ++ t)) c = .ok () ↔
        answer (trainInPlace s) c = .ok () ∧ answer (trainInPlace t) c = .ok ()) ∧
      (answer (trainInPlace (s ++ t)) c = .ok () →
        answer (trainInPlace t) (after (trainInPlace s) c) = .ok () ∧
        answer (trainInPlace s) (after (trainInPlace t) c) = .ok () ∧
        after (trainInPlace t) (after (trainInPlace s) c) = after (trainInPlace (s ++ t)) c ∧
        after (trainInPlace s) (after (trainInPlace t) c) = after (trainInPlace (s ++ t)) c) := by
  refine ⟨fun s t hs ht h => ?_, fun s t hs ht h => ?_⟩
  · have hlearn := learn_congr hs ht h
    have hsize : s.size = t.size := by
      rw [← length_pairs hs, ← length_pairs ht, (pairs_perm h).length_eq]
    refine ⟨?_, ?_, ?_⟩
    · unfold train
      rw [hlearn, hsize]
    · unfold answer
      rw [run_trainInPlace, run_trainInPlace, hlearn]
    · unfold after
      rw [run_trainInPlace, run_trainInPlace, hlearn]
  · refine ⟨?_, fun hst => ?_⟩
    · rw [answer_eq_ok_iff, answer_eq_ok_iff, answer_eq_ok_iff]
      exact accepted_append_iff hs ht h
    · rw [answer_eq_ok_iff, accepted_append_iff hs ht h] at hst
      obtain ⟨has, hat⟩ := hst
      refine ⟨(answer_eq_ok_iff _ t).2 hat, (answer_eq_ok_iff _ s).2 has, ?_, ?_⟩
      · rw [after_append has hat h]
      · rw [after_append has hat h, after_comm h]

/-- Three samples of two labels in two orders, and the samples of each label as a batch of their own. -/
theorem train_by_sequences_of_two_labels :
    let s : TrainingSet := ⟨[⟨[3.0]⟩, ⟨[1.0, 2.0]⟩, ⟨[4.0]⟩], ["go", "c", "go"]⟩
    let t : TrainingSet := ⟨[⟨[1.0, 2.0]⟩, ⟨[3.0]⟩, ⟨[4.0]⟩], ["c", "go", "go"]⟩
    let c : TrainingSet := ⟨[⟨[1.0, 2.0]⟩], ["c"]⟩
    let go : TrainingSet := ⟨[⟨[3.0]⟩, ⟨[4.0]⟩], ["go", "go"]⟩
    SameSequences s t ∧ (untrained .substring).train s = (untrained .substring).train t ∧
      c.labels.Disjoint go.labels ∧
      answer (trainInPlace (c ++ go)) (untrained .substring) = .ok () ∧
      after (trainInPlace c) (after (trainInPlace go) (untrained .substring)) =
        after (trainInPlace (c ++ go)) (untrained .substring) := by
  intro s t c go
  have hswap : ∀ f g h : Fingerprint,
      SameSequences ⟨[f, g, h], ["go", "c", "go"]⟩ ⟨[g, f, h], ["c", "go", "go"]⟩ := by
    intro f g h label
    show members [("go", f), ("c", g), ("go", h)] label =
      members [("c", g), ("go", f), ("go", h)] label
    by_cases hc : "c" = label
    · subst hc
      simp [members_cons]
    · simp [members_cons, hc]
  have hsame : SameSequences s t := hswap _ _ _
  have hdisjoint : c.labels.Disjoint go.labels := by
    rintro label hc hgo
    obtain rfl := List.mem_singleton.1 hc
    exact absurd hgo (by decide)
  have hok : answer (trainInPlace (c ++ go)) (untrained .substring) = .ok () := by decide +kernel
  obtain ⟨hequal, happend⟩ := train_by_sequences (untrained .substring)
  exact ⟨hsame, (hequal s t rfl rfl hsame).1, hdisjoint, hok,
    ((happend c go rfl rfl hdisjoint).2 hok).2.2.2⟩

end Classifier

end AsmOrigin
