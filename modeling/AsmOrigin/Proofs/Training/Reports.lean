import AsmOrigin.Proofs.Training.Listings

/-!
What training reports.

The labels of a batch are gone through in ascending order, and a line is reported for each one averaged,
so a defect cuts the report off at the label it is about (`log_learn`).  The numbers of samples in the
lines of a batch that is learned add up to that of the last line.
-/

namespace AsmOrigin

/-! ## Errors and their labels -/

/-- The label that an error is about. -/
def ModelError.label? : ModelError → Option String
  | untrained | labelCountMismatch _ _ => none
  | inconsistentSizes label _ _ | invalidSlot label _ => some label

theorem label?_of_defect? {label : String} {size : Nat} {f : Fingerprint} {e : ModelError}
    (h : f.defect? label size = some e) : e.label? = some label := by
  unfold Fingerprint.defect? at h
  split at h
  · obtain ⟨slot, -, rfl⟩ := Option.map_eq_some_iff.1 h
    rfl
  · rw [← Option.some.inj h]
    rfl

theorem label?_of_groupDefect? {label : String} {members : List Fingerprint} {e : ModelError}
    (h : groupDefect? label members = some e) : e.label? = some label := by
  obtain ⟨f, -, hf⟩ := List.exists_of_findSome?_eq_some h
  exact label?_of_defect? hf

/-- In ascending order, the elements before the first hit are those below it. -/
theorem takeWhile_of_findSome? {α β : Type} [LinearOrder α] {xs : List α} (hasc : xs.Pairwise (· < ·))
    {f : α → Option β} {b : β} (h : xs.findSome? f = some b) :
    ∃ a ∈ xs, f a = some b ∧ xs.takeWhile (fun x => (f x).isNone) = xs.filter (· < a) := by
  induction xs with
  | nil => cases h
  | cons x r ih =>
    obtain ⟨hx, hr⟩ := List.pairwise_cons.1 hasc
    rw [List.findSome?_cons] at h
    cases hf : f x with
    | some c =>
      rw [hf] at h
      refine ⟨x, List.mem_cons_self, hf.trans h, ?_⟩
      have hnone : (x :: r).filter (· < x) = [] := by
        refine List.filter_eq_nil_iff.2 fun y hy => ?_
        rcases List.mem_cons.1 hy with rfl | hy
        · simp
        · simp [(hx y hy).le]
      rw [hnone, List.takeWhile_cons_of_neg (by simp [hf])]
    | none =>
      rw [hf] at h
      obtain ⟨a, ha, hfa, htake⟩ := ih hr h
      refine ⟨a, List.mem_cons_of_mem x ha, hfa, ?_⟩
      rw [List.takeWhile_cons_of_pos (by simp [hf]), htake,
        List.filter_cons_of_pos (by simpa using hx a ha)]

namespace TrainingSet

variable {t : TrainingSet}

/-! ## Groups and numbers of samples -/

theorem length_members (h : t.fingerprints.length = t.labels.length) (label : String) :
    (members t.pairs label).length = t.labels.count label := by
  have hlabels : t.labels = t.pairs.map (·.1) := by
    rw [pairs, List.map_fst_zip (by rw [h])]
  rw [hlabels]
  induction t.pairs with
  | nil => rfl
  | cons p r ih =>
    rw [members_cons, List.map_cons, List.count_cons, ← ih]
    by_cases hp : p.1 = label <;> simp [hp]

theorem entries_groups (t : TrainingSet) :
    t.groups.entries = t.groups.keys.map fun label => (label, members t.pairs label) := by
  rw [OrderedMap.keys, List.map_map]
  refine (List.map_id _).symm.trans (List.map_congr_left fun g hg => ?_)
  obtain ⟨label, ms⟩ := g
  rw [(mem_groups_iff.1 hg).1]
  rfl

theorem mem_keys_groups_iff (h : t.fingerprints.length = t.labels.length) {label : String} :
    label ∈ t.groups.keys ↔ label ∈ t.labels := by
  rw [OrderedMap.mem_keys_iff, get?_groups, ← List.count_pos_iff, ← length_members h,
    List.length_pos_iff]
  by_cases hm : members t.pairs label = [] <;> simp [hm]

/-- The samples of a batch, counted label by label. -/
theorem sum_count_labels {labels : List String} (hnodup : labels.Nodup)
    (h : ∀ label, label ∈ labels ↔ label ∈ t.labels) : (labels.map t.labels.count).sum = t.size := by
  have hperm : labels.Perm t.labels.dedup := by
    rw [List.perm_ext_iff_of_nodup hnodup (List.nodup_dedup _)]
    simpa using h
  rw [(hperm.map t.labels.count).sum_eq]
  exact List.sum_map_count_dedup_eq_length t.labels

/-! ## The lines on labels -/

theorem log_learnGroups {gs : List (String × List Fingerprint)} (h : ∀ g ∈ gs, g.2 ≠ []) :
    (learnGroups gs).1 = (gs.takeWhile fun g => (groupDefect? g.1 g.2).isNone).map fun g =>
      .centroidAveraged g.1 g.2.length := by
  induction gs with
  | nil => rfl
  | cons g r ih =>
    obtain ⟨hg, hr⟩ := List.forall_mem_cons.1 h
    obtain ⟨label, ms⟩ := g
    unfold learnGroups
    rw [centroid_eq label hg, List.takeWhile_cons]
    dsimp only
    cases groupDefect? label ms with
    | some e => rfl
    | none => exact congrArg _ (ih hr)

/-- The line on one label of a batch. -/
def averaged (t : TrainingSet) (label : String) : LogLine :=
  .centroidAveraged label (t.labels.count label)

/-- Labels are reported in turn, up to the first one with a defect. -/
theorem log_learn (h : t.fingerprints.length = t.labels.length) :
    t.learn.1 = (t.groups.keys.takeWhile fun label =>
      (groupDefect? label (members t.pairs label)).isNone).map t.averaged := by
  unfold learn
  rw [if_pos h, log_learnGroups fun g hg => (mem_groups_iff.1 hg).2, entries_groups,
    List.takeWhile_map, List.map_map]
  refine List.map_congr_left fun label _ => ?_
  show LogLine.centroidAveraged label (members t.pairs label).length = t.averaged label
  rw [length_members h]
  rfl

theorem defect?_eq_findSome?_keys (t : TrainingSet) :
    t.defect? = t.groups.keys.findSome? fun label => groupDefect? label (members t.pairs label) := by
  unfold defect?
  rw [entries_groups, List.findSome?_map]
  rfl

end TrainingSet

/-! ## The whole report -/

namespace Classifier

open TrainingSet

variable {c trained : Classifier} {t : TrainingSet}

theorem log_train_of_ok (h : (c.train t).2 = .ok trained) :
    (c.train t).1 = t.learn.1 ++ [.trainingComplete t.size trained.centroids.size] := by
  unfold train at *
  rcases hlearn : t.learn with ⟨log, e | learned⟩
  · rw [hlearn] at h
    cases h
  · rw [hlearn] at h
    rw [← Except.ok.inj h]

theorem log_train_of_error {e : ModelError} (h : (c.train t).2 = .error e) :
    (c.train t).1 = t.learn.1 := by
  unfold train at *
  rcases hlearn : t.learn with ⟨log, e | learned⟩
  · rfl
  · rw [hlearn] at h
    cases h

/-- The labels after a batch are those known before and those of the batch. -/
theorem size_centroids_after (h : t.Accepted) (c : Classifier) :
    (after (trainInPlace t) c).centroids.size = (c.labels.toFinset ∪ t.labels.toFinset).card := by
  have hsize : (after (trainInPlace t) c).centroids.size = (after (trainInPlace t) c).labels.length :=
    (List.length_map _).symm
  have hnodup : (after (trainInPlace t) c).labels.Nodup := OrderedMap.nodup_keys _
  rw [hsize, ← List.toFinset_card_of_nodup hnodup]
  refine congrArg Finset.card (Finset.ext fun label => ?_)
  rw [List.mem_toFinset, mem_labels_after_iff h, Finset.mem_union, List.mem_toFinset,
    List.mem_toFinset]
  exact or_comm

/-- What a call of training reports.  Of lists of different lengths it says nothing.  Otherwise it names
the distinct labels of the batch in the order of their bytes, each with its number of samples: all of them
if the batch is learned, and those below the label of the error if it is refused.  A batch that is learned
is summed up last, by the number of its samples and that of the labels known before or now. -/
theorem report_of_train (c : Classifier) (t : TrainingSet) :
    (t.fingerprints.length ≠ t.labels.length → (c.train t).1 = []) ∧
    (t.fingerprints.length = t.labels.length → ∃ labels : List String,
      labels.Pairwise (fun k l => utf8 k < utf8 l) ∧ (∀ label, label ∈ labels ↔ label ∈ t.labels) ∧
      match (c.train t).2 with
      | .ok _ => (c.train t).1 =
          labels.map (fun label => .centroidAveraged label (t.labels.count label)) ++
            [.trainingComplete (labels.map t.labels.count).sum
              (c.labels.toFinset ∪ t.labels.toFinset).card]
      | .error e => ∃ label ∈ labels, e.label? = some label ∧ (c.train t).1 =
          (labels.filter (utf8 · < utf8 label)).map fun label =>
            .centroidAveraged label (t.labels.count label)) ∧
    ∀ label n k,
      (LogLine.centroidAveraged label n).level.name = "DEBUG" ∧
      (LogLine.centroidAveraged label n).message =
        "Centroid for '" ++ label ++ "' averaged from " ++ toString n ++ " samples" ∧
      (LogLine.trainingComplete n k).level.name = "INFO" ∧
      (LogLine.trainingComplete n k).message = "Training complete: " ++ toString n ++
        " samples in batch, " ++ toString k ++ " label profiles known" := by
  refine ⟨fun h => ?_, fun h => ?_, fun label n k => ⟨rfl, rfl, rfl, rfl⟩⟩
  · unfold train learn
    rw [if_neg h]
  · have hkeys : t.groups.keys.Pairwise (· < ·) := List.pairwise_map.2 t.groups.ascending
    refine ⟨t.groups.keys, hkeys.imp utf8_lt_utf8_iff.2, fun _ => mem_keys_groups_iff h, ?_⟩
    cases hd : t.defect? with
    | none =>
      have hacc : t.Accepted := defect?_eq_none_iff_accepted.1 ⟨h, hd⟩
      have hok := train_of_accepted hacc c
      have hall : ∀ label ∈ t.groups.keys, groupDefect? label (members t.pairs label) = none := by
        rw [defect?_eq_findSome?_keys, List.findSome?_eq_none_iff] at hd
        exact hd
      rw [hok]
      show (c.train t).1 = _
      rw [log_train_of_ok hok, log_learn h, size_centroids_after hacc,
        sum_count_labels t.groups.nodup_keys fun _ => mem_keys_groups_iff h,
        List.takeWhile_eq_self_iff.2 fun label hl => by rw [hall label hl]; rfl]
      rfl
    | some e =>
      have herr : (c.train t).2 = .error e := by
        rw [train_eq_trainInPlace, answer_trainInPlace c h, hd]
        rfl
      rw [defect?_eq_findSome?_keys] at hd
      obtain ⟨label, hmem, hgroup, htake⟩ := takeWhile_of_findSome? hkeys hd
      have hfilter : t.groups.keys.filter (utf8 · < utf8 label) = t.groups.keys.filter (· < label) :=
        List.filter_congr fun k _ => by simp only [utf8_lt_utf8_iff]
      rw [herr]
      refine ⟨label, hmem, label?_of_groupDefect? hgroup, ?_⟩
      rw [log_train_of_error herr, log_learn h, htake, hfilter]
      rfl

end Classifier

end AsmOrigin
