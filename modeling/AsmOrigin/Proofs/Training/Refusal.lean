import AsmOrigin.Proofs.ByteOrder
import AsmOrigin.Proofs.Training.Batch

/-!
Which batches are refused, and with which error.

Samples are visited by label in byte order, and in batch order within a label (`Precedes`).  The error of
a refused batch is about the unfit sample that is visited first.
-/

namespace AsmOrigin

/-! ## One fingerprint -/

theorem isFinite_eq (x : Float) : x.isFinite = (!x.isNaN && !x.isInf) := by
  show x.toModel.unpack.isFinite = (!x.toModel.unpack.isNaN && !x.toModel.unpack.isInf)
  cases x.toModel.unpack <;> rfl

theorem isAdmissible_eq_false_iff (x : Float) : isAdmissible x = false ↔ IsBad x := by
  unfold isAdmissible IsBad
  rw [isFinite_eq]
  cases x.isNaN <;> cases x.isInf <;> simp

/-- The smallest slot that holds a bad value. -/
structure Fingerprint.IsFirstBadSlot (f : Fingerprint) (slot : Nat) : Prop where
  bad : ∃ x, f.slots[slot]? = some x ∧ IsBad x
  least : ∀ s < slot, ∀ x, f.slots[s]? = some x → ¬ IsBad x

theorem findIdx?_slots_iff {f : Fingerprint} {slot : Nat} :
    f.slots.findIdx? (!isAdmissible ·) = some slot ↔ f.IsFirstBadSlot slot := by
  have hbad : ∀ x, (!isAdmissible x) = true ↔ IsBad x := fun x => by
    rw [← isAdmissible_eq_false_iff]
    cases isAdmissible x <;> decide
  rw [List.findIdx?_eq_some_iff_getElem]
  constructor
  · rintro ⟨h, hb, hl⟩
    refine ⟨⟨f.slots[slot], List.getElem?_eq_getElem h, (hbad _).1 hb⟩, fun s hs x hx hbx => ?_⟩
    obtain ⟨hs', rfl⟩ := List.getElem?_eq_some_iff.1 hx
    exact hl s hs ((hbad _).2 hbx)
  · rintro ⟨⟨x, hx, hb⟩, hl⟩
    obtain ⟨h, rfl⟩ := List.getElem?_eq_some_iff.1 hx
    refine ⟨h, (hbad _).2 hb, fun s hs hbs => ?_⟩
    exact hl s hs _ (List.getElem?_eq_getElem (by omega)) ((hbad _).1 hbs)

theorem findIdx?_slots_eq_none_iff {f : Fingerprint} :
    f.slots.findIdx? (!isAdmissible ·) = none ↔ ∀ x ∈ f.slots, ¬ IsBad x := by
  rw [List.findIdx?_eq_none_iff]
  refine forall₂_congr fun x _ => ?_
  rw [← isAdmissible_eq_false_iff]
  cases isAdmissible x <;> decide

namespace TrainingSet

variable {t : TrainingSet} {label : String} {f : Fingerprint} {i : Nat}

theorem defect?_eq_none_iff :
    f.defect? label (t.expectedSize label) = none ↔ ¬ t.Unfit label f := by
  unfold Fingerprint.defect? Unfit
  split
  · rename_i h
    rw [Option.map_eq_none_iff, findIdx?_slots_eq_none_iff]
    simp [h]
  · rename_i h
    simp [h]

/-! ## The order of visits -/

/-- One sample is visited before another. -/
def Precedes (k : String) (i : Nat) (l : String) (j : Nat) : Prop :=
  utf8 k < utf8 l ∨ k = l ∧ i < j

/-- The samples in the order of visits, each with its place in the batch. -/
def visits (t : TrainingSet) : List ((String × Fingerprint) × Nat) :=
  t.groups.keys.flatMap fun label => t.pairs.zipIdx.filter (·.1.1 = label)

theorem mem_zipIdx_pairs_iff : ((label, f), i) ∈ t.pairs.zipIdx ↔ t.IsSample i label f := by
  rw [List.mem_zipIdx_iff_getElem?, getElem?_pairs]

theorem mem_visits_iff : ((label, f), i) ∈ t.visits ↔ t.IsSample i label f := by
  unfold visits
  simp only [List.mem_flatMap, List.mem_filter, mem_zipIdx_pairs_iff, decide_eq_true_eq]
  constructor
  · rintro ⟨l, -, h, -⟩
    exact h
  · intro h
    refine ⟨label, List.mem_map.2 ⟨(label, members t.pairs label), ?_, rfl⟩, h, rfl⟩
    exact mem_groups_iff.2 ⟨rfl, List.ne_nil_of_mem (mem_members_iff.2 ⟨i, h⟩)⟩

theorem pairwise_visits (t : TrainingSet) :
    t.visits.Pairwise fun a b => Precedes a.1.1 a.2 b.1.1 b.2 := by
  have hkeys : t.groups.keys.Pairwise (· < ·) := List.pairwise_map.2 t.groups.ascending
  have hidx : t.pairs.zipIdx.Pairwise fun a b => a.2 < b.2 := by
    rw [← List.pairwise_map, List.zipIdx_map_snd]
    exact List.pairwise_lt_range'
  refine List.pairwise_flatMap.2 ⟨fun label _ => ?_, hkeys.imp fun hlt a ha b hb => ?_⟩
  · refine (hidx.filter _).imp_of_mem fun ha hb hlt => .inr ⟨?_, hlt⟩
    simp only [List.mem_filter, decide_eq_true_eq] at ha hb
    exact ha.2.trans hb.2.symm
  · simp only [List.mem_filter, decide_eq_true_eq] at ha hb
    left
    rw [ha.2, hb.2]
    exact utf8_lt_utf8_iff.2 hlt

theorem map_filter_zipIdx (pairs : List (String × Fingerprint)) (label : String) (n : Nat) :
    ((pairs.zipIdx n).filter (·.1.1 = label)).map (·.1.2) = members pairs label := by
  induction pairs generalizing n with
  | nil => rfl
  | cons p r ih =>
    unfold members at ih ⊢
    rw [List.zipIdx_cons]
    by_cases hp : p.1 = label
    · simp [hp, ih]
    · simp [hp, ih]

theorem findSome?_flatMap {α β γ : Type} (xs : List α) (f : α → List β) (g : β → Option γ) :
    (xs.flatMap f).findSome? g = xs.findSome? fun a => (f a).findSome? g := by
  induction xs with
  | nil => rfl
  | cons x r ih =>
    rw [List.flatMap_cons, List.findSome?_append, List.findSome?_cons, ih]
    cases (f x).findSome? g <;> rfl

theorem findSome?_congr {α β : Type} {xs : List α} {f g : α → Option β} (h : ∀ a ∈ xs, f a = g a) :
    xs.findSome? f = xs.findSome? g := by
  induction xs with
  | nil => rfl
  | cons x r ih =>
    rw [List.findSome?_cons, List.findSome?_cons, h x List.mem_cons_self,
      ih fun a ha => h a (List.mem_cons_of_mem x ha)]

/-- The defect of a batch is the defect met first on the visits. -/
theorem defect?_eq_findSome?_visits (h : t.fingerprints.length = t.labels.length) :
    t.defect? = t.visits.findSome? fun v => v.1.2.defect? v.1.1 (t.expectedSize v.1.1) := by
  unfold visits OrderedMap.keys
  rw [findSome?_flatMap, List.findSome?_map]
  refine findSome?_congr fun g hg => ?_
  obtain ⟨label, ms⟩ := g
  obtain ⟨rfl, -⟩ := mem_groups_iff.1 hg
  show groupDefect? label (members t.pairs label) =
    (t.pairs.zipIdx.filter (·.1.1 = label)).findSome? _
  unfold groupDefect?
  rw [head?_members h]
  conv_lhs => rw [← map_filter_zipIdx t.pairs label 0, List.findSome?_map]
  refine findSome?_congr fun v hv => ?_
  have hl : v.1.1 = label := by simpa using (List.mem_filter.1 hv).2
  show Fingerprint.defect? label _ v.1.2 = Fingerprint.defect? v.1.1 _ v.1.2
  rw [hl]
  rfl

/-- In an ordered list the first hit comes before all others. -/
theorem exists_of_findSome?_of_pairwise {α β : Type} {r : α → α → Prop} {g : α → Option β} {b : β}
    {xs : List α} (hr : xs.Pairwise r) (h : xs.findSome? g = some b) :
    ∃ a ∈ xs, g a = some b ∧ ∀ a' ∈ xs, (g a').isSome = true → a' = a ∨ r a a' := by
  induction xs with
  | nil => cases h
  | cons x xs ih =>
    obtain ⟨hx, hxs⟩ := List.pairwise_cons.1 hr
    rw [List.findSome?_cons] at h
    cases hg : g x with
    | some c =>
      rw [hg] at h
      refine ⟨x, List.mem_cons_self, hg.trans h, fun a' ha' _ => ?_⟩
      rcases List.mem_cons.1 ha' with rfl | ha'
      · exact .inl rfl
      · exact .inr (hx a' ha')
    | none =>
      rw [hg] at h
      obtain ⟨a, ha, hga, hmin⟩ := ih hxs h
      refine ⟨a, List.mem_cons_of_mem x ha, hga, fun a' ha' hs => ?_⟩
      rcases List.mem_cons.1 ha' with rfl | ha'
      · rw [hg] at hs
        cases hs
      · exact hmin a' ha' hs

/-! ## Refusals -/

/-- The unfit sample that is visited before all other unfit ones. -/
structure IsFirstUnfit (t : TrainingSet) (i : Nat) (label : String) (f : Fingerprint) : Prop where
  sample : t.IsSample i label f
  unfit : t.Unfit label f
  first : ∀ j k g, t.IsSample j k g → t.Unfit k g → j = i ∨ Precedes label i k j

theorem isFirstUnfit_of_defect? (h : t.fingerprints.length = t.labels.length) {e : ModelError}
    (he : t.defect? = some e) : ∃ i label f, t.IsFirstUnfit i label f ∧
      f.defect? label (t.expectedSize label) = some e := by
  rw [defect?_eq_findSome?_visits h] at he
  obtain ⟨⟨⟨label, f⟩, i⟩, hmem, hd, hmin⟩ := exists_of_findSome?_of_pairwise (pairwise_visits t) he
  have hunfit : ∀ {k : String} {g : Fingerprint},
      t.Unfit k g ↔ (g.defect? k (t.expectedSize k)).isSome = true := fun {k g} => by
    rw [Option.isSome_iff_ne_none, ne_eq, defect?_eq_none_iff, not_not]
  refine ⟨i, label, f, ⟨mem_visits_iff.1 hmem, hunfit.2 (Option.isSome_iff_exists.2 ⟨e, hd⟩), ?_⟩, hd⟩
  intro j k g hs hu
  exact (hmin _ (mem_visits_iff.2 hs) (hunfit.1 hu)).imp_left (congrArg Prod.snd)

theorem defect?_batch_eq_none_iff (h : t.fingerprints.length = t.labels.length) :
    t.defect? = none ↔ ∀ i label f, t.IsSample i label f → ¬ t.Unfit label f := by
  rw [defect?_eq_findSome?_visits h, List.findSome?_eq_none_iff]
  constructor
  · intro hn i label f hs
    exact defect?_eq_none_iff.1 (hn _ (mem_visits_iff.2 hs))
  · rintro hn ⟨⟨label, f⟩, i⟩ hv
    exact defect?_eq_none_iff.2 (hn i label f (mem_visits_iff.1 hv))

theorem precedes_asymm {k l : String} {i j : Nat} (h : Precedes k i l j) : ¬ Precedes l j k i := by
  rintro (h' | ⟨h', hlt'⟩)
  · rcases h with h | ⟨rfl, -⟩
    · exact List.lt_irrefl _ (List.lt_trans h h')
    · exact List.lt_irrefl _ h'
  · rcases h with h | ⟨-, hlt⟩
    · exact List.lt_irrefl _ (h' ▸ h)
    · omega

/-- At most one sample is the first unfit one. -/
theorem IsFirstUnfit.unique {j : Nat} {k : String} {g : Fingerprint} (h : t.IsFirstUnfit i label f)
    (h' : t.IsFirstUnfit j k g) : i = j ∧ label = k ∧ f = g := by
  have hij : i = j := by
    rcases h.first j k g h'.sample h'.unfit with hji | hp
    · exact hji.symm
    · rcases h'.first i label f h.sample h.unfit with hij | hp'
      · exact hij
      · exact absurd hp' (precedes_asymm hp)
  subst hij
  refine ⟨rfl, ?_, ?_⟩
  · exact Option.some.inj (h.sample.label_eq.symm.trans h'.sample.label_eq)
  · exact Option.some.inj (h.sample.fingerprint_eq.symm.trans h'.sample.fingerprint_eq)

end TrainingSet

/-! ## What training answers -/

namespace Classifier

open TrainingSet

variable {t : TrainingSet}

theorem answer_trainInPlace (c : Classifier) (h : t.fingerprints.length = t.labels.length) :
    answer (trainInPlace t) c = match t.defect? with
      | some e => .error e
      | none => .ok () := by
  unfold answer
  rw [run_trainInPlace, learn_eq, if_pos h]
  cases t.defect? <;> rfl

theorem defect?_of_isFirstUnfit {i : Nat} {label : String} {f : Fingerprint}
    (h : t.fingerprints.length = t.labels.length) (hf : t.IsFirstUnfit i label f) :
    t.defect? = f.defect? label (t.expectedSize label) := by
  cases hd : t.defect? with
  | none => exact absurd hf.unfit ((defect?_batch_eq_none_iff h).1 hd i label f hf.sample)
  | some e =>
    obtain ⟨j, k, g, hg, he⟩ := isFirstUnfit_of_defect? h hd
    obtain ⟨-, rfl, rfl⟩ := hf.unique hg
    exact he.symm

/-- Training refuses lists of different lengths, and otherwise exactly the batches with an unfit sample.
The error is about the unfit sample that comes first by label in byte order, then by place in the batch:
about its size if that is not the size of its label's first sample, and otherwise about its smallest bad
slot.  Negative zero is admitted, and different labels need not have fingerprints of one size. -/
theorem answer_trainInPlace_by_first_unfit_sample (c : Classifier) (t : TrainingSet) :
    (t.fingerprints.length ≠ t.labels.length → answer (trainInPlace t) c =
      .error (.labelCountMismatch t.fingerprints.length t.labels.length)) ∧
    (t.fingerprints.length = t.labels.length →
      ((∀ i label f, t.IsSample i label f → ¬ t.Unfit label f) →
        answer (trainInPlace t) c = .ok ()) ∧
      ((∃ i label f, t.IsSample i label f ∧ t.Unfit label f) →
        ∃ i label f, t.IsFirstUnfit i label f) ∧
      ∀ i label f, t.IsFirstUnfit i label f →
        (f.size ≠ t.expectedSize label → answer (trainInPlace t) c =
          .error (.inconsistentSizes label (t.expectedSize label) f.size)) ∧
        (f.size = t.expectedSize label → ∃ slot, f.IsFirstBadSlot slot ∧
          answer (trainInPlace t) c = .error (.invalidSlot label slot))) ∧
    ¬ IsBad (-0.0) ∧
    ∀ k l f g, k ≠ l → (∀ x ∈ f.slots, ¬ IsBad x) → (∀ x ∈ g.slots, ¬ IsBad x) →
      answer (trainInPlace ⟨[f, g], [k, l]⟩) c = .ok () := by
  have hok : ∀ t : TrainingSet, t.fingerprints.length = t.labels.length →
      (∀ i label f, t.IsSample i label f → ¬ t.Unfit label f) →
      answer (trainInPlace t) c = .ok () := by
    intro t h hfit
    rw [answer_trainInPlace c h, (defect?_batch_eq_none_iff h).2 hfit]
  refine ⟨fun h => ?_, fun h => ⟨hok t h, fun hex => ?_, fun i label f hf => ?_⟩, ?_, ?_⟩
  · unfold answer
    rw [run_trainInPlace, learn_eq, if_neg h]
  · obtain ⟨i, label, f, hs, hu⟩ := hex
    cases hd : t.defect? with
    | none => exact absurd hu ((defect?_batch_eq_none_iff h).1 hd i label f hs)
    | some e =>
      obtain ⟨j, k, g, hg, -⟩ := isFirstUnfit_of_defect? h hd
      exact ⟨j, k, g, hg⟩
  · rw [answer_trainInPlace c h, defect?_of_isFirstUnfit h hf]
    unfold Fingerprint.defect?
    refine ⟨fun hne => by rw [if_neg hne], fun heq => ?_⟩
    obtain ⟨x, hx, hbad⟩ := hf.unfit.resolve_left (not_not.2 heq)
    cases hidx : f.slots.findIdx? (!isAdmissible ·) with
    | none => exact absurd hbad (findIdx?_slots_eq_none_iff.1 hidx x hx)
    | some slot =>
      rw [if_pos heq]
      exact ⟨slot, findIdx?_slots_iff.1 hidx, rfl⟩
  · rw [← isAdmissible_eq_false_iff]
    decide
  · intro k l f g hkl hf hg
    refine hok ⟨[f, g], [k, l]⟩ rfl fun i label e hs hu => ?_
    match i, hs.label_eq, hs.fingerprint_eq with
    | 0, rfl, rfl => exact hu.elim (fun h => h (by simp [expectedSize])) fun ⟨x, hx, hb⟩ => hf x hx hb
    | 1, rfl, rfl =>
      exact hu.elim (fun h => h (by simp [expectedSize, List.idxOf_cons_ne _ hkl]))
        fun ⟨x, hx, hb⟩ => hg x hx hb

end Classifier

end AsmOrigin
