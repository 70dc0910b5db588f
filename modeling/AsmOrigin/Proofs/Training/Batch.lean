import AsmOrigin.Classifier
import Mathlib.Tactic

/-!
What one batch teaches, sample by sample.

Sample `i` of a batch is its `i`-th fingerprint with its `i`-th label.  The samples of a label form one
group, in batch order (`get?_groups`).  Learning goes through the groups in label order: it ends in the
first defect, or in the mean of every group (`learn_eq`).
-/

namespace AsmOrigin

/-! ## Samples -/

/-- A value that no slot of a sample may hold. -/
def IsBad (x : Float) : Prop := x.isNaN = true ∨ x.isInf = true ∨ x < 0.0

namespace TrainingSet

variable {t : TrainingSet} {label : String} {f : Fingerprint} {i : Nat}

/-- Sample `i` of the batch. -/
structure IsSample (t : TrainingSet) (i : Nat) (label : String) (f : Fingerprint) : Prop where
  label_eq : t.labels[i]? = some label
  fingerprint_eq : t.fingerprints[i]? = some f

/-- Number of slots of the first sample with the label. -/
def expectedSize (t : TrainingSet) (label : String) : Nat :=
  (t.fingerprints[t.labels.idxOf label]?.map Fingerprint.size).getD 0

/-- A sample that is of another size than the first one of its label, or has a bad slot. -/
def Unfit (t : TrainingSet) (label : String) (f : Fingerprint) : Prop :=
  f.size ≠ t.expectedSize label ∨ ∃ x ∈ f.slots, IsBad x

/-- A batch of as many labels as fingerprints in which no sample is unfit. -/
def Accepted (t : TrainingSet) : Prop :=
  t.fingerprints.length = t.labels.length ∧ ∀ i label f, t.IsSample i label f → ¬ t.Unfit label f

/-- The fingerprints of one label, in batch order. -/
def members (pairs : List (String × Fingerprint)) (label : String) : List Fingerprint :=
  pairs.filterMap fun p => if p.1 = label then some p.2 else none

theorem members_cons (p : String × Fingerprint) (pairs : List (String × Fingerprint)) (label : String) :
    members (p :: pairs) label =
      if p.1 = label then p.2 :: members pairs label else members pairs label := by
  unfold members
  by_cases hp : p.1 = label <;> simp [hp]

theorem getElem?_pairs (t : TrainingSet) (i : Nat) :
    t.pairs[i]? = some (label, f) ↔ t.IsSample i label f := by
  rw [pairs, List.getElem?_zip_eq_some]
  exact ⟨fun ⟨h₁, h₂⟩ => ⟨h₁, h₂⟩, fun ⟨h₁, h₂⟩ => ⟨h₁, h₂⟩⟩

theorem mem_pairs_iff : (label, f) ∈ t.pairs ↔ ∃ i, t.IsSample i label f := by
  simp only [List.mem_iff_getElem?, getElem?_pairs]

theorem mem_members_iff : f ∈ members t.pairs label ↔ ∃ i, t.IsSample i label f := by
  rw [← mem_pairs_iff, members, List.mem_filterMap]
  constructor
  · rintro ⟨⟨l, g⟩, hmem, h⟩
    by_cases hl : l = label
    · simp only [hl, if_true, Option.some.injEq] at h
      rwa [← h, ← hl]
    · simp [hl] at h
  · intro h
    exact ⟨(label, f), h, if_pos rfl⟩

/-! ## Groups -/

theorem members_eq_nil_iff {pairs : List (String × Fingerprint)} :
    members pairs label = [] ↔ label ∉ pairs.map (·.1) := by
  induction pairs with
  | nil => simp [members]
  | cons p r ih =>
    by_cases hp : p.1 = label
    · simp [members_cons, hp]
    · simp [members_cons, hp, Ne.symm hp, ih]

/-- A label's fingerprints are put behind those it had. -/
theorem get?_foldl_push (pairs : List (String × Fingerprint)) (m : OrderedMap (List Fingerprint))
    (label : String) :
    (pairs.foldl (fun m p => m.update p.1 fun members => members.getD [] ++ [p.2]) m).get? label =
      if members pairs label = [] then m.get? label
      else some ((m.get? label).getD [] ++ members pairs label) := by
  induction pairs generalizing m with
  | nil => rfl
  | cons p r ih =>
    rw [List.foldl_cons, ih, OrderedMap.get?_update, members_cons]
    by_cases hp : p.1 = label
    · subst hp
      rw [if_pos rfl, if_pos rfl, if_neg (List.cons_ne_nil _ _)]
      by_cases hr : members r p.1 = []
      · rw [if_pos hr, hr]
      · rw [if_neg hr, Option.getD_some, List.append_assoc, List.singleton_append]
    · rw [if_neg hp, if_neg hp]

/-- The group of a label holds all of its samples, in batch order. -/
theorem get?_groups (t : TrainingSet) (label : String) :
    t.groups.get? label =
      if members t.pairs label = [] then none else some (members t.pairs label) :=
  get?_foldl_push t.pairs ∅ label

theorem mem_groups_iff {ms : List Fingerprint} :
    (label, ms) ∈ t.groups.entries ↔ ms = members t.pairs label ∧ ms ≠ [] := by
  rw [OrderedMap.mem_entries_iff, get?_groups]
  by_cases h : members t.pairs label = []
  · simp only [h, if_true, reduceCtorEq, false_iff, not_and, not_not]
    exact id
  · simp only [h, if_false, Option.some.injEq]
    exact ⟨fun h' => ⟨h'.symm, h' ▸ h⟩, fun h' => h'.1.symm⟩

/-- The first of a label's group is the first sample with that label. -/
theorem head?_members (h : t.fingerprints.length = t.labels.length) (label : String) :
    (members t.pairs label).head? = t.fingerprints[t.labels.idxOf label]? := by
  obtain ⟨fs, ls⟩ := t
  simp only [pairs, members] at h ⊢
  induction ls generalizing fs with
  | nil =>
    obtain rfl : fs = [] := List.length_eq_zero_iff.1 h
    rfl
  | cons l r ih =>
    cases fs with
    | nil => cases h
    | cons f fs =>
      by_cases hl : l = label
      · simp [hl]
      · have := ih fs (Nat.succ.inj h)
        simpa [hl, List.idxOf_cons_ne r hl] using this

end TrainingSet

/-! ## One group -/

/-- What is wrong with one fingerprint of a label whose fingerprints are to have `size` slots. -/
def Fingerprint.defect? (label : String) (size : Nat) (f : Fingerprint) : Option ModelError :=
  if f.size = size then
    (f.slots.findIdx? (!isAdmissible ·)).map (.invalidSlot label)
  else some (.inconsistentSizes label size f.size)

theorem addSlots_eq (label : String) {sums xs : List Float} (h : xs.length = sums.length)
    (slot : Nat) : addSlots label slot sums xs = match xs.findIdx? (!isAdmissible ·) with
      | some i => .error (.invalidSlot label (i + slot))
      | none => .ok (List.zipWith (· + ·) sums xs) := by
  induction xs generalizing sums slot with
  | nil =>
    obtain rfl : sums = [] := List.length_eq_zero_iff.1 h.symm
    rfl
  | cons x xs ih =>
    cases sums with
    | nil => cases h
    | cons sum sums =>
      unfold addSlots
      rw [ih (Nat.succ.inj h), List.findIdx?_cons]
      cases isAdmissible x with
      | false => simp
      | true =>
        cases xs.findIdx? (!isAdmissible ·) with
        | none => rfl
        | some i =>
          show Except.error _ = Except.error _
          rw [Nat.add_right_comm]
          rfl

/-- The sums are of use only if no fingerprint has a defect; the first defect ends the addition. -/
theorem addMembers_eq (label : String) {size : Nat} {sums : List Float} (h : sums.length = size)
    (members : List Fingerprint) :
    addMembers label size sums members = match members.findSome? (Fingerprint.defect? label size) with
      | some e => .error e
      | none => .ok (members.foldl (fun sums f => List.zipWith (· + ·) sums f.slots) sums) := by
  induction members generalizing sums with
  | nil => rfl
  | cons f r ih =>
    unfold addMembers
    rw [List.findSome?_cons]
    unfold Fingerprint.defect?
    by_cases hf : f.size = size
    · have hlen : f.slots.length = sums.length := hf.trans h.symm
      rw [if_pos hf, if_pos hf, addSlots_eq label hlen]
      cases f.slots.findIdx? (!isAdmissible ·) with
      | some i => rfl
      | none => exact ih (by rw [List.length_zipWith, hlen, min_self, h])
    · rw [if_neg hf, if_neg hf]

/-- Slot by slot, the sum from left to right divided by the number of fingerprints. -/
def meanFingerprint (size : Nat) (members : List Fingerprint) : Fingerprint :=
  let sums := members.foldl (fun sums f => List.zipWith (· + ·) sums f.slots)
    (List.replicate size 0.0)
  ⟨sums.map (· / ofCount members.length)⟩

/-- The first defect of a group. -/
def groupDefect? (label : String) (members : List Fingerprint) : Option ModelError :=
  members.findSome? (Fingerprint.defect? label ((members.head?.map Fingerprint.size).getD 0))

/-- The mean of a group, with as many slots as its first member. -/
def groupMean (members : List Fingerprint) : Fingerprint :=
  meanFingerprint ((members.head?.map Fingerprint.size).getD 0) members

theorem centroid_eq (label : String) {members : List Fingerprint} (h : members ≠ []) :
    centroid label members = match groupDefect? label members with
      | some e => .error e
      | none => .ok (some (groupMean members)) := by
  obtain ⟨first, r, rfl⟩ := List.exists_cons_of_ne_nil h
  have hdefect : groupDefect? label (first :: r) =
      (first :: r).findSome? (Fingerprint.defect? label first.size) := rfl
  unfold centroid
  dsimp only
  rw [addMembers_eq label List.length_replicate, hdefect]
  cases (first :: r).findSome? (Fingerprint.defect? label first.size) <;> rfl

namespace TrainingSet

variable {t : TrainingSet}

/-! ## Learning -/

theorem learnGroups_eq {gs : List (String × List Fingerprint)} (h : ∀ g ∈ gs, g.2 ≠ []) :
    (learnGroups gs).2 = match gs.findSome? (fun g => groupDefect? g.1 g.2) with
      | some e => .error e
      | none => .ok (gs.map fun g => (g.1, groupMean g.2)) := by
  induction gs with
  | nil => rfl
  | cons g r ih =>
    obtain ⟨hg, hr⟩ := List.forall_mem_cons.1 h
    obtain ⟨label, ms⟩ := g
    unfold learnGroups
    rw [centroid_eq label hg, List.findSome?_cons]
    cases groupDefect? label ms with
    | some e => rfl
    | none =>
      show (learnGroups r).2.map ((label, groupMean ms) :: ·) = _
      rw [ih hr]
      cases r.findSome? (fun g => groupDefect? g.1 g.2) <;> rfl

/-- The first defect of a batch, by label and then by place. -/
def defect? (t : TrainingSet) : Option ModelError :=
  t.groups.entries.findSome? fun g => groupDefect? g.1 g.2

/-- What a batch without defects teaches. -/
def lessons (t : TrainingSet) : List (String × Fingerprint) :=
  t.groups.entries.map fun g => (g.1, groupMean g.2)

theorem learn_eq (t : TrainingSet) :
    t.learn.2 = if t.fingerprints.length = t.labels.length then
        match t.defect? with
        | some e => .error e
        | none => .ok t.lessons
      else .error (.labelCountMismatch t.fingerprints.length t.labels.length) := by
  unfold learn
  split
  · exact learnGroups_eq fun g hg => (mem_groups_iff.1 hg).2
  · rfl

end TrainingSet

/-! ## Training in place -/

namespace Classifier

theorem run_forM_put (es : List (String × Fingerprint)) (c : Classifier) :
    (es.forM fun e => modify (·.put e) : Change Unit).run.run c = (.ok (), es.foldl put c) := by
  induction es generalizing c with
  | nil => rfl
  | cons e r ih => exact ih (c.put e)

/-- In place, a set that is refused leaves the classifier as it was. -/
theorem run_trainInPlace (t : TrainingSet) (c : Classifier) :
    (trainInPlace t).run.run c = match t.learn.2 with
      | .error e => (.error e, c)
      | .ok learned => (.ok (), learned.foldl put c) := by
  cases h : t.learn.2 with
  | error e =>
    unfold trainInPlace
    rw [h]
    rfl
  | ok learned =>
    unfold trainInPlace
    rw [h]
    exact run_forM_put learned c

/-- Training in place does what training does. -/
theorem train_eq_trainInPlace (t : TrainingSet) (c : Classifier) :
    (c.train t).2 = (answer (trainInPlace t) c).map fun _ => after (trainInPlace t) c := by
  have hput : ∀ (es : List (String × Fingerprint)) (c : Classifier), c.adopt es = es.foldl put c := by
    intro es
    induction es with
    | nil => exact fun c => rfl
    | cons e r ih => exact fun c => ih (c.put e)
  unfold train answer after
  rw [run_trainInPlace]
  rcases t.learn with ⟨log, e | learned⟩
  · rfl
  · exact congrArg Except.ok (hput learned c)

theorem run_get_bind (w : Classifier → Change Unit) (c : Classifier) :
    (do w (← get) : Change Unit).run.run c = (w c).run.run c := rfl

theorem run_trainSamplesInPlace (samples : List (String × String)) (c : Classifier) :
    (trainSamplesInPlace samples).run.run c =
      (trainInPlace (.ofSamples c.matcher samples)).run.run c := by
  unfold trainSamplesInPlace
  rw [run_get_bind]

end Classifier

end AsmOrigin
