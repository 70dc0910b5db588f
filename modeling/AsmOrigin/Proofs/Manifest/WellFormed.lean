import AsmOrigin.Manifest.Basic
import Mathlib.Tactic

/-!
Well-formed manifests, and which defect is told of a manifest that is not.

The conditions on a manifest stand in one list, in the order in which they are checked, each with the
error that tells of its violation (`Manifest.conditions`).  A manifest is well formed if all of them hold
(`Manifest.wellFormed_iff`), and the defect of any other is the error of the first one that does not
(`Manifest.defect?_eq_some_iff`).
-/

namespace AsmOrigin

/-! ## The first of a kind -/

section

variable {α : Type} {p q : α → Prop} {x : α} {xs : List α}

/-- An element with `q`, behind elements that all have `p`. -/
def Until (p q : α → Prop) (xs : List α) : Prop :=
  ∃ before x behind, xs = before ++ x :: behind ∧ (∀ b ∈ before, p b) ∧ q x

theorem not_until_nil : ¬ Until p q [] := by
  rintro ⟨before, x, behind, h, -⟩
  exact absurd h (by simp)

theorem until_cons : Until p q (x :: xs) ↔ q x ∨ p x ∧ Until p q xs := by
  constructor
  · rintro ⟨before, y, behind, h, hbefore, hy⟩
    cases before with
    | nil =>
      cases h
      exact .inl hy
    | cons b before =>
      cases h
      obtain ⟨hb, hbefore⟩ := List.forall_mem_cons.1 hbefore
      exact .inr ⟨hb, before, y, behind, rfl, hbefore, hy⟩
  · rintro (hx | ⟨hx, before, y, behind, rfl, hbefore, hy⟩)
    · exact ⟨[], x, xs, rfl, fun b hb => absurd hb List.not_mem_nil, hx⟩
    · exact ⟨x :: before, y, behind, rfl, List.forall_mem_cons.2 ⟨hx, hbefore⟩, hy⟩

end

/-! ## Conditions in order -/

/-- A condition beside the error that tells of its violation. -/
structure Condition where
  holds : Prop
  error : ManifestError

/-- The error of a condition that does not hold while all conditions before it do. -/
def FirstViolated (conditions : List Condition) (e : ManifestError) : Prop :=
  Until (·.holds) (fun c => ¬ c.holds ∧ c.error = e) conditions

variable {xs ys : List Condition} {c : Condition} {e : ManifestError}

theorem not_firstViolated_nil : ¬ FirstViolated [] e := not_until_nil

theorem firstViolated_cons :
    FirstViolated (c :: xs) e ↔ ¬ c.holds ∧ c.error = e ∨ c.holds ∧ FirstViolated xs e :=
  until_cons

theorem firstViolated_append : FirstViolated (xs ++ ys) e ↔
    FirstViolated xs e ∨ (∀ x ∈ xs, x.holds) ∧ FirstViolated ys e := by
  induction xs with
  | nil => simp [not_firstViolated_nil]
  | cons c xs ih =>
    rw [List.cons_append, firstViolated_cons, firstViolated_cons, ih, List.forall_mem_cons]
    tauto

/-- Unless all conditions hold there is a first one that does not. -/
theorem forall_holds_iff : (∀ x ∈ xs, x.holds) ↔ ∀ e, ¬ FirstViolated xs e := by
  induction xs with
  | nil => simp [not_firstViolated_nil]
  | cons c xs ih =>
    rw [List.forall_mem_cons, ih]
    simp only [firstViolated_cons]
    by_cases hc : c.holds <;> simp [hc]

/-- What finds the first violation finds nothing exactly if all conditions hold. -/
theorem eq_none_iff_forall_holds {d : Option ManifestError}
    (h : ∀ e, d = some e ↔ FirstViolated xs e) : d = none ↔ ∀ x ∈ xs, x.holds := by
  rw [forall_holds_iff, Option.eq_none_iff_forall_ne_some]
  exact forall_congr' fun e => not_congr (h e)

theorem exists_error_of_firstViolated (h : FirstViolated xs e) : ∃ x ∈ xs, x.error = e := by
  obtain ⟨before, c, behind, rfl, -, -, he⟩ := h
  exact ⟨c, List.mem_append_right _ List.mem_cons_self, he⟩

/-- A check made before all others. -/
theorem ite_eq_some_iff {p q : Prop} [Decidable p] {d : Option ManifestError} {e' : ManifestError}
    (hp : p ↔ ¬ q) (hd : d = some e ↔ FirstViolated xs e) :
    (if p then some e' else d) = some e ↔ FirstViolated (⟨q, e'⟩ :: xs) e := by
  rw [firstViolated_cons]
  by_cases hq : q
  · rw [if_neg (mt hp.1 (not_not.2 hq)), hd]
    simp [hq]
  · rw [if_pos (hp.2 hq), Option.some.injEq]
    simp [hq]

/-! ## The conditions on a manifest -/

/-- A text that holds a character which is not blank. -/
def IsName (s : String) : Prop := ∃ c ∈ s.toList, Text.isBlank c = false

theorem isBlankString_iff {s : String} : isBlankString s = true ↔ ¬ IsName s := by
  simp [isBlankString, Text.isBlankText, IsName]

/-- The conditions on a sample, which stands at the given place of the manifest of that name. -/
def Sample.conditions (manifest : String) (index : Nat) (s : Sample) : List Condition :=
  [⟨IsName s.label, .labelMissing index manifest⟩,
    ⟨¬ (s.path.isSome ∧ s.code.isSome), .twoSources index s.label⟩,
    ⟨s.path.isSome ∨ s.code.isSome, .noSource index s.label⟩,
    ⟨s.repetitions ≠ some 0, .neverRepeated index s.label⟩]

/-- The conditions on the samples in turn, the first of which stands at the given place. -/
def Manifest.sampleConditions (manifest : String) (index : Nat) (samples : List Sample) :
    List Condition :=
  (samples.zipIdx index).flatMap fun s => s.1.conditions manifest s.2

/-- The conditions on a manifest: on its name, on the list of its samples, and on each sample. -/
def Manifest.conditions (m : Manifest) : List Condition :=
  ⟨IsName m.name, .nameMissing⟩ :: ⟨m.samples ≠ [], .noSamples m.name⟩ ::
    sampleConditions m.name 0 m.samples

/-- A sample with a label and one source that is not to be repeated zero times. -/
structure Sample.WellFormed (s : Sample) : Prop where
  isName_label : IsName s.label
  one_source : s.path.isSome ≠ s.code.isSome
  repeated : s.repetitions ≠ some 0

/-- A manifest with a name and with samples, all of them well formed. -/
structure Manifest.WellFormed (m : Manifest) : Prop where
  isName_name : IsName m.name
  samples_ne_nil : m.samples ≠ []
  sample : ∀ s ∈ m.samples, s.WellFormed

theorem Sample.wellFormed_iff {s : Sample} (manifest : String) (index : Nat) :
    s.WellFormed ↔ ∀ c ∈ s.conditions manifest index, c.holds := by
  have hsource : s.path.isSome ≠ s.code.isSome ↔
      ¬ (s.path.isSome ∧ s.code.isSome) ∧ (s.path.isSome ∨ s.code.isSome) := by
    cases s.path <;> cases s.code <;> simp
  simp only [conditions, List.forall_mem_cons, List.not_mem_nil, false_imp_iff, implies_true, and_true]
  constructor
  · intro h
    obtain ⟨htwo, hnone⟩ := hsource.1 h.one_source
    exact ⟨h.isName_label, htwo, hnone, h.repeated⟩
  · rintro ⟨hlabel, htwo, hnone, hrepeated⟩
    exact ⟨hlabel, hsource.2 ⟨htwo, hnone⟩, hrepeated⟩

theorem Sample.defect?_eq_some_iff {s : Sample} {name : String} {index : Nat} :
    s.defect? name index = some e ↔ FirstViolated (s.conditions name index) e := by
  refine ite_eq_some_iff isBlankString_iff ?_
  cases s.path <;> cases s.code <;> simp [firstViolated_cons, not_firstViolated_nil]

theorem Sample.defect?_eq_none_iff {s : Sample} (name : String) (index : Nat) :
    s.defect? name index = none ↔ s.WellFormed := by
  rw [wellFormed_iff name index]
  exact eq_none_iff_forall_holds fun _ => defect?_eq_some_iff

/-- A message about a sample, put together from its parts. -/
theorem message_parts (index : Nat) (mark text behind : String) :
    "Sample #" ++ toString index ++ (" " ++ mark) ++ text ++ behind =
      s!"Sample #{index} {mark ++ text ++ behind}" := by
  show _ = "Sample #" ++ toString index ++ " " ++ (mark ++ text ++ behind)
  simp only [String.append_assoc]

/-- The errors of a sample tell its place. -/
theorem Sample.message_of_firstViolated {s : Sample} {name : String} {index : Nat}
    (h : FirstViolated (s.conditions name index) e) :
    ∃ rest : String, e.message = s!"Sample #{index} {rest}" := by
  obtain ⟨c, hc, rfl⟩ := exists_error_of_firstViolated h
  simp only [conditions, List.mem_cons, List.not_mem_nil, or_false] at hc
  rcases hc with rfl | rfl | rfl | rfl
  · exact ⟨_, message_parts index "in manifest '" name "': label is required"⟩
  · exact ⟨_, message_parts index "(" s.label ") sets both path and code; pick one"⟩
  · exact ⟨_, message_parts index "(" s.label ") needs either a path or inline code"⟩
  · exact ⟨_, message_parts index "(" s.label ") has repeat = 0"⟩

namespace Manifest

variable {m : Manifest} {name : String} {index : Nat} {samples : List Sample}

theorem sampleConditions_cons (s : Sample) : sampleConditions name index (s :: samples) =
    s.conditions name index ++ sampleConditions name (index + 1) samples := by
  rw [sampleConditions, List.zipIdx_cons, List.flatMap_cons]
  rfl

theorem forall_mem_sampleConditions_iff :
    (∀ c ∈ sampleConditions name index samples, c.holds) ↔ ∀ s ∈ samples, s.WellFormed := by
  induction samples generalizing index with
  | nil => simp [sampleConditions]
  | cons s samples ih =>
    rw [sampleConditions_cons, List.forall_mem_append, ← Sample.wellFormed_iff, ih,
      List.forall_mem_cons]

/-- The first violated condition on a sample is one on a sample behind well-formed ones. -/
theorem exists_of_firstViolated_sampleConditions
    (h : FirstViolated (sampleConditions name index samples) e) :
    ∃ before s behind, samples = before ++ s :: behind ∧ (∀ b ∈ before, b.WellFormed) ∧
      FirstViolated (s.conditions name (index + before.length)) e := by
  induction samples generalizing index with
  | nil => exact absurd h not_firstViolated_nil
  | cons s samples ih =>
    rw [sampleConditions_cons, firstViolated_append, ← Sample.wellFormed_iff] at h
    rcases h with h | ⟨hs, h⟩
    · exact ⟨[], s, samples, rfl, fun b hb => absurd hb List.not_mem_nil, h⟩
    · obtain ⟨before, s', behind, rfl, hbefore, hs'⟩ := ih h
      refine ⟨s :: before, s', behind, rfl, List.forall_mem_cons.2 ⟨hs, hbefore⟩, ?_⟩
      rwa [List.length_cons, Nat.add_comm before.length, ← Nat.add_assoc]

theorem wellFormed_iff : m.WellFormed ↔ ∀ c ∈ m.conditions, c.holds := by
  rw [conditions, List.forall_mem_cons, List.forall_mem_cons, forall_mem_sampleConditions_iff]
  exact ⟨fun h => ⟨h.1, h.2, h.3⟩, fun ⟨hname, hne, hsamples⟩ => ⟨hname, hne, hsamples⟩⟩

/-! ## The defect found -/

theorem sampleDefect?_eq_some_iff : sampleDefect? name index samples = some e ↔
    FirstViolated (sampleConditions name index samples) e := by
  induction samples generalizing index with
  | nil => exact iff_of_false (by rintro ⟨⟩) not_firstViolated_nil
  | cons s samples ih =>
    rw [sampleConditions_cons, firstViolated_append, ← Sample.wellFormed_iff, ← ih,
      ← Sample.defect?_eq_some_iff, ← Sample.defect?_eq_none_iff name index]
    exact Option.or_eq_some_iff

/-- The defect of a manifest is the error of the first condition that does not hold. -/
theorem defect?_eq_some_iff : m.defect? = some e ↔ FirstViolated m.conditions e := by
  refine ite_eq_some_iff isBlankString_iff (ite_eq_some_iff ?_ sampleDefect?_eq_some_iff)
  simp

theorem defect?_eq_none_iff : m.defect? = none ↔ m.WellFormed := by
  rw [wellFormed_iff]
  exact eq_none_iff_forall_holds fun _ => defect?_eq_some_iff

theorem validate_eq_ok_iff : m.validate = .ok () ↔ m.WellFormed := by
  rw [← defect?_eq_none_iff, validate]
  cases m.defect? <;> simp

theorem validate_eq_error_iff : m.validate = .error e ↔ FirstViolated m.conditions e := by
  rw [← defect?_eq_some_iff, validate]
  cases m.defect? <;> simp

end Manifest

end AsmOrigin
