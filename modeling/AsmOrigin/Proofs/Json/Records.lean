import AsmOrigin.Proofs.Json.Printing

/-!
Records in objects.

An object gives a record if it holds the record's fields, each at most once, in any order and among
members of other names (`Gives`); the declared fields are then found (`fields?_of_gives`).  Texts, counts,
lists and maps are decoded from what they are encoded as, and a decoded count fits in 64 bits.
-/

namespace AsmOrigin.Json

/-! ## Fields -/

/-- The fields that are there, under their names. -/
def present (names : List String) (values : List (Option Json)) : List (String × Json) :=
  (names.zip values).filterMap fun p => p.2.map fun v => (p.1, v)

/-- The members are the fields that are there and members of other names, in any order. -/
def Gives (names : List String) (values : List (Option Json)) (ms : List (String × Json)) : Prop :=
  ∃ others : List (String × Json), (∀ m ∈ others, m.1 ∉ names) ∧
    ms.Perm (present names values ++ others)

variable {names : List String} {values : List (Option Json)} {ms : List (String × Json)}

theorem fst_mem_of_mem_present {m : String × Json} (h : m ∈ present names values) : m.1 ∈ names := by
  obtain ⟨p, hp, hm⟩ := List.mem_filterMap.1 h
  obtain ⟨v, -, rfl⟩ := Option.map_eq_some_iff.1 hm
  exact (List.of_mem_zip hp).1

theorem present_cons (name : String) (value : Option Json) (names : List String)
    (values : List (Option Json)) : present (name :: names) (value :: values) =
      (value.map fun v => (name, v)).toList ++ present names values := by
  unfold present
  cases value <;> simp

/-- A declared field is found once or not at all. -/
theorem filter_present (hnames : names.Nodup) {name : String} {value : Option Json}
    (h : (name, value) ∈ names.zip values) :
    (present names values).filter (·.1 = name) = (value.map fun v => (name, v)).toList := by
  induction names generalizing values with
  | nil => simp at h
  | cons n r ih =>
    obtain ⟨hn, hr⟩ := List.nodup_cons.1 hnames
    cases values with
    | nil => simp at h
    | cons v vs =>
      rw [present_cons, List.filter_append]
      rcases List.mem_cons.1 h with heq | h
      · obtain ⟨rfl, rfl⟩ := Prod.mk.injEq .. ▸ heq
        have hrest : (present r vs).filter (·.1 = name) = [] := by
          refine List.filter_eq_nil_iff.2 fun m hm => ?_
          have hmem := fst_mem_of_mem_present hm
          simp only [decide_eq_true_eq]
          rintro rfl
          exact hn hmem
        rw [hrest, List.append_nil]
        cases value <;> simp
      · have hne : n ≠ name := by
          rintro rfl
          exact hn (List.of_mem_zip h).1
        rw [ih hr h]
        cases v <;> simp [hne]

theorem filter_of_gives (hnames : names.Nodup) (h : Gives names values ms) {name : String}
    {value : Option Json} (hmem : (name, value) ∈ names.zip values) :
    ms.filter (·.1 = name) = (value.map fun v => (name, v)).toList := by
  obtain ⟨others, hothers, hperm⟩ := h
  have hrest : others.filter (·.1 = name) = [] := by
    refine List.filter_eq_nil_iff.2 fun m hm => ?_
    simp only [decide_eq_true_eq]
    rintro rfl
    exact hothers m hm (List.of_mem_zip hmem).1
  have hfilter := hperm.filter (·.1 = name)
  rw [List.filter_append, hrest, List.append_nil, filter_present hnames hmem] at hfilter
  cases value with
  | none => exact hfilter.eq_nil
  | some v => exact List.perm_singleton.1 hfilter

/-- The fields of a record are found in any object that gives it. -/
theorem fields?_of_gives (hnames : names.Nodup) (hlen : names.length = values.length)
    (h : Gives names values ms) : fields? names (ofMembers ms) = some values := by
  have hkeys : (ms.map fun m => (some m.1, m.2)).all (fun m => m.1.isSome) = true := by simp
  show (if _ then _ else _) = _
  rw [if_pos hkeys, mapM_eq_some_iff, List.forall₂_iff_zip]
  refine ⟨hlen, fun {name value} hmem => ?_⟩
  have hfilter : (ms.map fun m => (some m.1, m.2)).filter (fun m => m.1 = some name) =
      (value.map fun v => (some name, v)).toList := by
    rw [List.filter_map]
    have hp : (fun m : Option String × Json => decide (m.1 = some name)) ∘
        (fun m : String × Json => (some m.1, m.2)) = fun m => decide (m.1 = name) := by
      funext m
      simp
    rw [hp, filter_of_gives hnames h hmem]
    cases value <;> rfl
  rw [hfilter]
  cases value <;> rfl

theorem gives_present (names : List String) (values : List (Option Json)) :
    Gives names values (present names values) :=
  ⟨[], fun _ hm => absurd hm List.not_mem_nil, by rw [List.append_nil]⟩

/-! ## Optional fields -/

variable {α : Type} {item : α → Json} {item? : Json → Option α}

/-- An optional value is given as what it is encoded as; one that is absent is left out or null. -/
inductive GivesOptional (item : α → Json) : Option α → Option Json → Prop where
  | leftOut : GivesOptional item none none
  | null : GivesOptional item none (some null)
  | given (a : α) : GivesOptional item (some a) (some (item a))

theorem optional?_of_gives {o : Option α} {v : Option Json} (h : GivesOptional item o v)
    (hitem : ∀ a, o = some a → item? (item a) = some a) (hnull : item? null = none) :
    optional? item? v = some o := by
  cases h with
  | leftOut => rfl
  | null => rfl
  | given a =>
    have ha := hitem a rfl
    unfold optional?
    split
    · rename_i heq
      cases heq
    · rename_i heq
      rw [Option.some.inj heq, hnull] at ha
      cases ha
    · rename_i v _ heq
      rw [← Option.some.inj heq, ha]
      rfl

theorem givesOptional_map (item : α → Json) (o : Option α) : GivesOptional item o (o.map item) := by
  cases o with
  | none => exact .leftOut
  | some a => exact .given a

theorem exists_of_optional? {v : Option Json} {a : α} (h : optional? item? v = some (some a)) :
    ∃ j, item? j = some a := by
  unfold optional? at h
  split at h
  · cases h
  · cases h
  · rename_i j _
    obtain ⟨a', ha', heq⟩ := Option.map_eq_some_iff.1 h
    cases heq
    exact ⟨j, ha'⟩

/-! ## Values -/

theorem toNat?_ofNat {n : Nat} (h : n < 2 ^ 64) : toNat? (ofNat n) = some n :=
  Numeral.toNat?_ofNat h

theorem lt_of_toNat? {j : Json} {n : Nat} (h : toNat? j = some n) : n < 2 ^ 64 := by
  unfold toNat? at h
  split at h
  · rename_i numeral
    unfold Numeral.toNat? at h
    dsimp only at h
    split at h
    · rename_i hbound
      simp only [Bool.and_eq_true, decide_eq_true_eq] at hbound
      cases h
      exact hbound.2
    · cases h
  · cases h

theorem toList?_ofList {xs : List α} (h : ∀ x ∈ xs, item? (item x) = some x) :
    toList? item? (ofList item xs) = some xs := by
  unfold ofList toList?
  rw [mapM_eq_some_iff, List.forall₂_map_left_iff, List.forall₂_same]
  exact h

theorem toMap?_ofMap {m : OrderedMap α} (h : ∀ x ∈ m.values, item? (item x) = some x) :
    toMap? item? (ofMap item m) = some m := by
  unfold ofMap ofMembers toMap?
  rw [List.map_map]
  have hentries : (m.entries.map fun e => (some e.1, item e.2)).mapM (toMember? item?) =
      some m.entries := by
    rw [mapM_eq_some_iff, List.forall₂_map_left_iff, List.forall₂_same]
    intro e he
    simp [toMember?, h e.2 (List.mem_map_of_mem he)]
  exact congrArg (Option.map _) hentries |>.trans (congrArg some m.ofList_entries)

theorem forall_of_toList? {j : Json} {xs : List α} (h : toList? item? j = some xs) :
    ∀ x ∈ xs, ∃ v, item? v = some x := by
  unfold toList? at h
  split at h
  · intro x hx
    obtain ⟨v, -, hv⟩ := exists_of_mapM_eq_some h x hx
    exact ⟨v, hv⟩
  · cases h

theorem forall_of_toMap? {j : Json} {m : OrderedMap α} (h : toMap? item? j = some m) :
    ∀ x ∈ m.values, ∃ v, item? v = some x := by
  unfold toMap? at h
  split at h
  · obtain ⟨es, hes, rfl⟩ := Option.map_eq_some_iff.1 h
    intro x hx
    obtain ⟨k, hk⟩ := OrderedMap.exists_of_mem_values_ofList hx
    obtain ⟨⟨key, v⟩, -, hv⟩ := exists_of_mapM_eq_some hes _ hk
    simp only [toMember?, Option.bind_eq_bind, Option.bind_eq_some_iff, Option.pure_def,
      Option.some.injEq, Prod.mk.injEq] at hv
    obtain ⟨_, _, y, hy, -, rfl⟩ := hv
    exact ⟨v, hy⟩
  · cases h

/-! ## What is printed -/

theorem printable_ofNat (n : Nat) : Printable (ofNat n) := .number (Numeral.isText_ofNat n)

theorem printable_ofText (s : String) : Printable (ofText s) := .text s

theorem printable_ofMembers (h : ∀ m ∈ ms, Printable m.2) : Printable (ofMembers ms) :=
  .object (List.forall_mem_map.2 fun _ _ => rfl) (List.forall_mem_map.2 h)

theorem printable_ofList (h : ∀ a, Printable (item a)) (xs : List α) : Printable (ofList item xs) :=
  .list (List.forall_mem_map.2 fun a _ => h a)

theorem printable_ofMap (h : ∀ a, Printable (item a)) (m : OrderedMap α) :
    Printable (ofMap item m) :=
  printable_ofMembers (List.forall_mem_map.2 fun e _ => h e.2)

end AsmOrigin.Json
