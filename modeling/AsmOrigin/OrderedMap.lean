/-!
Maps from text keys to values, kept in the order of their keys.

Keys are compared character by character by code point, which is also the order of their UTF-8 bytes.
The entries are strictly ascending (`OrderedMap.ascending`), so a map is determined by what it holds
(`OrderedMap.ext_get?`) and every walk over it meets its labels in that one order.
-/

namespace AsmOrigin

structure OrderedMap (α : Type) where
  entries : List (String × α)
  ascending : entries.Pairwise (fun a b => a.1 < b.1)

namespace OrderedMap

variable {α β : Type}

/-- The entries with `key` set to `f` of what it held. -/
def updateEntries (key : String) (f : Option α → α) : List (String × α) → List (String × α)
  | [] => [(key, f none)]
  | e :: r =>
    if key < e.1 then (key, f none) :: e :: r
    else if e.1 < key then e :: updateEntries key f r
    else (e.1, f (some e.2)) :: r

theorem fst_mem_updateEntries {key : String} {f : Option α → α} {es : List (String × α)}
    {x : String × α} (h : x ∈ updateEntries key f es) : x.1 = key ∨ ∃ e ∈ es, e.1 = x.1 := by
  induction es with
  | nil => simp [updateEntries] at h; simp [h]
  | cons e r ih =>
    unfold updateEntries at h
    split at h
    · rcases List.mem_cons.1 h with rfl | h
      · exact .inl rfl
      · exact .inr ⟨x, h, rfl⟩
    · split at h
      · rcases List.mem_cons.1 h with rfl | h
        · exact .inr ⟨x, List.mem_cons_self, rfl⟩
        · rcases ih h with h | ⟨e', he', h⟩
          · exact .inl h
          · exact .inr ⟨e', List.mem_cons_of_mem _ he', h⟩
      · rcases List.mem_cons.1 h with rfl | h
        · exact .inr ⟨e, List.mem_cons_self, rfl⟩
        · exact .inr ⟨x, List.mem_cons_of_mem _ h, rfl⟩

theorem ascending_updateEntries (key : String) (f : Option α → α) {es : List (String × α)}
    (h : es.Pairwise (fun a b => a.1 < b.1)) :
    (updateEntries key f es).Pairwise (fun a b => a.1 < b.1) := by
  induction es with
  | nil => simp [updateEntries]
  | cons e r ih =>
    obtain ⟨he, hr⟩ := List.pairwise_cons.1 h
    unfold updateEntries
    split
    · rename_i hlt
      refine List.pairwise_cons.2 ⟨fun x hx => ?_, h⟩
      rcases List.mem_cons.1 hx with rfl | hx
      · exact hlt
      · exact String.lt_trans hlt (he x hx)
    · split
      · rename_i hlt
        refine List.pairwise_cons.2 ⟨fun x hx => ?_, ih hr⟩
        rcases fst_mem_updateEntries hx with hk | ⟨e', he', hk⟩
        · rw [hk]; exact hlt
        · rw [← hk]; exact he e' he'
      · exact List.pairwise_cons.2 ⟨he, hr⟩

def empty : OrderedMap α := ⟨[], .nil⟩

instance : EmptyCollection (OrderedMap α) := ⟨empty⟩

instance : Inhabited (OrderedMap α) := ⟨empty⟩

instance [DecidableEq α] : DecidableEq (OrderedMap α) := fun a b =>
  if h : a.entries = b.entries then .isTrue (by cases a; cases b; simp_all)
  else .isFalse (fun e => h (by rw [e]))

def update (m : OrderedMap α) (key : String) (f : Option α → α) : OrderedMap α :=
  ⟨updateEntries key f m.entries, ascending_updateEntries key f m.ascending⟩

def insert (m : OrderedMap α) (key : String) (value : α) : OrderedMap α :=
  m.update key (fun _ => value)

/-- The entries in turn; of two with one key the later one stays. -/
def ofList (es : List (String × α)) : OrderedMap α :=
  es.foldl (fun m e => m.insert e.1 e.2) empty

def get? (m : OrderedMap α) (key : String) : Option α :=
  (m.entries.find? (·.1 = key)).map (·.2)

def keys (m : OrderedMap α) : List String := m.entries.map (·.1)

def values (m : OrderedMap α) : List α := m.entries.map (·.2)

def size (m : OrderedMap α) : Nat := m.entries.length

def isEmpty (m : OrderedMap α) : Bool := m.entries.isEmpty

/-- The same keys, each with a new value. -/
def mapValues (f : String → α → β) (m : OrderedMap α) : OrderedMap β :=
  ⟨m.entries.map (fun e => (e.1, f e.1 e.2)), by
    rw [List.pairwise_map]
    exact m.ascending⟩

/-! ## What a map holds -/

theorem find?_updateEntries (key k : String) (f : Option α → α) {es : List (String × α)}
    (h : es.Pairwise (fun a b => a.1 < b.1)) :
    ((updateEntries key f es).find? (·.1 = k)).map (·.2) =
      if key = k then some (f ((es.find? (·.1 = key)).map (·.2)))
      else (es.find? (·.1 = k)).map (·.2) := by
  induction es with
  | nil => by_cases hk : key = k <;> simp [updateEntries, hk]
  | cons e r ih =>
    obtain ⟨he, hr⟩ := List.pairwise_cons.1 h
    unfold updateEntries
    split
    · rename_i hlt
      have habs : ∀ x ∈ e :: r, x.1 ≠ key := by
        intro x hx hxk
        rcases List.mem_cons.1 hx with rfl | hx
        · exact String.lt_irrefl _ (hxk ▸ hlt)
        · exact String.lt_irrefl _ (hxk ▸ String.lt_trans hlt (he x hx))
      have hn : (e :: r).find? (·.1 = key) = none := by
        rw [List.find?_eq_none]
        intro x hx
        simpa using habs x hx
      by_cases hk : key = k
      · simp [hk, hk ▸ hn]
      · rw [List.find?_cons]
        simp [hk]
    · split
      · rename_i hlt
        have hne : e.1 ≠ key := fun h => String.lt_irrefl _ (h ▸ hlt)
        by_cases hk : key = k
        · subst hk
          have := ih hr
          simp only [if_true] at this
          simp [hne, this]
        · have := ih hr
          simp only [hk, if_false] at this
          by_cases hek : e.1 = k
          · simp [hek, hk]
          · simp [hek, hk, this]
      · rename_i h1 h2
        have heq : e.1 = key := String.le_antisymm (String.not_lt.1 h1) (String.not_lt.1 h2)
        by_cases hk : key = k
        · simp [heq, hk]
        · have hek : e.1 ≠ k := heq ▸ hk
          simp [hek, hk]

theorem get?_update (m : OrderedMap α) (key k : String) (f : Option α → α) :
    (m.update key f).get? k = if key = k then some (f (m.get? key)) else m.get? k :=
  find?_updateEntries key k f m.ascending

theorem get?_insert (m : OrderedMap α) (key k : String) (value : α) :
    (m.insert key value).get? k = if key = k then some value else m.get? k := by
  simp [insert, get?_update]

@[simp] theorem get?_empty (k : String) : (empty : OrderedMap α).get? k = none := rfl

theorem get?_mapValues (f : String → α → β) (m : OrderedMap α) (k : String) :
    (m.mapValues f).get? k = (m.get? k).map (f k) := by
  simp only [get?, mapValues, List.find?_map, Function.comp_def]
  cases h : m.entries.find? (·.1 = k) with
  | none => rfl
  | some e =>
    have he : e.1 = k := by simpa using List.find?_some h
    simp [he]

@[simp] theorem keys_mapValues (f : String → α → β) (m : OrderedMap α) :
    (m.mapValues f).keys = m.keys := by
  simp [keys, mapValues, Function.comp_def]

theorem mem_entries_iff (m : OrderedMap α) (k : String) (v : α) :
    (k, v) ∈ m.entries ↔ m.get? k = some v := by
  obtain ⟨es, h⟩ := m
  simp only [get?]
  induction es with
  | nil => simp
  | cons e r ih =>
    obtain ⟨he, hr⟩ := List.pairwise_cons.1 h
    by_cases hk : e.1 = k
    · have hnot : (k, v) ∉ r := fun hm => String.lt_irrefl k (by simpa [hk] using he _ hm)
      simp only [List.mem_cons, hnot, or_false, List.find?_cons, hk, decide_true, Option.map_some,
        Option.some.injEq]
      exact ⟨fun h => by rw [← h], fun h => by rw [← h, ← hk]⟩
    · have hne : (k, v) ≠ e := fun h => hk (by rw [← h])
      simp [hne, hk, ih hr]

/-- Two maps that answer every question alike are equal. -/
theorem ext_get? {m n : OrderedMap α} (h : ∀ k, m.get? k = n.get? k) : m = n := by
  have hmem : ∀ e, e ∈ m.entries ↔ e ∈ n.entries := fun e => by
    rw [mem_entries_iff m e.1 e.2, mem_entries_iff n e.1 e.2, h]
  obtain ⟨es, hes⟩ := m
  obtain ⟨fs, hfs⟩ := n
  simp only at hmem
  suffices es = fs by subst this; rfl
  clear h
  induction es generalizing fs with
  | nil => cases fs with
    | nil => rfl
    | cons f r => simpa using hmem f
  | cons e r ih =>
    cases fs with
    | nil => simpa using hmem e
    | cons f s =>
      obtain ⟨he, hr⟩ := List.pairwise_cons.1 hes
      obtain ⟨hf, hs⟩ := List.pairwise_cons.1 hfs
      have hef : e = f := by
        rcases List.mem_cons.1 ((hmem e).1 List.mem_cons_self) with h | h1
        · exact h
        · rcases List.mem_cons.1 ((hmem f).2 List.mem_cons_self) with h | h2
          · exact h.symm
          · exact absurd (String.lt_trans (hf e h1) (he f h2)) (String.lt_irrefl _)
      subst hef
      have hrs : r = s := ih hr s hs fun x => by
        have hx := hmem x
        simp only [List.mem_cons] at hx
        constructor
        · intro hm
          rcases hx.1 (.inr hm) with rfl | h
          · exact absurd (he _ hm) (String.lt_irrefl _)
          · exact h
        · intro hm
          rcases hx.2 (.inr hm) with rfl | h
          · exact absurd (hf _ hm) (String.lt_irrefl _)
          · exact h
      rw [hrs]

theorem mem_keys_iff (m : OrderedMap α) (k : String) : k ∈ m.keys ↔ (m.get? k).isSome = true := by
  rw [Option.isSome_iff_exists]
  constructor
  · intro h
    obtain ⟨e, he, rfl⟩ := List.mem_map.1 h
    exact ⟨e.2, (mem_entries_iff _ _ _).1 he⟩
  · rintro ⟨v, hv⟩
    exact List.mem_map.2 ⟨(k, v), (mem_entries_iff _ _ _).2 hv, rfl⟩

theorem nodup_keys (m : OrderedMap α) : m.keys.Nodup :=
  (List.pairwise_map.2 m.ascending).imp fun hlt => String.ne_of_lt hlt

/-! ## Entries put in place in turn -/

theorem get?_foldl_insert_of_notMem {es : List (String × α)} {k : String} (h : k ∉ es.map (·.1))
    (m : OrderedMap α) : (es.foldl (fun m e => m.insert e.1 e.2) m).get? k = m.get? k := by
  induction es generalizing m with
  | nil => rfl
  | cons e r ih =>
    rw [List.map_cons, List.mem_cons, not_or] at h
    rw [List.foldl_cons, ih h.2, get?_insert, if_neg (Ne.symm h.1)]

theorem get?_foldl_insert_of_mem {es : List (String × α)} (hes : (es.map (·.1)).Nodup) {k : String}
    {v : α} (h : (k, v) ∈ es) (m : OrderedMap α) :
    (es.foldl (fun m e => m.insert e.1 e.2) m).get? k = some v := by
  induction es generalizing m with
  | nil => cases h
  | cons e r ih =>
    obtain ⟨he, hr⟩ := List.nodup_cons.1 hes
    rw [List.foldl_cons]
    rcases List.mem_cons.1 h with rfl | h
    · rw [get?_foldl_insert_of_notMem he, get?_insert, if_pos rfl]
    · exact ih hr h (m.insert e.1 e.2)

/-- What a map holds in the end it held before or was put there. -/
theorem mem_or_of_get?_foldl_insert {es : List (String × α)} {m : OrderedMap α} {k : String} {v : α}
    (h : (es.foldl (fun m e => m.insert e.1 e.2) m).get? k = some v) :
    (k, v) ∈ es ∨ m.get? k = some v := by
  induction es generalizing m with
  | nil => exact .inr h
  | cons e r ih =>
    rcases ih h with hr | hm
    · exact .inl (List.mem_cons_of_mem e hr)
    · rw [get?_insert] at hm
      split at hm
      · rename_i hk
        refine .inl ?_
        rw [← hk, ← Option.some.inj hm]
        exact List.mem_cons_self
      · exact .inr hm

theorem exists_of_mem_values_ofList {es : List (String × α)} {v : α} (h : v ∈ (ofList es).values) :
    ∃ k, (k, v) ∈ es := by
  obtain ⟨⟨k, w⟩, he, rfl⟩ := List.mem_map.1 h
  rcases mem_or_of_get?_foldl_insert ((mem_entries_iff _ k w).1 he) with hmem | hempty
  · exact ⟨k, hmem⟩
  · cases hempty

/-- A map is rebuilt from its entries. -/
theorem ofList_entries (m : OrderedMap α) : ofList m.entries = m := by
  refine ext_get? fun k => ?_
  unfold ofList
  cases h : m.get? k with
  | some v => exact get?_foldl_insert_of_mem m.nodup_keys ((mem_entries_iff m k v).2 h) empty
  | none =>
    refine get?_foldl_insert_of_notMem (fun hk => ?_) empty
    have hsome := (mem_keys_iff m k).1 hk
    rw [h] at hsome
    cases hsome

end OrderedMap

end AsmOrigin
