import AsmOrigin.Proofs.ByteOrder
import AsmOrigin.Proofs.Listing.Occurrences

/-!
The most occurrences that share no character.

The search passes over each occurrence that it meets as a whole, and otherwise over one character
(`search_induction`).  Of occurrences that share no character at most one starts within the first one
that is met, and all others are occurrences in the text behind it.  So no choice of them has more than
the search counts (`DisjointOccurrences.card_le_count`).
-/

namespace AsmOrigin

namespace Text

variable {needle a cs : List Char} {s : Finset Nat}

/-- Places at which the needle stands, each behind the last character of the occurrence before. -/
structure DisjointOccurrences (needle cs : List Char) (s : Finset Nat) : Prop where
  occurs : ∀ i ∈ s, needle <+: cs.drop i
  apart : ∀ i ∈ s, ∀ j ∈ s, i < j → i + needle.length ≤ j

/-! ## The course of the search -/

theorem countFrom_eq_countFrom_drop (needle : List Char) (skip : Nat) (cs : List Char) :
    countFrom needle skip cs = countFrom needle 0 (cs.drop skip) := by
  induction skip generalizing cs with
  | zero => rfl
  | succ skip ih =>
    cases cs with
    | nil => rfl
    | cons c r => exact ih r

theorem count_append_self (hne : needle ≠ []) (cs : List Char) :
    count needle (needle ++ cs) = count needle cs + 1 := by
  have hstart : startsWith needle (needle ++ cs) = true :=
    startsWith_eq_true_iff.2 (List.prefix_append needle cs)
  rw [count_eq_countFrom hne, count_eq_countFrom hne]
  obtain ⟨c, r, rfl⟩ := List.exists_cons_of_ne_nil hne
  rw [List.cons_append] at hstart ⊢
  rw [countFrom_zero_cons, if_pos hstart, countFrom_eq_countFrom_drop, List.length_cons,
    Nat.add_sub_cancel, List.drop_left, Nat.add_comm]

theorem count_cons_of_miss {c : Char} (h : ¬ needle <+: c :: cs) :
    count needle (c :: cs) = count needle cs := by
  have hne : needle ≠ [] := by
    rintro rfl
    exact h List.nil_prefix
  rw [count_eq_countFrom hne, count_eq_countFrom hne, countFrom_zero_cons,
    if_neg (mt startsWith_eq_true_iff.1 h)]

/-- Induction along the search. -/
@[elab_as_elim]
theorem search_induction (hne : needle ≠ []) {motive : List Char → Prop} (nil : motive [])
    (hit : ∀ cs, motive cs → motive (needle ++ cs))
    (miss : ∀ c cs, ¬ needle <+: c :: cs → motive cs → motive (c :: cs)) (cs : List Char) :
    motive cs := by
  by_cases h : needle <+: cs
  · obtain ⟨r, hr⟩ := h
    rw [← hr]
    exact hit r (search_induction hne nil hit miss r)
  · cases cs with
    | nil => exact nil
    | cons c r => exact miss c r h (search_induction hne nil hit miss r)
termination_by cs.length
decreasing_by
  · have hpos := List.length_pos_iff.2 hne
    rw [← hr, List.length_append]
    omega
  · exact Nat.lt_succ_self _

/-- All that were counted have room in the text side by side, whatever the size of a character is. -/
theorem count_mul_sum_le (hne : needle ≠ []) (size : Char → Nat) (cs : List Char) :
    count needle cs * (needle.map size).sum ≤ (cs.map size).sum := by
  induction cs using search_induction hne with
  | nil => simp
  | hit cs ih =>
    rw [count_append_self hne, List.map_append, List.sum_append, Nat.succ_mul]
    omega
  | miss c cs hmiss ih =>
    rw [count_cons_of_miss hmiss, List.map_cons, List.sum_cons]
    omega

/-! ## The occurrences that are counted -/

theorem DisjointOccurrences.shift (h : DisjointOccurrences needle cs s) (a : List Char) :
    DisjointOccurrences needle (a ++ cs) (s.image (a.length + ·)) := by
  constructor
  · intro i hi
    obtain ⟨k, hk, rfl⟩ := Finset.mem_image.1 hi
    rw [List.drop_length_add_append]
    exact h.occurs k hk
  · intro i hi j hj hij
    obtain ⟨k, hk, rfl⟩ := Finset.mem_image.1 hi
    obtain ⟨l, hl, rfl⟩ := Finset.mem_image.1 hj
    have hkl := h.apart k hk l hl (by omega)
    omega

theorem DisjointOccurrences.insert_zero (h : DisjointOccurrences needle cs s) (hfront : needle <+: cs)
    (hbehind : ∀ i ∈ s, needle.length ≤ i) : DisjointOccurrences needle cs (insert 0 s) := by
  constructor
  · intro i hi
    rcases Finset.mem_insert.1 hi with rfl | hi
    · exact hfront
    · exact h.occurs i hi
  · intro i hi j hj hij
    have hj := (Finset.mem_insert.1 hj).resolve_left (by omega)
    rcases Finset.mem_insert.1 hi with rfl | hi
    · have := hbehind j hj
      omega
    · exact h.apart i hi j hj hij

theorem exists_disjointOccurrences (hne : needle ≠ []) (cs : List Char) :
    ∃ s, DisjointOccurrences needle cs s ∧ s.card = count needle cs := by
  induction cs using search_induction hne with
  | nil => exact ⟨∅, ⟨by simp, by simp⟩, by simp⟩
  | hit cs ih =>
    obtain ⟨s, hs, hcard⟩ := ih
    have hbehind : ∀ i ∈ s.image (needle.length + ·), needle.length ≤ i := by simp
    have hzero : 0 ∉ s.image (needle.length + ·) := fun h =>
      hne (List.length_eq_zero_iff.1 (Nat.le_zero.1 (hbehind 0 h)))
    refine ⟨_, (hs.shift needle).insert_zero (List.prefix_append needle cs) hbehind, ?_⟩
    rw [Finset.card_insert_of_notMem hzero, Finset.card_image_of_injective s (add_right_injective _),
      hcard, count_append_self hne]
  | miss c cs hmiss ih =>
    obtain ⟨s, hs, hcard⟩ := ih
    refine ⟨_, hs.shift [c], ?_⟩
    rw [Finset.card_image_of_injective s (add_right_injective _), hcard, count_cons_of_miss hmiss]

/-! ## Any other choice of occurrences -/

/-- The places from the `k`-th on, counted from there. -/
def placesFrom (k : Nat) (s : Finset Nat) : Finset Nat := (s.filter (k ≤ ·)).image (· - k)

theorem mem_placesFrom_iff {k i : Nat} : i ∈ placesFrom k s ↔ k + i ∈ s := by
  unfold placesFrom
  rw [Finset.mem_image]
  constructor
  · rintro ⟨j, hj, rfl⟩
    obtain ⟨hj, hle⟩ := Finset.mem_filter.1 hj
    rwa [Nat.add_sub_cancel' hle]
  · intro h
    exact ⟨k + i, Finset.mem_filter.2 ⟨h, Nat.le_add_right k i⟩, Nat.add_sub_cancel_left k i⟩

theorem card_eq_add_placesFrom (k : Nat) (s : Finset Nat) :
    s.card = (s.filter (· < k)).card + (placesFrom k s).card := by
  have hinj : Set.InjOn (· - k) (s.filter (k ≤ ·) : Finset Nat) := by
    intro i hi j hj hij
    have hi := (Finset.mem_filter.1 hi).2
    have hj := (Finset.mem_filter.1 hj).2
    dsimp only at hij
    omega
  rw [placesFrom, Finset.card_image_of_injOn hinj, ← Finset.card_filter_add_card_filter_not (· < k)]
  simp only [not_lt]

theorem DisjointOccurrences.behind (h : DisjointOccurrences needle (a ++ cs) s) :
    DisjointOccurrences needle cs (placesFrom a.length s) := by
  constructor
  · intro i hi
    have hocc := h.occurs _ (mem_placesFrom_iff.1 hi)
    rwa [List.drop_length_add_append] at hocc
  · intro i hi j hj hij
    have := h.apart _ (mem_placesFrom_iff.1 hi) _ (mem_placesFrom_iff.1 hj) (by omega)
    omega

/-- Two that start within the length of one occurrence would share a character. -/
theorem DisjointOccurrences.card_within_le_one (h : DisjointOccurrences needle cs s) :
    (s.filter (· < needle.length)).card ≤ 1 := by
  refine Finset.card_le_one.2 fun i hi j hj => ?_
  obtain ⟨hi, hilt⟩ := Finset.mem_filter.1 hi
  obtain ⟨hj, hjlt⟩ := Finset.mem_filter.1 hj
  rcases lt_trichotomy i j with hij | rfl | hij
  · have := h.apart i hi j hj hij
    omega
  · rfl
  · have := h.apart j hj i hi hij
    omega

theorem DisjointOccurrences.card_le_count (hne : needle ≠ []) (h : DisjointOccurrences needle cs s) :
    s.card ≤ count needle cs := by
  induction cs using search_induction hne generalizing s with
  | nil =>
    have hempty : s = ∅ := Finset.eq_empty_of_forall_notMem fun i hi => by
      have hocc := h.occurs i hi
      rw [List.drop_nil, List.prefix_nil] at hocc
      exact hne hocc
    rw [hempty]
    exact Nat.zero_le _
  | hit cs ih =>
    -- what starts within the first occurrence gives way to it
    have hwithin := h.card_within_le_one
    have hbehind := ih h.behind
    rw [card_eq_add_placesFrom needle.length, count_append_self hne]
    omega
  | miss c cs hmiss ih =>
    have hfront : s.filter (· < 1) = ∅ := Finset.filter_eq_empty_iff.2 fun i hi hlt => by
      obtain rfl : i = 0 := by omega
      exact hmiss (h.occurs 0 hi)
    have hbehind := ih (DisjointOccurrences.behind (a := [c]) h)
    rw [card_eq_add_placesFrom 1, hfront, Finset.card_empty, Nat.zero_add,
      count_cons_of_miss hmiss]
    exact hbehind

end Text

open Text

/-- For a needle that is not empty the substring matcher counts as many occurrences as can be chosen
without two of them sharing a character.  So there is room for all of them side by side in the haystack,
in characters and in bytes, and a mention is found exactly if one is counted.  The empty needle is
mentioned everywhere and counted nowhere. -/
theorem Matcher.occurrences_substring_isGreatest (haystack needle : String) :
    (needle ≠ "" →
      IsGreatest {k | ∃ s, DisjointOccurrences needle.toList haystack.toList s ∧ s.card = k}
        (Matcher.substring.occurrences haystack.toList needle.toList) ∧
      Matcher.substring.occurrences haystack.toList needle.toList * needle.length ≤ haystack.length ∧
      Matcher.substring.occurrences haystack.toList needle.toList * needle.utf8ByteSize ≤
        haystack.utf8ByteSize ∧
      (Matcher.substring.mentions haystack.toList needle.toList = true ↔
        1 ≤ Matcher.substring.occurrences haystack.toList needle.toList)) ∧
    (needle = "" → Matcher.substring.mentions haystack.toList needle.toList = true ∧
      Matcher.substring.occurrences haystack.toList needle.toList = 0) := by
  have hmentions : Matcher.substring.mentions haystack.toList needle.toList = true ↔
      needle.toList <:+: haystack.toList := contains_iff_infix
  constructor
  · intro hneedle
    have hne : needle.toList ≠ [] := mt String.toList_eq_nil_iff.1 hneedle
    refine ⟨⟨exists_disjointOccurrences hne _, ?_⟩, ?_, ?_, ?_⟩
    · rintro k ⟨s, hs, rfl⟩
      exact hs.card_le_count hne
    · have hroom := count_mul_sum_le hne (fun _ => 1) haystack.toList
      rwa [List.map_const', List.map_const', List.sum_replicate_nat, List.sum_replicate_nat, Nat.mul_one,
        Nat.mul_one, String.length_toList, String.length_toList] at hroom
    · rw [utf8ByteSize_eq_sum, utf8ByteSize_eq_sum]
      exact count_mul_sum_le hne _ haystack.toList
    · rw [hmentions, Nat.one_le_iff_ne_zero]
      exact (not_iff_comm.1 (count_eq_zero_iff hne).symm).symm
  · rintro rfl
    exact ⟨hmentions.2 List.nil_infix, rfl⟩

/-- A needle that overlaps itself: of the four places at which it stands two can be chosen. -/
example : Matcher.substring.occurrences "ababababa".toList "aba".toList = 2 := by decide +kernel

end AsmOrigin
