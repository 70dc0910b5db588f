import AsmOrigin.Profile
import AsmOrigin.Proofs.Listing.Lines

/-!
Occurrences across a character that the needle does not have.

No occurrence reaches over such a character, so the search from left to right starts afresh behind it:
what is found in the whole is what is found before and behind it (`count_append_cons`).  Names hold
neither line feeds nor carriage returns, so occurrences in a text are those in its lines
(`count_eq_sum_lines`).
-/

namespace AsmOrigin

/-! ## Names -/

/-- A name without line feeds and carriage returns. -/
def IsOneLine (name : String) : Prop := '\n' ∉ name.toList ∧ '\r' ∉ name.toList

instance (name : String) : Decidable (IsOneLine name) := inferInstanceAs (Decidable (_ ∧ _))

theorem isOneLine_registers : ∀ name ∈ registers, IsOneLine name := by decide +kernel

theorem isOneLine_jumpMnemonics : ∀ name ∈ jumpMnemonics, IsOneLine name := by decide +kernel

theorem isOneLine_signaturePatterns : ∀ name ∈ signaturePatterns, IsOneLine name := by
  decide +kernel

namespace Text

/-! ## Searching -/

variable {needle a b cs l : List Char} {c : Char}

theorem startsWith_nil (needle : List Char) : startsWith needle [] = needle.isEmpty := by
  cases needle <;> rfl

theorem startsWith_eq_true_iff : startsWith needle cs = true ↔ needle <+: cs :=
  List.isPrefixOf_iff_prefix

theorem contains_cons (needle : List Char) (x : Char) (cs : List Char) :
    contains needle (x :: cs) = (startsWith needle (x :: cs) || contains needle cs) := rfl

theorem countFrom_zero_cons (needle : List Char) (x : Char) (cs : List Char) :
    countFrom needle 0 (x :: cs) = if startsWith needle (x :: cs) then
      1 + countFrom needle (needle.length - 1) cs else countFrom needle 0 cs := rfl

theorem contains_iff_infix : contains needle cs = true ↔ needle <:+: cs := by
  induction cs with
  | nil => rw [List.infix_nil, contains, List.isEmpty_iff]
  | cons x r ih => rw [contains_cons, Bool.or_eq_true, ih, List.infix_cons_iff, startsWith_eq_true_iff]

theorem count_eq_countFrom (hne : needle ≠ []) : count needle cs = countFrom needle 0 cs :=
  if_neg (by simpa using hne)

theorem countFrom_zero_eq_zero_iff (hne : needle ≠ []) :
    countFrom needle 0 cs = 0 ↔ contains needle cs = false := by
  induction cs with
  | nil => exact iff_of_true rfl (List.isEmpty_eq_false_iff.2 hne)
  | cons x r ih =>
    rw [countFrom_zero_cons, contains_cons, Bool.or_eq_false_iff]
    split
    · rename_i hocc
      exact iff_of_false (by omega) fun h => Bool.eq_false_iff.1 h.1 hocc
    · rename_i hocc
      rw [ih, Bool.eq_false_iff.2 hocc]
      exact (and_iff_right rfl).symm

/-- A needle is not counted exactly if it stands nowhere. -/
theorem count_eq_zero_iff (hne : needle ≠ []) : count needle cs = 0 ↔ ¬ needle <:+: cs := by
  rw [count_eq_countFrom hne, countFrom_zero_eq_zero_iff hne, ← contains_iff_infix, Bool.not_eq_true]

theorem startsWith_append_cons (h : c ∉ needle) (a b : List Char) :
    startsWith needle (a ++ c :: b) = startsWith needle a := by
  unfold startsWith
  induction a generalizing needle with
  | nil =>
    cases needle with
    | nil => rfl
    | cons d n =>
      have hd : (d == c) = false := beq_eq_false_iff_ne.2 fun hd => h (hd ▸ List.mem_cons_self)
      show (d == c && n.isPrefixOf b) = false
      rw [hd, Bool.false_and]
  | cons x r ih =>
    cases needle with
    | nil => rfl
    | cons d n =>
      show (d == x && n.isPrefixOf (r ++ c :: b)) = (d == x && n.isPrefixOf r)
      rw [ih fun hmem => h (List.mem_cons_of_mem d hmem)]

theorem contains_append_cons (h : c ∉ needle) (a b : List Char) :
    contains needle (a ++ c :: b) = (contains needle a || contains needle b) := by
  induction a with
  | nil =>
    have hstart := startsWith_append_cons h [] b
    rw [startsWith_nil, List.nil_append] at hstart
    rw [List.nil_append, contains_cons, hstart]
    rfl
  | cons x r ih =>
    have hstart := startsWith_append_cons h (x :: r) b
    rw [List.cons_append] at hstart ⊢
    rw [contains_cons, contains_cons, hstart, ih, Bool.or_assoc]

/-- The search is `skip` characters into an occurrence that ends before `c`. -/
theorem countFrom_append_cons (hne : needle ≠ []) (h : c ∉ needle) {skip : Nat} {a : List Char}
    (hskip : skip ≤ a.length) (b : List Char) :
    countFrom needle skip (a ++ c :: b) = countFrom needle skip a + countFrom needle 0 b := by
  induction a generalizing skip with
  | nil =>
    obtain rfl : skip = 0 := Nat.le_zero.1 hskip
    have hstart : startsWith needle (c :: b) = false := by
      rw [← List.nil_append (c :: b), startsWith_append_cons h, startsWith_nil]
      exact List.isEmpty_eq_false_iff.2 hne
    rw [List.nil_append, countFrom_zero_cons, hstart]
    exact (Nat.zero_add _).symm
  | cons x r ih =>
    rw [List.length_cons] at hskip
    cases skip with
    | succ skip => exact ih (Nat.le_of_succ_le_succ hskip)
    | zero =>
      have hstart := startsWith_append_cons h (x :: r) b
      rw [List.cons_append] at hstart ⊢
      rw [countFrom_zero_cons, countFrom_zero_cons, hstart]
      split
      · rename_i hocc
        -- the occurrence lies within `x :: r`
        have hlen := (startsWith_eq_true_iff.1 hocc).length_le
        rw [List.length_cons] at hlen
        rw [ih (by omega), Nat.add_assoc]
      · exact ih (Nat.zero_le _)

theorem count_append_cons (h : c ∉ needle) (a b : List Char) :
    count needle (a ++ c :: b) = count needle a + count needle b := by
  by_cases hne : needle = []
  · subst hne
    rfl
  · rw [count_eq_countFrom hne, count_eq_countFrom hne, count_eq_countFrom hne]
    exact countFrom_append_cons hne h (Nat.zero_le _) b

@[simp] theorem count_nil (needle : List Char) : count needle [] = 0 := by
  unfold count
  split <;> rfl

/-! ## Lines -/

theorem count_concat (h : c ∉ needle) (cs : List Char) : count needle (cs ++ [c]) = count needle cs := by
  rw [count_append_cons h, count_nil, Nat.add_zero]

theorem count_dropReturn (h : '\r' ∉ needle) (l : List Char) :
    count needle (dropReturn l) = count needle l :=
  apply_dropReturn (count_concat h) l

theorem contains_concat (h : c ∉ needle) (cs : List Char) :
    contains needle (cs ++ [c]) = contains needle cs := by
  rw [contains_append_cons h]
  cases hn : needle with
  | nil => cases cs <;> rfl
  | cons d n => exact Bool.or_false _

theorem count_append (h : '\n' ∉ needle) (ha : Terminated a) (b : List Char) :
    count needle (a ++ b) = count needle a + count needle b := by
  by_cases hne : a = []
  · subst hne
    simp
  · obtain ⟨l, rfl⟩ := exists_line_of_terminated ha hne
    rw [List.append_assoc, List.singleton_append, count_append_cons h, count_concat h]

/-- Occurrences in a text are those in its lines. -/
theorem count_eq_sum_lines (hfeed : '\n' ∉ needle) (hreturn : '\r' ∉ needle) (cs : List Char) :
    count needle cs = ((lines cs).map (count needle)).sum := by
  induction cs using line_induction with
  | nil => simp
  | last l hl hne => simp [lines_of_notMem hl hne]
  | line l cs hl ih =>
    rw [lines_line hl, count_append_cons hfeed, ih, List.map_cons, List.sum_cons,
      count_dropReturn hreturn]

end Text

end AsmOrigin
