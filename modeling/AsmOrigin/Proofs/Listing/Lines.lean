import AsmOrigin.Text.Line
import Mathlib.Tactic

/-!
How a text falls into lines.

A text is empty, or a line and its line feed before another text, or a last line that no line feed ends
(`line_induction`).  Cutting follows this shape, so a text behind a line feed is cut as it is alone
(`lines_append`), and lines put together come apart again, each without the carriage return that may
stand at its end (`lines_unlines`).
-/

namespace AsmOrigin.Text

variable {a b l cs : List Char}

/-! ## Line ends -/

/-- Every line of the text is ended by a line feed; the empty text has no line. -/
def Terminated (cs : List Char) : Prop := cs = [] ∨ cs.getLast? = some '\n'

theorem terminated_line (l : List Char) : Terminated (l ++ ['\n']) :=
  .inr List.getLast?_concat

theorem exists_line_of_terminated (h : Terminated cs) (hne : cs ≠ []) : ∃ l, cs = l ++ ['\n'] :=
  List.getLast?_eq_some_iff.1 (h.resolve_left hne)

theorem terminated_of_append (hb : b ≠ []) (h : Terminated (a ++ b)) : Terminated b := by
  refine .inr ?_
  rw [← List.getLast?_append_of_ne_nil a hb]
  exact h.resolve_left (by simp [hb])

/-- A line without a carriage return at its end. -/
def dropReturn (l : List Char) : List Char := if l.getLast? = some '\r' then l.dropLast else l

@[simp] theorem dropReturn_concat (l : List Char) : dropReturn (l ++ ['\r']) = l := by
  simp [dropReturn]

theorem dropReturn_eq_self_iff : dropReturn l = l ↔ l.getLast? ≠ some '\r' := by
  unfold dropReturn
  split
  · rename_i h
    obtain ⟨k, rfl⟩ := List.getLast?_eq_some_iff.1 h
    simp
  · rename_i h
    simp [h]

theorem map_dropReturn_eq_self_iff {ls : List (List Char)} :
    ls.map dropReturn = ls ↔ ∀ l ∈ ls, l.getLast? ≠ some '\r' := by
  have hfix := List.map_inj_left (l := ls) (f := dropReturn) (g := id)
  rw [List.map_id] at hfix
  rw [hfix]
  exact forall₂_congr fun l _ => dropReturn_eq_self_iff

theorem dropReturn_cons (c : Char) (hl : l ≠ []) : dropReturn (c :: l) = c :: dropReturn l := by
  obtain ⟨d, r, rfl⟩ := List.exists_cons_of_ne_nil hl
  unfold dropReturn
  rw [List.getLast?_cons_cons, List.dropLast_cons_of_ne_nil (List.cons_ne_nil d r)]
  split <;> rfl

/-- What a carriage return at the end does not change is the same without it. -/
theorem apply_dropReturn {α : Type} {f : List Char → α} (hf : ∀ l, f (l ++ ['\r']) = f l)
    (l : List Char) : f (dropReturn l) = f l := by
  by_cases h : l.getLast? = some '\r'
  · obtain ⟨k, rfl⟩ := List.getLast?_eq_some_iff.1 h
    rw [dropReturn_concat, hf]
  · rw [dropReturn_eq_self_iff.2 h]

/-- After `n` carriage returns are gone there is one more exactly if there were `n + 1`. -/
theorem getLast?_iterate_dropReturn_iff (n : Nat) :
    (dropReturn^[n] l).getLast? = some '\r' ↔ List.replicate (n + 1) '\r' <:+ l := by
  induction n generalizing l with
  | zero =>
    rw [List.getLast?_eq_some_iff]
    exact exists_congr fun k => eq_comm
  | succ n ih =>
    rw [Function.iterate_succ_apply, ih]
    by_cases h : l.getLast? = some '\r'
    · obtain ⟨k, rfl⟩ := List.getLast?_eq_some_iff.1 h
      rw [dropReturn_concat, List.replicate_succ' (n := n + 1)]
      refine exists_congr fun j => ?_
      rw [← List.append_assoc, List.append_left_inj]
    · rw [dropReturn_eq_self_iff.2 h]
      have hnot : ∀ m, ¬ List.replicate (m + 1) '\r' <:+ l := by
        rintro m ⟨j, rfl⟩
        rw [List.replicate_succ', ← List.append_assoc, List.getLast?_concat] at h
        exact h rfl
      exact iff_of_false (hnot n) (hnot (n + 1))

theorem mem_of_mem_dropReturn {c : Char} (h : c ∈ dropReturn l) : c ∈ l := by
  unfold dropReturn at h
  split at h
  · exact List.mem_of_mem_dropLast h
  · exact h

/-! ## Cutting -/

theorem segments_eq_nil_iff : segments cs = [] ↔ cs = [] := by
  constructor
  · intro h
    rw [← flatten_segments cs, h]
    rfl
  · rintro rfl
    rfl

theorem segments_cons {c : Char} (hc : c ≠ '\n') {s : List Char} {ss : List (List Char)}
    (h : segments cs = s :: ss) : segments (c :: cs) = (c :: s) :: ss := by
  unfold segments
  rw [if_neg hc, h]

theorem segments_append (h : Terminated a) (b : List Char) :
    segments (a ++ b) = segments a ++ segments b := by
  induction a with
  | nil => rfl
  | cons c r ih =>
    by_cases hr : r = []
    · subst hr
      obtain rfl : c = '\n' := Option.some.inj (h.resolve_left (List.cons_ne_nil _ _))
      rfl
    · have hcut := ih (terminated_of_append (a := [c]) hr h)
      by_cases hc : c = '\n'
      · simp [segments, hc, hcut]
      · obtain ⟨s, ss, hs⟩ := List.exists_cons_of_ne_nil (mt segments_eq_nil_iff.1 hr)
        rw [hs] at hcut
        rw [List.cons_append, segments_cons hc hcut, segments_cons hc hs]
        rfl

theorem segments_of_notMem (h : '\n' ∉ l) (hl : l ≠ []) : segments l = [l] := by
  induction l with
  | nil => exact absurd rfl hl
  | cons c r ih =>
    rw [List.mem_cons, not_or] at h
    by_cases hr : r = []
    · subst hr
      simp [segments, Ne.symm h.1]
    · exact segments_cons (Ne.symm h.1) (ih h.2 hr)

theorem segments_line (h : '\n' ∉ l) (cs : List Char) :
    segments (l ++ '\n' :: cs) = (l ++ ['\n']) :: segments cs := by
  induction l with
  | nil => rfl
  | cons c r ih =>
    rw [List.mem_cons, not_or] at h
    exact segments_cons (Ne.symm h.1) (ih h.2)

theorem dropEnding_cons {c : Char} (hc : c ≠ '\n') (hl : c = '\r' → l ≠ ['\n']) :
    dropEnding (c :: l) = c :: dropEnding l := by
  rw [dropEnding]
  · intro h
    exact absurd h hc
  · exact hl

theorem dropEnding_of_notMem (h : '\n' ∉ l) : dropEnding l = l := by
  induction l with
  | nil => rfl
  | cons c r ih =>
    rw [List.mem_cons, not_or] at h
    rw [dropEnding_cons (Ne.symm h.1), ih h.2]
    rintro - rfl
    exact h.2 (List.mem_singleton_self _)

theorem dropEnding_line (h : '\n' ∉ l) : dropEnding (l ++ ['\n']) = dropReturn l := by
  induction l with
  | nil => rfl
  | cons c r ih =>
    rw [List.mem_cons, not_or] at h
    by_cases hr : r = []
    · subst hr
      by_cases hc : c = '\r'
      · subst hc
        rfl
      · have hkeep : dropReturn [c] = [c] := dropReturn_eq_self_iff.2 (by simpa using hc)
        rw [hkeep]
        exact dropEnding_cons (Ne.symm h.1) fun h => absurd h hc
    · rw [dropReturn_cons c hr, ← ih h.2]
      refine dropEnding_cons (Ne.symm h.1) fun _ hr' => hr ?_
      simpa using congrArg List.dropLast hr'

/-! ## Lines -/

@[simp] theorem lines_nil : lines [] = [] := rfl

theorem lines_append (h : Terminated a) (b : List Char) : lines (a ++ b) = lines a ++ lines b := by
  unfold lines
  rw [segments_append h, List.map_append]

theorem lines_line (h : '\n' ∉ l) (cs : List Char) :
    lines (l ++ '\n' :: cs) = dropReturn l :: lines cs := by
  unfold lines
  rw [segments_line h, List.map_cons, dropEnding_line h]

theorem lines_of_notMem (h : '\n' ∉ l) (hl : l ≠ []) : lines l = [l] := by
  unfold lines
  rw [segments_of_notMem h hl, List.map_singleton, dropEnding_of_notMem h]

/-- Induction over the lines of a text. -/
@[elab_as_elim]
theorem line_induction {motive : List Char → Prop} (nil : motive [])
    (last : ∀ l, '\n' ∉ l → l ≠ [] → motive l)
    (line : ∀ l cs, '\n' ∉ l → motive cs → motive (l ++ '\n' :: cs)) (cs : List Char) : motive cs := by
  by_cases h : '\n' ∈ cs
  · obtain ⟨l, r, hcut, hl⟩ := List.eq_append_cons_of_mem h
    rw [hcut]
    exact line l r hl (line_induction nil last line r)
  · by_cases hcs : cs = []
    · rw [hcs]
      exact nil
    · exact last cs h hcs
termination_by cs.length
decreasing_by
  rw [hcut, List.length_append, List.length_cons]
  omega

theorem newline_notMem_of_mem_lines (h : l ∈ lines cs) : '\n' ∉ l := by
  induction cs using line_induction with
  | nil => cases h
  | last k hk hne =>
    rw [lines_of_notMem hk hne, List.mem_singleton] at h
    rwa [h]
  | line k cs hk ih =>
    rw [lines_line hk] at h
    rcases List.mem_cons.1 h with rfl | h
    · exact fun hmem => hk (mem_of_mem_dropReturn hmem)
    · exact ih h

theorem terminated_of_mem_segments (h : Terminated cs) {s : List Char} (hs : s ∈ segments cs) :
    Terminated s := by
  induction cs using line_induction with
  | nil => cases hs
  | last l hl hne =>
    obtain ⟨k, rfl⟩ := exists_line_of_terminated h hne
    exact absurd (List.mem_append_right k (List.mem_singleton_self _)) hl
  | line l cs hl ih =>
    rw [segments_line hl] at hs
    rcases List.mem_cons.1 hs with rfl | hs
    · exact terminated_line l
    · by_cases hcs : cs = []
      · rw [hcs] at hs
        cases hs
      · exact ih (terminated_of_append (a := l ++ ['\n']) hcs (by simpa using h)) hs

/-! ## Lines put together -/

theorem unlines_cons (l : List Char) (ls : List (List Char)) :
    unlines (l :: ls) = l ++ '\n' :: unlines ls := by
  simp [unlines]

theorem segments_unlines {ls : List (List Char)} (h : ∀ l ∈ ls, '\n' ∉ l) :
    segments (unlines ls) = ls.map (· ++ ['\n']) := by
  induction ls with
  | nil => rfl
  | cons l r ih =>
    obtain ⟨hl, hr⟩ := List.forall_mem_cons.1 h
    rw [unlines_cons, segments_line hl, ih hr]
    rfl

theorem lines_unlines {ls : List (List Char)} (h : ∀ l ∈ ls, '\n' ∉ l) :
    lines (unlines ls) = ls.map dropReturn := by
  unfold lines
  rw [segments_unlines h, List.map_map]
  exact List.map_congr_left fun l hl => dropEnding_line (h l hl)

theorem unlines_inj {ks ls : List (List Char)} (hks : ∀ l ∈ ks, '\n' ∉ l)
    (hls : ∀ l ∈ ls, '\n' ∉ l) : unlines ks = unlines ls ↔ ks = ls := by
  constructor
  · intro h
    have hcut := congrArg segments h
    rw [segments_unlines hks, segments_unlines hls] at hcut
    exact List.map_injective_iff.2 (List.append_left_injective ['\n']) hcut
  · intro h
    rw [h]

end AsmOrigin.Text
