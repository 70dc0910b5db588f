import AsmOrigin.Classifier
import AsmOrigin.Proofs.Binary64.NaN
import AsmOrigin.Proofs.Similarity

/-!
How a query ranks labels, whatever the slots hold.

A similarity is either not a number or between zero and one (`isNaN_or_within_similarity`).  The label
answered is the first one with the greatest score among those that are numbers, and the empty text if
there are none (`bestLabel_cases`).
-/

namespace AsmOrigin

open Binary64

/-! ## Similarities -/

theorem isNaN_or_within_similarity (f c : Fingerprint) :
    (similarity f c).isNaN = true ∨ Within 0 1 (similarity f c) := by
  by_cases h : ∃ d ∈ squaredDifferences f c, d.isNaN = true
  · obtain ⟨d, hd, hn⟩ := h
    unfold similarity
    split
    · exact .inl (isNaN_div_right _ (isNaN_add_right _ (isNaN_sqrt (isNaN_sumFloats hd hn))))
    · exact .inr ⟨0, denotes_zero, le_rfl, zero_le_one⟩
  · push Not at h
    right
    apply within_similarity_of_squares
    intro d hd
    have hn := h d hd
    obtain ⟨i, u, v, -, -, rfl⟩ := mem_squaredDifferences_iff.1 hd
    exact within_mul_self (Bool.eq_false_iff.2 fun hdiff => hn (isNaN_mul_self hdiff))

namespace Classifier

/-! ## The label answered -/

/-- A score that is a number and is exceeded by none, under the first label of those with so great a
score. -/
structure Wins (scores : List (String × Float)) (s : String × Float) : Prop where
  mem : s ∈ scores
  isNaN_eq : s.2.isNaN = false
  greatest : ∀ s' ∈ scores, ¬ s.2 < s'.2
  first : ∀ s' ∈ scores, s.2 ≤ s'.2 → s.1 ≤ s'.1

/-- The start of the search is below every score. -/
theorem exists_denotes_start : ∃ b, Denotes (-1.0) b ∧ b < 0 := by
  obtain ⟨b, hb⟩ := exists_denotes (show (-1.0 : Float).isNaN = false by decide)
  exact ⟨b, hb, (lt_iff_lt hb denotes_zero).1 (by decide)⟩

/-- The running best stays, or it gives way to the first of the greatest scores.  A score that is not a
number never takes its place. -/
theorem exists_denotes_best {best : String × Float} {b : EReal} (hb : Denotes best.2 b)
    (scores : List (String × Float)) :
    ∃ r d, scores.foldl (fun best s => if s.2 > best.2 then s else best) best = r ∧
      Denotes r.2 d ∧ b ≤ d ∧ (∀ s ∈ scores, ∀ a, Denotes s.2 a → a ≤ d) ∧
      (r = best ∨ b < d ∧ ∃ before behind, scores = before ++ r :: behind ∧
        ∀ s ∈ before, ∀ a, Denotes s.2 a → a < d) := by
  induction scores generalizing best b with
  | nil => exact ⟨best, b, rfl, hb, le_rfl, fun s hs => absurd hs List.not_mem_nil, .inl rfl⟩
  | cons s rest ih =>
    rw [List.foldl_cons]
    by_cases hgt : s.2 > best.2
    · obtain ⟨a, ha⟩ := exists_denotes (x := s.2) <| Bool.eq_false_iff.2 fun hn =>
        not_lt_of_isNaN (.inr hn) hgt
      have hba : b < a := (lt_iff_lt hb ha).1 hgt
      obtain ⟨r, d, hr, hd, had, hmax, hplace⟩ := ih ha
      rw [if_pos hgt]
      refine ⟨r, d, hr, hd, hba.le.trans had, ?_, .inr ⟨hba.trans_le had, ?_⟩⟩
      · refine List.forall_mem_cons.2 ⟨fun a' ha' => ?_, hmax⟩
        rwa [ha'.unique ha]
      · obtain rfl | ⟨hlt, before, behind, rfl, hbefore⟩ := hplace
        · exact ⟨[], rest, rfl, fun s' hs' => absurd hs' List.not_mem_nil⟩
        · refine ⟨s :: before, behind, rfl, List.forall_mem_cons.2 ⟨fun a' ha' => ?_, hbefore⟩⟩
          rwa [ha'.unique ha]
    · have hab : ∀ a, Denotes s.2 a → a ≤ b := fun a ha =>
        not_lt.1 fun hlt => hgt ((lt_iff_lt hb ha).2 hlt)
      obtain ⟨r, d, hr, hd, hbd, hmax, hplace⟩ := ih hb
      rw [if_neg hgt]
      refine ⟨r, d, hr, hd, hbd,
        List.forall_mem_cons.2 ⟨fun a ha => (hab a ha).trans hbd, hmax⟩, ?_⟩
      obtain rfl | ⟨hlt, before, behind, rfl, hbefore⟩ := hplace
      · exact .inl rfl
      · exact .inr ⟨hlt, s :: before, behind, rfl,
          List.forall_mem_cons.2 ⟨fun a ha => (hab a ha).trans_lt hlt, hbefore⟩⟩

/-- A label is answered because it wins, or it is the empty text because no score is a number. -/
theorem bestLabel_cases {scores : List (String × Float)}
    (hasc : scores.Pairwise fun s s' => s.1 < s'.1)
    (h : ∀ s ∈ scores, s.2.isNaN = true ∨ Within 0 ⊤ s.2) :
    (∃ s, Wins scores s ∧ bestLabel scores = s.1) ∨
      (∀ s ∈ scores, s.2.isNaN = true) ∧ bestLabel scores = "" := by
  obtain ⟨b, hb, hb0⟩ := exists_denotes_start
  have hstart : Denotes ("", -1.0).2 b := hb
  obtain ⟨r, d, hr, hd, -, hmax, rfl | ⟨-, before, behind, hsplit, hbefore⟩⟩ :=
    exists_denotes_best hstart scores
  · refine .inr ⟨fun s hs => (h s hs).resolve_right ?_, congrArg Prod.fst hr⟩
    rintro ⟨a, ha, ha0, -⟩
    have hle : a ≤ b := hd.unique hb ▸ hmax s hs a ha
    exact absurd (ha0.trans hle) hb0.not_ge
  · have hnum : ∀ {s : String × Float}, s.2.isNaN ≠ true → ∃ a, Denotes s.2 a := fun hn =>
      exists_denotes (Bool.eq_false_iff.2 hn)
    refine .inl ⟨r, ⟨?_, hd.1, fun s hs hlt => ?_, fun s hs hle => ?_⟩, congrArg Prod.fst hr⟩
    · rw [hsplit]
      exact List.mem_append_right _ List.mem_cons_self
    · obtain ⟨a, ha⟩ := hnum (mt (fun hn => not_lt_of_isNaN (.inr hn)) (not_not.2 hlt))
      exact absurd (hmax s hs a ha) ((lt_iff_lt hd ha).1 hlt).not_ge
    · obtain ⟨a, ha⟩ := hnum (mt (fun hn => not_le_of_isNaN (.inr hn)) (not_not.2 hle))
      have hda : d ≤ a := (le_iff_le hd ha).1 hle
      rw [hsplit] at hs hasc
      -- a label before the winner has a lower score
      rcases List.mem_append.1 hs with hs | hs
      · exact absurd (hbefore s hs a ha) hda.not_gt
      · rcases List.mem_cons.1 hs with rfl | hs
        · exact String.le_refl _
        · have hlt := (List.pairwise_cons.1 (List.pairwise_append.1 hasc).2.1).1 s hs
          exact String.not_lt.1 (String.lt_asymm hlt)

end Classifier

end AsmOrigin
