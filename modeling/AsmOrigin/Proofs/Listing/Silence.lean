import AsmOrigin.Proofs.Counts
import AsmOrigin.Proofs.Listing.Stripping

/-!
Listings with a zero fingerprint.

A slot is zero exactly if nothing was counted for it (`isZero_fingerprint_iff`).  Without instructions
there are neither opcodes nor registers, but jump lines, call lines and signatures are looked for in
comments and directives as well, so a listing that consists of these may still have a fingerprint
(`isZero_ofListing_iff`).
-/

namespace AsmOrigin

open Text Binary64

/-! ## Slots -/

theorem ofCount_beq_zero_iff (n : Nat) : (ofCount n == 0.0) = true ↔ n = 0 := by
  rw [beq_iff_eq (denotes_ofCount n) denotes_zero]
  constructor
  · intro h
    by_contra hn
    have hone : (1 : ℝ) ≤ n := Nat.one_le_cast.2 (Nat.one_le_iff_ne_zero.2 hn)
    have hle : rounded 1 ≤ rounded (n : ℝ) := rounded_mono (EReal.coe_le_coe_iff.2 hone)
    rw [rounded_one, h] at hle
    exact absurd hle (not_le.2 zero_lt_one)
  · rintro rfl
    rw [Nat.cast_zero, EReal.coe_zero, rounded_zero]

theorem Profile.isZero_fingerprint_iff (p : Profile) :
    p.fingerprint.isZero = true ↔ ∀ slot ∈ Slot.all, slot.count p = 0 := by
  rw [Profile.fingerprint_eq, Fingerprint.isZero, List.all_eq_true, List.forall_mem_map]
  exact forall₂_congr fun slot _ => ofCount_beq_zero_iff _

namespace Listing

/-! ## Ignored lines -/

/-- A comment, a directive or a local label: behind blanks a `#` or a dot. -/
def IsMarked (line : List Char) : Prop :=
  ∃ blanks c rest, line = blanks ++ c :: rest ∧ (∀ b ∈ blanks, isBlank b = true) ∧ (c = '#' ∨ c = '.')

theorem isIgnored_iff (line : List Char) :
    isIgnored line = true ↔ isBlankText line = true ∨ IsMarked line := by
  constructor
  · intro h
    unfold isIgnored at h
    split at h
    · rename_i hdrop
      exact .inl ((isBlankText_iff line).2 hdrop)
    · rename_i c r hdrop
      refine .inr ⟨line.takeWhile isBlank, c, r, ?_, fun b hb => List.mem_takeWhile_imp hb, ?_⟩
      · rw [← hdrop]
        exact List.takeWhile_append_dropWhile.symm
      · simpa using h
  · rintro (h | ⟨blanks, c, rest, rfl, hblanks, hc⟩)
    · unfold isIgnored
      rw [(isBlankText_iff line).1 h]
    · have hc' : isBlank c = false := by
        rcases hc with rfl | rfl <;> rfl
      have hdrop : dropBlanks (blanks ++ c :: rest) = c :: rest := by
        unfold dropBlanks
        rw [List.dropWhile_append_of_pos hblanks, List.dropWhile_cons_of_neg (by simp [hc'])]
      unfold isIgnored
      rw [hdrop]
      simpa using hc

theorem instructions_eq_nil_iff (cs : List Char) :
    instructions cs = [] ↔ ∀ line ∈ lines cs, isBlankText line = true ∨ IsMarked line := by
  unfold instructions
  rw [List.filter_eq_nil_iff]
  refine forall₂_congr fun line _ => ?_
  rw [← isIgnored_iff, Bool.not_eq_true', Bool.not_eq_false]

/-! ## Counters that are zero -/

theorem countLines_eq_zero_iff (names : List String) (cs : List Char) :
    Profile.countLines .substring names cs = 0 ↔
      ∀ line ∈ lines cs, ∀ name ∈ names, ¬ name.toList <:+: lower line := by
  rw [countLines_eq, List.countP_eq_zero]
  refine forall₂_congr fun line _ => ?_
  unfold mentionsAny
  rw [List.any_eq_true, not_exists]
  exact forall_congr' fun name => by rw [not_and, contains_iff_infix]

/-- Opcodes and registers are those of instructions, and the other counters speak for themselves. -/
theorem counts_eq_zero_iff (listing : String) :
    (∀ slot ∈ Slot.all, slot.count (Profile.ofListing .substring listing) = 0) ↔
      instructions listing.toList = [] ∧
        Profile.countLines .substring jumpMnemonics listing.toList = 0 ∧
        Profile.countLines .substring ["call"] listing.toList = 0 ∧
        ∀ pattern ∈ signaturePatterns, count pattern.toList listing.toList = 0 := by
  constructor
  · intro h
    refine ⟨List.length_eq_zero_iff.1 (h .instructions (by decide)), h .jumpLines (by decide),
      h .callLines (by decide), fun pattern hmem => ?_⟩
    obtain ⟨i, hi, rfl⟩ := Vector.getElem_of_mem hmem
    have hslot : ∀ i, Slot.signature i ∈ Slot.all := by decide
    have hcount := h _ (hslot ⟨i, hi⟩)
    rwa [Profile.count_signature_ofListing] at hcount
  · rintro ⟨hinstructions, hjumps, hcalls, hsignatures⟩ slot -
    cases slot with
    | instructions => exact List.length_eq_zero_iff.2 hinstructions
    | opcode name =>
      show ((Profile.ofListing .substring listing).opcodes.get? name).getD 0 = 0
      rw [Profile.opcodes_ofListing, getD_get?_tally, hinstructions]
      rfl
    | jumpLines => exact hjumps
    | callLines => exact hcalls
    | signature i =>
      rw [Profile.count_signature_ofListing]
      exact hsignatures _ (Vector.getElem_mem _)
    | register name =>
      show ((Profile.ofListing .substring listing).registers.get? name).getD 0 = 0
      rw [Profile.registers_ofListing, getD_get?_tally, hinstructions]
      rfl

/-- The fingerprint of a listing is zero exactly if every line is blank, a comment or a directive, no line
at all shows the mark of a jump or a call in lower case, and no signature stands anywhere. -/
theorem isZero_ofListing_iff (listing : String) :
    (Fingerprint.ofListing .substring listing).isZero = true ↔
      (∀ line ∈ lines listing.toList, isBlankText line = true ∨ IsMarked line) ∧
        (∀ line ∈ lines listing.toList, ∀ name ∈ jumpMnemonics ++ ["call"],
          ¬ name.toList <:+: lower line) ∧
        ∀ pattern ∈ signaturePatterns, ¬ pattern.toList <:+: listing.toList := by
  have hpatterns : ∀ pattern ∈ signaturePatterns, pattern.toList ≠ [] := by decide +kernel
  have hsignatures : (∀ pattern ∈ signaturePatterns, count pattern.toList listing.toList = 0) ↔
      ∀ pattern ∈ signaturePatterns, ¬ pattern.toList <:+: listing.toList :=
    forall₂_congr fun pattern hmem => count_eq_zero_iff (hpatterns pattern hmem)
  have hzero : (Fingerprint.ofListing .substring listing).isZero = true ↔ _ :=
    (Profile.isZero_fingerprint_iff _).trans (counts_eq_zero_iff listing)
  rw [hzero, instructions_eq_nil_iff, countLines_eq_zero_iff, countLines_eq_zero_iff, hsignatures]
  simp only [List.forall_mem_append, forall_and, and_assoc]

/-- A comment that speaks of a call. -/
example : (Fingerprint.ofListing .substring "# Call site\n").isZero = false := by decide +kernel

end Listing

end AsmOrigin
