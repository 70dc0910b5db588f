import AsmOrigin.Profile
import AsmOrigin.Proofs.Binary64.Floats

/-!
Bounds on the counters of a profile.

A text has at most as many lines as characters, so no counter of a text of fewer than 2⁶⁴ characters
passes 2⁶⁸, and every slot of its fingerprint is a finite number.
-/

namespace AsmOrigin

/-! ## Texts -/

namespace Text

theorem countFrom_le (needle : List Char) (skip : Nat) (cs : List Char) :
    countFrom needle skip cs ≤ cs.length := by
  induction cs generalizing skip with
  | nil => cases skip <;> exact le_rfl
  | cons c r ih =>
    cases skip with
    | succ skip => exact (ih skip).trans (Nat.le_succ _)
    | zero =>
      have h₁ := ih (needle.length - 1)
      have h₂ := ih 0
      unfold countFrom
      rw [List.length_cons]
      split <;> omega

theorem count_le (needle cs : List Char) : count needle cs ≤ cs.length := by
  unfold count
  split
  · exact Nat.zero_le _
  · exact countFrom_le needle 0 cs

theorem length_segments_le (cs : List Char) : (segments cs).length ≤ cs.length := by
  induction cs with
  | nil => exact le_rfl
  | cons c r ih =>
    unfold segments
    split
    · exact Nat.succ_le_succ ih
    · split
      · simp
      · rename_i h
        rw [h] at ih
        simp only [List.length_cons] at ih ⊢
        omega

theorem length_lines_le (cs : List Char) : (lines cs).length ≤ cs.length := by
  unfold lines
  rw [List.length_map]
  exact length_segments_le cs

end Text

/-! ## Matchers -/

/-- A matcher counts no more mentions in a text of fewer than 2⁶⁴ characters than 64 bits can hold. -/
def Matcher.WordSized (m : Matcher) : Prop :=
  ∀ haystack needle : List Char, haystack.length < 2 ^ 64 → m.occurrences haystack needle ≤ 2 ^ 64

theorem Matcher.wordSized_substring : substring.WordSized := fun haystack needle h =>
  (Text.count_le needle haystack).trans h.le

/-! ## Counters -/

theorem length_instructions_le (cs : List Char) : (Listing.instructions cs).length ≤ cs.length :=
  (List.length_filter_le _ _).trans (Text.length_lines_le cs)

theorem tally_getD_le (names : List String) (k : String) :
    ((tally names).get? k).getD 0 ≤ names.length := by
  rw [getD_get?_tally]
  exact List.count_le_length

theorem Profile.nodup_mentionedRegisters (m : Matcher) (line : List Char) :
    (mentionedRegisters m line).Nodup :=
  List.Nodup.filter _ (by decide +kernel)

/-- A line mentions a register at most once. -/
theorem Profile.count_mentionedRegisters_le (m : Matcher) (ls : List (List Char)) (name : String) :
    (ls.flatMap (mentionedRegisters m)).count name ≤ ls.length := by
  rw [List.count_flatMap]
  refine (List.sum_le_card_nsmul _ 1 fun n hn => ?_).trans (by simp)
  obtain ⟨line, -, rfl⟩ := List.mem_map.1 hn
  exact List.nodup_iff_count_le_one.1 (nodup_mentionedRegisters m line) name

theorem countLines_le_length_lines (m : Matcher) (names : List String) (cs : List Char) :
    Profile.countLines m names cs ≤ (Text.lines cs).length := by
  refine List.countP_le_length.trans ?_
  rw [List.length_map]

theorem countLines_le (m : Matcher) (names : List String) (cs : List Char) :
    Profile.countLines m names cs ≤ cs.length :=
  (countLines_le_length_lines m names cs).trans (Text.length_lines_le cs)

/-- No counter of a text passes the number of its lines, or what its matcher counts. -/
theorem count_ofListing_le {m : Matcher} (hm : m.WordSized) {listing : String}
    (h : listing.toList.length < 2 ^ 64) (slot : Slot) :
    slot.count (Profile.ofListing m listing) ≤ 2 ^ 68 := by
  have hinstr := length_instructions_le listing.toList
  cases slot with
  | instructions =>
    show (Listing.instructions listing.toList).length ≤ _
    omega
  | opcode name =>
    refine (tally_getD_le _ name).trans ((List.length_filterMap_le _ _).trans ?_)
    omega
  | jumpLines =>
    have := countLines_le m jumpMnemonics listing.toList
    exact this.trans (by omega)
  | callLines =>
    have := countLines_le m ["call"] listing.toList
    exact this.trans (by omega)
  | signature i =>
    rw [Profile.count_signature_ofListing]
    exact (hm _ _ h).trans (by norm_num)
  | register name =>
    have hcount := Profile.count_mentionedRegisters_le m (Listing.instructions listing.toList) name
    show ((Profile.ofListing m listing).registers.get? name).getD 0 ≤ _
    rw [Profile.registers_ofListing, getD_get?_tally]
    omega

open Binary64

theorem within_ofCount {n : Nat} {k : ℤ} (h : (n : ℝ) ≤ 2 ^ k) (hk : 0 ≤ k) (hk' : k < 1024) :
    Within 0 (twoPow k) (ofCount n) :=
  within_of_denotes_rounded (denotes_ofCount n) rounded_zero (rounded_twoPow (by omega) hk')
    (EReal.coe_nonneg.2 (Nat.cast_nonneg n)) (EReal.coe_le_coe_iff.2 h)

/-- Slots of texts of fewer than 2⁶⁴ characters. -/
theorem within_slots_ofListing {m : Matcher} (hm : m.WordSized) {listing : String}
    (h : listing.toList.length < 2 ^ 64) {x : Float}
    (hx : x ∈ (Fingerprint.ofListing m listing).slots) : Within 0 (twoPow 68) x := by
  rw [Fingerprint.ofListing, Profile.fingerprint_eq] at hx
  obtain ⟨slot, -, rfl⟩ := List.mem_map.1 hx
  refine within_ofCount ?_ (by norm_num) (by norm_num)
  exact_mod_cast count_ofListing_le hm h slot

end AsmOrigin
