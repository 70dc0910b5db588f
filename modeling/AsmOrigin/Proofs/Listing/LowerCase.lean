import AsmOrigin.Text.Blank
import AsmOrigin.Text.Lower
import Mathlib.Tactic

/-!
Lower case of a part and of the whole.

Only `Σ` looks at what stands around it.  A part of a text without a `Σ` is therefore found in the lower
case of the whole as it is in its own (`lower_infix_of_ascii`).  A `Σ` in turn only asks whether letters
stand next to it, and a letter of ASCII is one in either case, so that letters of ASCII may change their
case without any effect on the others (`lower_map_toLower`).
-/

namespace AsmOrigin.Text

/-! ## Parts of a text -/

theorem lowerAfter_append_of_notMem {w : List Char} (h : 'Σ' ∉ w) (before rest : List Char) :
    lowerAfter before (w ++ rest) =
      w.flatMap lowerChar ++ lowerAfter (w.reverse ++ before) rest := by
  induction w generalizing before with
  | nil => rfl
  | cons c r ih =>
    rw [List.mem_cons, not_or] at h
    rw [List.cons_append, lowerAfter, if_neg (Ne.symm h.1), ih h.2, List.flatMap_cons,
      List.append_assoc, List.reverse_cons, List.append_assoc, List.singleton_append]

theorem lower_of_notMem {w : List Char} (h : 'Σ' ∉ w) : lower w = w.flatMap lowerChar := by
  have happend := lowerAfter_append_of_notMem h [] []
  rw [List.append_nil, lowerAfter, List.append_nil] at happend
  exact happend

/-- What follows a part is read with that part before it. -/
theorem lowerAfter_suffix (before part rest : List Char) :
    lowerAfter (part.reverse ++ before) rest <:+ lowerAfter before (part ++ rest) := by
  induction part generalizing before with
  | nil => exact List.suffix_rfl
  | cons c r ih =>
    rw [List.reverse_cons, List.append_assoc, List.singleton_append, List.cons_append]
    exact (ih (c :: before)).trans (List.suffix_append _ _)

theorem exists_sigma_of_mem {w : List Char} (h : 'Σ' ∈ w) (before : List Char) :
    ∃ c ∈ lowerAfter before w, 0x80 ≤ c.toNat := by
  induction w generalizing before with
  | nil => cases h
  | cons c r ih =>
    by_cases hc : c = 'Σ'
    · subst hc
      refine ⟨_, List.mem_append_left _ (List.mem_singleton_self _), ?_⟩
      split <;> decide
    · obtain ⟨d, hd, hbig⟩ := ih ((List.mem_cons.1 h).resolve_left (Ne.symm hc)) (c :: before)
      exact ⟨d, List.mem_append_right _ hd, hbig⟩

/-- A word whose lower case is plain ASCII has it also as a part of a text. -/
theorem lower_infix_of_ascii {w : List Char} (hw : ∀ c ∈ lower w, c.toNat < 0x80) {cs : List Char}
    (h : w <:+: cs) : lower w <:+: lower cs := by
  have hsigma : 'Σ' ∉ w := by
    intro hmem
    obtain ⟨c, hc, hbig⟩ := exists_sigma_of_mem hmem []
    exact absurd (hw c hc) (not_lt.2 hbig)
  obtain ⟨front, rest, rfl⟩ := h
  rw [List.append_assoc]
  refine List.IsInfix.trans ?_ (lowerAfter_suffix [] front (w ++ rest)).isInfix
  rw [lowerAfter_append_of_notMem hsigma, lower_of_notMem hsigma]
  exact (List.prefix_append _ _).isInfix

/-! ## A carriage return behind a text -/

theorem nextIsCased_concat {c : Char} (hc : isCased c = false) (cs : List Char) :
    nextIsCased (cs ++ [c]) = nextIsCased cs := by
  unfold nextIsCased
  rw [List.dropWhile_append]
  cases cs.dropWhile isCaseIgnorable with
  | nil => cases h : isCaseIgnorable c <;> simp [h, hc]
  | cons d r => rfl

theorem lowerAfter_concat_return (before cs : List Char) :
    lowerAfter before (cs ++ ['\r']) = lowerAfter before cs ++ ['\r'] := by
  induction cs generalizing before with
  | nil => rfl
  | cons c r ih =>
    -- a sigma is final before a carriage return if it is at the end of the text
    rw [List.cons_append, lowerAfter, lowerAfter, ih, nextIsCased_concat (by decide),
      List.append_assoc]

theorem lower_concat_return (cs : List Char) : lower (cs ++ ['\r']) = lower cs ++ ['\r'] :=
  lowerAfter_concat_return [] cs

/-! ## Case of ASCII letters -/

/-- `Char.toLower` touches no character beyond ASCII, so it is enough to look at those of ASCII. -/
theorem apply_toLower {α : Type} {f : Char → α}
    (hf : ∀ n < 0x80, f (Char.ofNat n).toLower = f (Char.ofNat n)) (c : Char) :
    f c.toLower = f c := by
  by_cases hc : c.toNat < 0x80
  · have h := hf c.toNat hc
    rwa [Char.ofNat_toNat] at h
  · have hkeep : c.toLower = c := by
      unfold Char.toLower
      rw [dif_neg]
      rintro ⟨-, hle⟩
      have hle : c.toNat ≤ 'Z'.toNat := hle
      have hz : 'Z'.toNat = 90 := rfl
      omega
    rw [hkeep]

theorem isCased_toLower (c : Char) : isCased c.toLower = isCased c := apply_toLower (by decide) c

theorem isCaseIgnorable_toLower (c : Char) : isCaseIgnorable c.toLower = isCaseIgnorable c :=
  apply_toLower (by decide) c

theorem isBlank_toLower (c : Char) : isBlank c.toLower = isBlank c := apply_toLower (by decide) c

theorem lowerChar_toLower (c : Char) : lowerChar c.toLower = lowerChar c :=
  apply_toLower (by decide) c

theorem nextIsCased_map_toLower (cs : List Char) :
    nextIsCased (cs.map Char.toLower) = nextIsCased cs := by
  unfold nextIsCased
  rw [List.dropWhile_map, show isCaseIgnorable ∘ Char.toLower = isCaseIgnorable from
    funext isCaseIgnorable_toLower]
  cases cs.dropWhile isCaseIgnorable with
  | nil => rfl
  | cons c r => exact isCased_toLower c

/-- `Char.toLower` makes `d` of no other character. -/
theorem toLower_eq_iff {d : Char}
    (hd : ∀ n < 0x80, decide ((Char.ofNat n).toLower = d) = decide (Char.ofNat n = d)) (c : Char) :
    c.toLower = d ↔ c = d :=
  decide_eq_decide.1 (apply_toLower (f := fun c => decide (c = d)) hd c)

theorem lowerAfter_map_toLower (before cs : List Char) :
    lowerAfter (before.map Char.toLower) (cs.map Char.toLower) = lowerAfter before cs := by
  induction cs generalizing before with
  | nil => rfl
  | cons c r ih =>
    have hsigma : c.toLower = 'Σ' ↔ c = 'Σ' := toLower_eq_iff (by decide) c
    rw [List.map_cons, lowerAfter, lowerAfter, nextIsCased_map_toLower, nextIsCased_map_toLower,
      lowerChar_toLower, ← List.map_cons, ih]
    simp only [hsigma]

theorem lower_map_toLower (cs : List Char) : lower (cs.map Char.toLower) = lower cs :=
  lowerAfter_map_toLower [] cs

end AsmOrigin.Text
