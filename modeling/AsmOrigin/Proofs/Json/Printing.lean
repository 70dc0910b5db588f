import AsmOrigin.Json.Printer
import AsmOrigin.Proofs.Json.Reading

/-!
Printed values are documents, so the reader gives them back.

A string is printed with the escapes that the grammar asks for (`isString_quote`) and a count by its
digits (`Numeral.isText_ofNat`).  What is printed compactly is a text of the value wherever its numbers
are well formed and its strings have a content (`isDocument_print`).
-/

namespace AsmOrigin.Json

/-- Numbers are well formed, and no string is without a content. -/
inductive Printable : Json → Prop where
  | null : Printable null
  | bool (b : Bool) : Printable (bool b)
  | number {n : Numeral} (h : n.IsText n.text) : Printable (number n)
  | text (s : String) : Printable (text (some s))
  | list {vs : List Json} (h : ∀ v ∈ vs, Printable v) : Printable (list vs)
  | object {ms : List (Option String × Json)} (hkeys : ∀ m ∈ ms, m.1.isSome = true)
      (h : ∀ m ∈ ms, Printable m.2) : Printable (object ms)

/-! ## Strings -/

theorem isHexDigit_hexDigit {n : Nat} (h : n < 16) : IsHexDigit (hexDigit n) n := by
  have hall : ∀ n < 16, "0123456789abcdef".toList[n]? = some (hexDigit n) := by decide
  exact .inl (hall n h)

theorem spells_escape (c : Char) {cs ds : List Char} {us : List TextUnit} (hcs : Spells cs us)
    (hus : StandsFor us ds) :
    ∃ us', Spells (escape c ++ cs) us' ∧ StandsFor us' (c :: ds) := by
  have hletter : ∀ {e c : Char}, (e, c) ∈ letterEscapes →
      ∃ us', Spells (['\\', e] ++ cs) us' ∧ StandsFor us' (c :: ds) := fun he =>
    ⟨_, .letter he hcs, .char hus⟩
  unfold escape
  split_ifs with hquote hslash hn hr ht hb hf hcontrol
  · subst hquote
    exact hletter (by decide)
  · subst hslash
    exact hletter (by decide)
  · subst hn
    exact hletter (by decide)
  · subst hr
    exact hletter (by decide)
  · subst ht
    exact hletter (by decide)
  · subst hb
    exact hletter (by decide)
  · subst hf
    exact hletter (by decide)
  · have hunit : Spells ('\\' :: 'u' :: '0' :: '0' :: hexDigit (c.toNat / 16) ::
        hexDigit (c.toNat % 16) :: cs) _ :=
      .unit (isHexDigit_hexDigit (n := 0) (by omega)) (isHexDigit_hexDigit (n := 0) (by omega))
        (isHexDigit_hexDigit (by omega)) (isHexDigit_hexDigit (by omega)) hcs
    have hcode : 0 * 0x1000 + 0 * 0x100 + c.toNat / 16 * 0x10 + c.toNat % 16 = c.toNat := by omega
    rw [hcode] at hunit
    exact ⟨_, hunit, .unit (by omega) hus⟩
  · exact ⟨_, .plain (not_lt.1 hcontrol) hquote hslash hcs, .char hus⟩

theorem isString_quote (s : String) : IsString (some s) (quoteContent (some s)) := by
  have hbody : ∀ cs : List Char, ∃ us, Spells (cs.flatMap escape) us ∧ StandsFor us cs := by
    intro cs
    induction cs with
    | nil => exact ⟨[], .nil, .nil⟩
    | cons c r ih =>
      obtain ⟨us, hcs, hus⟩ := ih
      rw [List.flatMap_cons]
      exact spells_escape c hcs hus
  obtain ⟨us, hcs, hus⟩ := hbody s.toList
  exact ⟨_, us, rfl, hcs, .some hus⟩

/-! ## Counts -/

namespace Numeral

theorem head?_toDigits {n : Nat} (h : n ≠ 0) : (Nat.toDigits 10 n).head? ≠ some '0' := by
  induction n using Nat.strongRecOn with
  | ind n ih =>
    rw [Nat.toDigits_eq_if (by norm_num)]
    split
    · rename_i hlt
      have hall : ∀ n < 10, n ≠ 0 → [n.digitChar].head? ≠ some '0' := by decide
      exact hall n hlt h
    · rename_i hle
      rw [List.head?_append_of_ne_nil _ Nat.toDigits_ne_nil]
      exact ih (n / 10) (by omega) (by omega)

theorem isText_ofNat (n : Nat) : (ofNat n).IsText (ofNat n).text := by
  refine ⟨[], [], ?_, ⟨Nat.toDigits_ne_nil, fun c hc => ?_⟩, fun hzero => ?_, .none, .none⟩
  · rfl
  · exact Nat.isDigit_of_mem_toDigits (by norm_num) le_rfl hc
  · by_cases h : n = 0
    · subst h
      rfl
    · exact absurd hzero (head?_toDigits h)

/-- The digits of a count give it back, if it fits in 64 bits. -/
theorem toNat?_ofNat {n : Nat} (h : n < 2 ^ 64) : (ofNat n).toNat? = some n := by
  have hvalue : digitsValue (Decimal.digitsOf n) = n := Nat.ofDigitChars_ten_toDigits
  have hbound : n < countBound := h
  unfold toNat? ofNat
  simp [hvalue, hbound]

end Numeral

/-! ## Values -/

theorem areItems_joined {vs : List Json} (hne : vs ≠ []) (h : ∀ v ∈ vs, IsText v v.compact) :
    AreItems vs (joined [','] (compactItems vs)) := by
  induction vs with
  | nil => exact absurd rfl hne
  | cons v r ih =>
    obtain ⟨hv, hr⟩ := List.forall_mem_cons.1 h
    cases r with
    | nil => exact .one hv
    | cons w r =>
      have hrest := ih (List.cons_ne_nil w r) hr
      have hmore := AreItems.more hv blank_nil blank_nil hrest
      show AreItems _ (v.compact ++ [','] ++ joined [','] (compactItems (w :: r)))
      simpa using hmore

theorem areMembers_joined {ms : List (Option String × Json)} (hne : ms ≠ [])
    (hkeys : ∀ m ∈ ms, m.1.isSome = true) (h : ∀ m ∈ ms, IsText m.2 m.2.compact) :
    AreMembers ms (joined [','] (compactMembers ms)) := by
  induction ms with
  | nil => exact absurd rfl hne
  | cons m r ih =>
    obtain ⟨hm, hr⟩ := List.forall_mem_cons.1 h
    obtain ⟨hkey, hrkeys⟩ := List.forall_mem_cons.1 hkeys
    obtain ⟨key, v⟩ := m
    obtain ⟨k, rfl⟩ := Option.isSome_iff_exists.1 hkey
    have hmember : IsMember (some k, v) (quoteContent (some k) ++ ':' :: v.compact) := by
      simpa using IsMember.mk (isString_quote k) blank_nil blank_nil hm
    cases r with
    | nil => exact .one hmember
    | cons w r =>
      have hmore := AreMembers.more hmember blank_nil blank_nil (ih (List.cons_ne_nil w r) hrkeys hr)
      show AreMembers _ (_ ++ [','] ++ joined [','] (compactMembers (w :: r)))
      simpa using hmore

/-- What is printed compactly is a text of the value. -/
theorem isText_compact {v : Json} (h : Printable v) : IsText v v.compact := by
  induction h with
  | null => exact .null
  | bool b =>
    cases b
    · exact .false
    · exact .true
  | number h => exact .number h
  | text s => exact .text (isString_quote s)
  | @list vs _ ih =>
    rw [compact]
    by_cases hvs : vs = []
    · subst hvs
      exact .emptyList blank_nil
    · simpa using IsText.list blank_nil (areItems_joined hvs ih) blank_nil
  | @object ms hkeys _ ih =>
    rw [compact]
    by_cases hms : ms = []
    · subst hms
      exact .emptyObject blank_nil
    · simpa using IsText.object blank_nil (areMembers_joined hms hkeys ih) blank_nil

theorem isDocument_print {v : Json} (h : Printable v) : IsDocument v v.print := by
  refine ⟨[], v.compact, [], ?_, blank_nil, isText_compact h, blank_nil⟩
  simp [print]

/-- A printed value is read as it was. -/
theorem parse?_print {v : Json} (h : Printable v) : parse? v.print = some v :=
  parse?_of_isDocument (isDocument_print h)

end AsmOrigin.Json
