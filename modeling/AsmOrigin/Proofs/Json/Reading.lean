import AsmOrigin.Proofs.Json.Grammar
import AsmOrigin.Proofs.Manifest.JsonTexts

/-!
The reader understands every text of the grammar.

Strings are read unit by unit (`readText?_append`) and numbers up to the first character that cannot
belong to them (`Numeral.read?_append`).  A value is read whatever follows it, as long as that starts
with a blank or a delimiter, by induction on the fuel, of which the length of the text is enough
(`readValue?_append`).  Every document of a value is thus read as that value (`parse?_of_isDocument`).
-/

namespace AsmOrigin.Json

variable {cs r : List Char}

/-! ## Blanks -/

theorem skipSpace_append {a : List Char} (ha : Blank a) (r : List Char) :
    skipSpace (a ++ r) = skipSpace r := by
  induction a with
  | nil => rfl
  | cons c a ih =>
    have hc : isSpace c = true := by
      rcases ha c List.mem_cons_self with rfl | rfl | rfl | rfl <;> rfl
    rw [List.cons_append, skipSpace, List.dropWhile_cons_of_pos hc]
    exact ih fun d hd => ha d (List.mem_cons_of_mem c hd)

theorem skipSpace_of_not {c : Char} (hc : isSpace c = false) (r : List Char) :
    skipSpace (c :: r) = c :: r :=
  List.dropWhile_cons_of_neg (by rw [hc]; decide)

/-- Blanks are skipped up to the character behind them. -/
theorem skipSpace_blank {b : List Char} (hb : Blank b) {c : Char} (hc : isSpace c = false)
    (r : List Char) : skipSpace (b ++ c :: r) = c :: r :=
  (skipSpace_append hb _).trans (skipSpace_of_not hc r)

/-! ## Strings -/

theorem hexValue?_of_isHexDigit {c : Char} {n : Nat} (h : IsHexDigit c n) :
    hexValue? c = some n ∧ n < 16 := by
  have hn : n < 16 := by
    rcases h with h | h <;> exact (List.getElem?_eq_some_iff.1 h).1
  refine ⟨?_, hn⟩
  have hall : ∀ n < 16, hexValue? ("0123456789abcdef".toList.getD n '0') = some n ∧
      hexValue? ("0123456789ABCDEF".toList.getD n '0') = some n := by decide
  rcases h with h | h
  · have := (hall n hn).1
    rwa [List.getD_eq_getElem?_getD, h, Option.getD_some] at this
  · have := (hall n hn).2
    rwa [List.getD_eq_getElem?_getD, h, Option.getD_some] at this

theorem textUnits_plain {c : Char} (hc : 0x20 ≤ c.toNat) (hquote : c ≠ '"') (hslash : c ≠ '\\')
    {us : List TextUnit} {t : List Char} (h : textUnits r = some (us, t)) :
    textUnits (c :: r) = some (.char c :: us, t) := by
  have hnot : ¬ (c = '\\' ∨ c.toNat < 0x20) := by
    rintro (rfl | hlt)
    · exact hslash rfl
    · omega
  rw [textUnits.eq_5 c r hquote (fun _ _ _ _ _ h _ => hslash h) (fun _ _ h _ => hslash h), if_neg hnot,
    h]

theorem textUnits_letter {e c : Char} (he : (e, c) ∈ letterEscapes) {us : List TextUnit}
    {t : List Char} (h : textUnits r = some (us, t)) :
    textUnits ('\\' :: e :: r) = some (.char c :: us, t) := by
  have hall : ∀ p ∈ letterEscapes, p.1 ≠ 'u' ∧ shortEscape? p.1 = some p.2 := by decide
  obtain ⟨hu, hshort⟩ := hall (e, c) he
  have hnot : ∀ a b c d t, e = 'u' → r = a :: b :: c :: d :: t → False := fun _ _ _ _ _ he _ => hu he
  rw [textUnits.eq_4 e r hnot, hshort, h]

theorem textUnits_unit {a b c d : Char} {n : Nat} (hn : unit? a b c d = some n)
    {us : List TextUnit} {t : List Char} (h : textUnits r = some (us, t)) :
    textUnits ('\\' :: 'u' :: a :: b :: c :: d :: r) = some (.unit n :: us, t) := by
  rw [textUnits, hn, h]

theorem textUnits_of_spells {body : List Char} {us : List TextUnit} (h : Spells body us)
    (r : List Char) : textUnits (body ++ '"' :: r) = some (us, r) := by
  induction h with
  | nil => rfl
  | plain hc hquote hslash _ ih => exact textUnits_plain hc hquote hslash ih
  | letter he _ ih => exact textUnits_letter he ih
  | unit ha hb hc hd _ ih =>
    refine textUnits_unit ?_ ih
    unfold unit?
    rw [(hexValue?_of_isHexDigit ha).1, (hexValue?_of_isHexDigit hb).1, (hexValue?_of_isHexDigit hc).1,
      (hexValue?_of_isHexDigit hd).1]
    rfl

/-- The code of a character is no half of a surrogate pair. -/
theorem not_surrogate (c : Char) : isLeading c.toNat = false ∧ isTrailing c.toNat = false := by
  have h := c.valid
  have hval : c.toNat = c.val.toNat := rfl
  unfold isLeading isTrailing
  rcases h with h | ⟨h, -⟩
  · constructor <;> simp <;> omega
  · constructor <;> simp <;> omega

theorem characters?_unit {n : Nat} (hl : isLeading n = false) (ht : isTrailing n = false)
    (us : List TextUnit) :
    characters? (.unit n :: us) = (characters? us).map (Char.ofNat n :: ·) := by
  cases us with
  | nil => simp [characters?, hl, ht]
  | cons u us => cases u <;> simp [characters?, hl, ht]

theorem characters?_pair {n m : Nat} (hl : isLeading n = true) (ht : isTrailing m = true)
    (us : List TextUnit) : characters? (.unit n :: .unit m :: us) = (characters? us).map
      (Char.ofNat (0x10000 + (n - 0xD800) * 0x400 + (m - 0xDC00)) :: ·) := by
  rw [characters?, if_pos hl, if_pos ht]

theorem characters?_of_standsFor {us : List TextUnit} (h : StandsFor us cs) :
    characters? us = some cs := by
  induction h with
  | nil => rfl
  | char _ ih => rw [characters?, ih, Option.map_some]
  | @unit c us cs hc _ ih =>
    obtain ⟨hl, ht⟩ := not_surrogate c
    rw [characters?_unit hl ht, ih, Option.map_some, Char.ofNat_toNat]
  | @pair c us cs hc _ ih =>
    have hlt : c.toNat < 0x110000 := by
      have h := c.valid
      have hval : c.toNat = c.val.toNat := rfl
      rcases h with h | ⟨-, h⟩ <;> omega
    have hl : isLeading (0xD800 + (c.toNat - 0x10000) / 0x400) = true := by
      simp only [isLeading, Bool.and_eq_true, decide_eq_true_eq]
      omega
    have ht : isTrailing (0xDC00 + (c.toNat - 0x10000) % 0x400) = true := by
      simp only [isTrailing, Bool.and_eq_true, decide_eq_true_eq]
      omega
    rw [characters?_pair hl ht, ih, Option.map_some]
    have hcode : 0x10000 + (0xD800 + (c.toNat - 0x10000) / 0x400 - 0xD800) * 0x400 +
        (0xDC00 + (c.toNat - 0x10000) % 0x400 - 0xDC00) = c.toNat := by omega
    rw [hcode, Char.ofNat_toNat]

theorem toNat_ofNat {n : Nat} (h : n.isValidChar) : (Char.ofNat n).toNat = n := by
  unfold Char.ofNat
  rw [dif_pos h]
  rfl

theorem standsFor_unit {n : Nat} {us : List TextUnit} (hn : n < 0x10000) (hl : isLeading n = false)
    (ht : isTrailing n = false) (h : StandsFor us cs) :
    StandsFor (.unit n :: us) (Char.ofNat n :: cs) := by
  have hcode : (Char.ofNat n).toNat = n := toNat_ofNat (by
    simp only [isLeading, isTrailing, Bool.and_eq_false_iff, decide_eq_false_iff_not] at hl ht
    unfold Nat.isValidChar
    omega)
  have hunit := StandsFor.unit (c := Char.ofNat n) (by rwa [hcode]) h
  rwa [hcode] at hunit

theorem standsFor_pair {n m : Nat} {us : List TextUnit} (hl : isLeading n = true)
    (ht : isTrailing m = true) (h : StandsFor us cs) : StandsFor (.unit n :: .unit m :: us)
      (Char.ofNat (0x10000 + (n - 0xD800) * 0x400 + (m - 0xDC00)) :: cs) := by
  simp only [isLeading, isTrailing, Bool.and_eq_true, decide_eq_true_eq] at hl ht
  have hcode : (Char.ofNat (0x10000 + (n - 0xD800) * 0x400 + (m - 0xDC00))).toNat =
      0x10000 + (n - 0xD800) * 0x400 + (m - 0xDC00) := toNat_ofNat (by
    unfold Nat.isValidChar
    omega)
  have hpair := StandsFor.pair
    (c := Char.ofNat (0x10000 + (n - 0xD800) * 0x400 + (m - 0xDC00))) (by rw [hcode]; omega) h
  rw [hcode] at hpair
  have hn : 0xD800 + (0x10000 + (n - 0xD800) * 0x400 + (m - 0xDC00) - 0x10000) / 0x400 = n := by omega
  have hm : 0xDC00 + (0x10000 + (n - 0xD800) * 0x400 + (m - 0xDC00) - 0x10000) % 0x400 = m := by omega
  rwa [hn, hm] at hpair

/-- What is read stands for the units, if these have 16 bits. -/
theorem standsFor_of_characters? {us : List TextUnit} (hus : ∀ n, .unit n ∈ us → n < 0x10000)
    (h : characters? us = some cs) : StandsFor us cs := by
  fun_induction characters? us generalizing cs with
  | case1 =>
    cases h
    exact .nil
  | case2 c r ih =>
    obtain ⟨ds, hds, rfl⟩ := Option.map_eq_some_iff.1 h
    exact .char (ih (fun n hn => hus n (List.mem_cons_of_mem _ hn)) hds)
  | case3 n m r hl ht ih =>
    obtain ⟨ds, hds, rfl⟩ := Option.map_eq_some_iff.1 h
    exact standsFor_pair hl ht (ih (fun k hk => hus k (by simp [hk])) hds)
  | case4 => cases h
  | case5 => cases h
  | case6 n m r hl ht ih =>
    obtain ⟨ds, hds, rfl⟩ := Option.map_eq_some_iff.1 h
    exact standsFor_unit (hus n List.mem_cons_self) (Bool.eq_false_iff.2 hl) (Bool.eq_false_iff.2 ht)
      (ih (fun k hk => hus k (List.mem_cons_of_mem _ hk)) hds)
  | case7 => cases h
  | case8 n r _ hnot ih =>
    obtain ⟨ds, hds, rfl⟩ := Option.map_eq_some_iff.1 h
    rw [Bool.not_eq_true, Bool.or_eq_false_iff] at hnot
    exact standsFor_unit (hus n List.mem_cons_self) hnot.1 hnot.2
      (ih (fun k hk => hus k (List.mem_cons_of_mem _ hk)) hds)

theorem lt_of_spells {body : List Char} {us : List TextUnit} (h : Spells body us) :
    ∀ n, .unit n ∈ us → n < 0x10000 := by
  induction h with
  | nil => exact fun n hn => absurd hn List.not_mem_nil
  | plain _ _ _ _ ih =>
    intro n hn
    rcases List.mem_cons.1 hn with heq | hn
    · cases heq
    · exact ih n hn
  | letter _ _ ih =>
    intro n hn
    rcases List.mem_cons.1 hn with heq | hn
    · cases heq
    · exact ih n hn
  | unit ha hb hc hd _ ih =>
    have ha := (hexValue?_of_isHexDigit ha).2
    have hb := (hexValue?_of_isHexDigit hb).2
    have hc := (hexValue?_of_isHexDigit hc).2
    have hd := (hexValue?_of_isHexDigit hd).2
    intro n hn
    rcases List.mem_cons.1 hn with heq | hn
    · cases heq
      omega
    · exact ih n hn

/-- A string is read up to its closing quote. -/
theorem readText?_append {content : Option String} (h : IsString content cs) (r : List Char) :
    ∃ body, cs = '"' :: body ∧ readText? (body ++ r) = some (content, r) := by
  obtain ⟨body, us, rfl, hbody, hcontent⟩ := h
  refine ⟨body ++ ['"'], rfl, ?_⟩
  have hunits := textUnits_of_spells hbody r
  have hchars : (characters? us).map String.ofList = content := by
    cases hcontent with
    | some h => rw [characters?_of_standsFor h, Option.map_some, String.ofList_toList]
    | none h =>
      cases hchars : characters? us with
      | none => rfl
      | some ds => exact absurd (standsFor_of_characters? (lt_of_spells hbody) hchars) (h ds)
  unfold readText?
  rw [List.append_assoc, List.singleton_append, hunits, ← hchars]
  rfl

/-! ## Numbers -/

/-- What follows a number ends it. -/
def Ends (r : List Char) : Prop :=
  ∀ c, r.head? = some c → isSpace c = true ∨ c = ',' ∨ c = ']' ∨ c = '\x7d'

namespace Numeral

/-- The text does not start with such a character. -/
def NotAhead (p : Char → Bool) (r : List Char) : Prop := ∀ c, r.head? = some c → p c = false

/-- What continues the digits, the decimals or the power of a number. -/
def continues (c : Char) : Bool := isDigit c || c == '.' || c == 'e' || c == 'E'

theorem notAhead_of_ends (h : Ends r) : NotAhead continues r := by
  intro c hc
  rcases h c hc with hspace | rfl | rfl | rfl
  · simp only [isSpace, Bool.or_eq_true, beq_iff_eq] at hspace
    obtain ((rfl | rfl) | rfl) | rfl := hspace <;> rfl
  · rfl
  · rfl
  · rfl

theorem notAhead_cons {p : Char → Bool} {c : Char} (hc : p c = false) (r : List Char) :
    NotAhead p (c :: r) := by
  intro d hd
  obtain rfl : c = d := Option.some.inj hd
  exact hc

theorem NotAhead.mono {p q : Char → Bool} (h : NotAhead q r) (hpq : ∀ c, p c = true → q c = true) :
    NotAhead p r := fun c hc => Bool.eq_false_iff.2 fun hp => by
  have hq := h c hc
  rw [hpq c hp] at hq
  cases hq

theorem digits?_append {ds : List Char} (hds : Digits ds) (hr : NotAhead isDigit r) :
    digits? (ds ++ r) = some (ds, r) := by
  obtain ⟨hne, hall⟩ := hds
  have hall : ∀ c ∈ ds, isDigit c = true := hall
  have hspan : (ds ++ r).span isDigit = (ds, r) := by
    rw [List.span_eq_takeWhile_dropWhile, List.takeWhile_append_of_pos hall,
      List.dropWhile_append_of_pos hall]
    cases r with
    | nil => rw [List.takeWhile_nil, List.dropWhile_nil, List.append_nil]
    | cons c r =>
      have hc : ¬ isDigit c = true := Bool.eq_false_iff.1 (hr c rfl)
      rw [List.takeWhile_cons_of_neg hc, List.dropWhile_cons_of_neg hc, List.append_nil]
  unfold digits?
  rw [hspan]
  cases ds with
  | nil => exact absurd rfl hne
  | cons d ds => rfl

theorem whole?_append {ds : List Char} (hds : Digits ds)
    (hzero : ds.head? = some '0' → ds = ['0']) (hr : NotAhead isDigit r) :
    whole? (ds ++ r) = some (ds, r) := by
  obtain ⟨d, ds, rfl⟩ := List.exists_cons_of_ne_nil hds.1
  by_cases hd : d = '0'
  · subst hd
    obtain rfl : ds = [] := (List.cons.inj (hzero rfl)).2
    rfl
  · rw [← digits?_append hds hr]
    exact whole?.eq_2 _ fun t ht => hd (List.cons.inj ht).1

theorem decimals?_append {ds text : List Char} (h : DecimalsText ds text)
    (hr : NotAhead (fun c => isDigit c || c == '.') r) : decimals? (text ++ r) = some (ds, r) := by
  cases h with
  | none =>
    refine decimals?.eq_2 _ fun t ht => ?_
    have hdot := hr '.' (by rw [show r = '.' :: t from ht]; rfl)
    cases hdot
  | some hds => exact digits?_append hds (hr.mono fun c hc => by simp [hc])

theorem power?_append {p : Option (Bool × List Char)} {text : List Char} (h : PowerText p text)
    (hr : NotAhead continues r) : power? (text ++ r) = some (p, r) := by
  have hdigit : NotAhead isDigit r := hr.mono fun c hc => by simp [continues, hc]
  cases h with
  | none =>
    cases r with
    | nil => rfl
    | cons c r =>
      have hc : ¬ (c = 'e' ∨ c = 'E') := by
        rintro (rfl | rfl) <;> cases hr _ rfl
      unfold power?
      exact if_neg hc
  | below he hds =>
    show (if _ then _ else _) = _
    rw [if_pos he]
    exact congrArg (Option.map _) (digits?_append hds hdigit)
  | @above e sign ds he hsign hds =>
    have hread := digits?_append hds hdigit
    unfold power?
    rcases hsign with rfl | rfl
    · obtain ⟨d, ds, rfl⟩ := List.exists_cons_of_ne_nil hds.1
      have hd := hds.2 d List.mem_cons_self
      show (if _ then _ else _) = _
      rw [if_pos he]
      split
      · rename_i heq
        obtain rfl : d = '-' := (List.cons.inj heq).1
        cases hd
      · rename_i heq
        obtain rfl : d = '+' := (List.cons.inj heq).1
        cases hd
      · exact congrArg (Option.map _) hread
    · show (if _ then _ else _) = _
      rw [if_pos he]
      exact congrArg (Option.map _) hread

theorem notAhead_power {text : List Char} {p : Option (Bool × List Char)} (h : PowerText p text)
    (hr : NotAhead continues r) : NotAhead (fun c => isDigit c || c == '.') (text ++ r) := by
  cases h with
  | none =>
    refine hr.mono fun c hc => ?_
    unfold continues
    rw [hc]
    rfl
  | below he => rcases he with rfl | rfl <;> exact notAhead_cons rfl _
  | above he => rcases he with rfl | rfl <;> exact notAhead_cons rfl _

theorem notAhead_decimals {ds text : List Char} (h : DecimalsText ds text)
    (hr : NotAhead (fun c => isDigit c || c == '.') r) : NotAhead isDigit (text ++ r) := by
  cases h with
  | some => exact notAhead_cons rfl _
  | none => exact hr.mono fun c hc => by simp [hc]

/-- A number is read up to what ends it. -/
theorem read?_append {n : Numeral} (h : n.IsText cs) (hr : Ends r) :
    read? (cs ++ r) = some (n, r) := by
  obtain ⟨decimals, power, rfl, hwhole, hzero, hdecimals, hpower⟩ := h
  obtain ⟨negative, whole, ds, p⟩ := n
  have hr := notAhead_of_ends hr
  have hpower' := notAhead_power hpower hr
  have hw := whole?_append hwhole hzero (notAhead_decimals hdecimals hpower')
  have hd := decimals?_append hdecimals hpower'
  have hp := power?_append hpower hr
  cases negative with
  | true => simp [read?, hw, hd, hp]
  | false =>
    obtain ⟨c, ds, rfl⟩ := List.exists_cons_of_ne_nil hwhole.1
    have hc : c ≠ '-' := by
      rintro rfl
      cases hwhole.2 _ List.mem_cons_self
    rw [List.cons_append] at hw
    simp [read?, hc, hw, hd, hp]

end Numeral

/-! ## Values -/

theorem ends_cons {c : Char} (hc : isSpace c = true ∨ c = ',' ∨ c = ']' ∨ c = '\x7d')
    (r : List Char) : Ends (c :: r) := by
  intro d hd
  obtain rfl : c = d := Option.some.inj hd
  exact hc

theorem ends_blank {b : List Char} (hb : Blank b) (hr : Ends r) : Ends (b ++ r) := by
  cases b with
  | nil => exact hr
  | cons c b =>
    refine ends_cons (.inl ?_) _
    rcases hb c List.mem_cons_self with rfl | rfl | rfl | rfl <;> rfl

theorem isSpace_of_number {c : Char} (hc : c = '-' ∨ c.isDigit = true) : isSpace c = false := by
  refine Bool.eq_false_iff.2 fun hspace => ?_
  simp only [isSpace, Bool.or_eq_true, beq_iff_eq] at hspace
  obtain ((rfl | rfl) | rfl) | rfl := hspace <;> revert hc <;> decide

theorem exists_cons_of_isNumber {n : Numeral} (h : n.IsText cs) :
    ∃ c t, cs = c :: t ∧ (c = '-' ∨ c.isDigit = true) := by
  obtain ⟨decimals, power, rfl, hwhole, -⟩ := h
  cases n.negative with
  | true => exact ⟨'-', _, rfl, .inl rfl⟩
  | false =>
    obtain ⟨d, ds, hd⟩ := List.exists_cons_of_ne_nil hwhole.1
    rw [hd]
    exact ⟨d, _, rfl, .inr (hwhole.2 d (hd ▸ List.mem_cons_self))⟩

/-- The first character of a value is no blank and no closing bracket. -/
theorem exists_cons_of_isText {v : Json} (h : IsText v cs) :
    ∃ c t, cs = c :: t ∧ isSpace c = false ∧ c ≠ ']' := by
  cases h with
  | number h =>
    obtain ⟨c, t, rfl, hc⟩ := exists_cons_of_isNumber h
    refine ⟨c, t, rfl, isSpace_of_number hc, ?_⟩
    rintro rfl
    revert hc
    decide
  | text h =>
    obtain ⟨body, us, rfl, -⟩ := h
    exact ⟨'"', _, rfl, rfl, by decide⟩
  | _ => exact ⟨_, _, rfl, rfl, by decide⟩

theorem exists_cons_of_areItems {vs : List Json} (h : AreItems vs cs) :
    ∃ c t, cs = c :: t ∧ isSpace c = false ∧ c ≠ ']' := by
  cases h with
  | one h => exact exists_cons_of_isText h
  | more h =>
    obtain ⟨c, t, rfl, hc⟩ := exists_cons_of_isText h
    exact ⟨c, _, rfl, hc⟩

theorem exists_cons_of_areMembers {ms : List (Option String × Json)} (h : AreMembers ms cs) :
    ∃ c t, cs = c :: t ∧ isSpace c = false ∧ c ≠ '\x7d' := by
  have hmember : ∀ {m cs}, IsMember m cs → ∃ t, cs = '"' :: t := by
    rintro m cs ⟨⟨body, us, rfl, -⟩, -⟩
    exact ⟨_, rfl⟩
  cases h with
  | one h =>
    obtain ⟨t, rfl⟩ := hmember h
    exact ⟨'"', _, rfl, rfl, by decide⟩
  | more h =>
    obtain ⟨t, rfl⟩ := hmember h
    exact ⟨'"', _, rfl, rfl, by decide⟩

/-- Between brackets, what is read begins behind the blanks, and it is not the closing bracket. -/
theorem skipSpace_inside {a : List Char} (ha : Blank a) {close : Char}
    (h : ∃ c t, cs = c :: t ∧ isSpace c = false ∧ c ≠ close) (b r : List Char) :
    skipSpace (a ++ (cs ++ (b ++ [close])) ++ r) = cs ++ (b ++ close :: r) ∧
      ∀ t, cs ++ (b ++ close :: r) ≠ close :: t := by
  obtain ⟨c, t, rfl, hc, hne⟩ := h
  refine ⟨?_, fun _ heq => hne (List.cons.inj heq).1⟩
  rw [List.append_assoc, skipSpace_append ha, List.cons_append, List.cons_append,
    skipSpace_of_not hc]
  simp

theorem length_inside_lt {a cs b : List Char} {opening close : Char} {fuel : Nat}
    (h : (opening :: (a ++ (cs ++ (b ++ [close])))).length < fuel + 1) : cs.length + 1 < fuel := by
  simp only [List.length_cons, List.length_append, List.length_nil] at h
  omega

theorem readValue?_blank {a : List Char} (ha : Blank a) (fuel : Nat) (r : List Char) :
    readValue? fuel (a ++ r) = readValue? fuel r := by
  cases fuel with
  | zero => rfl
  | succ fuel => rw [readValue?, readValue?, skipSpace_append ha]

theorem readItems?_blank {a : List Char} (ha : Blank a) (fuel : Nat) (r : List Char) :
    readItems? fuel (a ++ r) = readItems? fuel r := by
  cases fuel with
  | zero => rfl
  | succ fuel => rw [readItems?, readItems?, readValue?_blank ha]

theorem readMembers?_blank {a : List Char} (ha : Blank a) (fuel : Nat) (r : List Char) :
    readMembers? fuel (a ++ r) = readMembers? fuel r := by
  cases fuel with
  | zero => rfl
  | succ fuel => rw [readMembers?, readMembers?, skipSpace_append ha]

/-- What starts like a number is read as one. -/
theorem readValue?_number {c : Char} (hc : c = '-' ∨ c.isDigit = true) (fuel : Nat) (r : List Char) :
    readValue? (fuel + 1) (c :: r) =
      (Numeral.read? (c :: r)).map fun (n, t) => (number n, t) := by
  have hnot : ∀ d : Char, ¬ (d = '-' ∨ d.isDigit = true) → c ≠ d := fun d hd h => hd (h ▸ hc)
  rw [readValue?, skipSpace_of_not (isSpace_of_number hc)]
  split
  all_goals first
    | rfl
    | rename_i heq
      exact absurd (List.cons.inj heq).1 (hnot _ (by decide))

theorem readValue?_list {fuel : Nat} {u : List Char} (hskip : skipSpace r = u)
    (hu : ∀ t, u ≠ ']' :: t) :
    readValue? (fuel + 1) ('[' :: r) = (readItems? fuel u).map fun (vs, t) => (list vs, t) := by
  rw [readValue?, skipSpace_of_not rfl]
  simp only [hskip]

theorem readValue?_object {fuel : Nat} {u : List Char} (hskip : skipSpace r = u)
    (hu : ∀ t, u ≠ '\x7d' :: t) :
    readValue? (fuel + 1) ('\x7b' :: r) = (readMembers? fuel u).map fun (ms, t) => (object ms, t) := by
  rw [readValue?, skipSpace_of_not rfl]
  simp only [hskip]

/-! ### Steps -/

/-- With so much fuel, values shorter than that are read. -/
def ReadsValues (fuel : Nat) : Prop :=
  ∀ {v : Json} {cs r : List Char}, IsText v cs → Ends r → cs.length < fuel →
    readValue? fuel (cs ++ r) = some (v, r)

def ReadsItems (fuel : Nat) : Prop :=
  ∀ {vs : List Json} {cs b r : List Char}, AreItems vs cs → Blank b → cs.length + 1 < fuel →
    readItems? fuel (cs ++ (b ++ ']' :: r)) = some (vs, r)

def ReadsMembers (fuel : Nat) : Prop :=
  ∀ {ms : List (Option String × Json)} {cs b r : List Char}, AreMembers ms cs → Blank b →
    cs.length + 1 < fuel → readMembers? fuel (cs ++ (b ++ '\x7d' :: r)) = some (ms, r)

theorem readsValues_succ {fuel : Nat} (hitems : ReadsItems fuel) (hmembers : ReadsMembers fuel) :
    ReadsValues (fuel + 1) := by
  intro v cs r h hr hlen
  cases h with
  | null => rfl
  | true => rfl
  | false => rfl
  | number h =>
    obtain ⟨c, t, rfl, hc⟩ := exists_cons_of_isNumber h
    have hread := Numeral.read?_append h hr
    rw [List.cons_append] at hread ⊢
    rw [readValue?_number hc, hread]
    rfl
  | text h =>
    obtain ⟨body, rfl, hread⟩ := readText?_append h r
    show (readText? (body ++ r)).map _ = _
    rw [hread]
    rfl
  | @emptyList a ha =>
    rw [List.cons_append, List.append_assoc, readValue?, skipSpace_of_not rfl]
    simp only [List.cons_append, List.nil_append, skipSpace_blank ha (show isSpace ']' = false from rfl)]
  | @list vs a cs b ha h hb =>
    obtain ⟨hskip, hne⟩ := skipSpace_inside ha (exists_cons_of_areItems h) b r
    have hlen' := length_inside_lt hlen
    rw [List.cons_append, readValue?_list hskip hne, hitems h hb hlen']
    rfl
  | @emptyObject a ha =>
    rw [List.cons_append, List.append_assoc, readValue?, skipSpace_of_not rfl]
    simp only [List.cons_append, List.nil_append,
      skipSpace_blank ha (show isSpace '\x7d' = false from rfl)]
  | @object ms a cs b ha h hb =>
    obtain ⟨hskip, hne⟩ := skipSpace_inside ha (exists_cons_of_areMembers h) b r
    have hlen' := length_inside_lt hlen
    rw [List.cons_append, readValue?_object hskip hne, hmembers h hb hlen']
    rfl

theorem readsItems_succ {fuel : Nat} (hvalues : ReadsValues fuel) (hitems : ReadsItems fuel) :
    ReadsItems (fuel + 1) := by
  intro vs cs b r h hb hlen
  cases h with
  | one h =>
    have hr : Ends (b ++ ']' :: r) := ends_blank hb (ends_cons (.inr (.inr (.inl rfl))) r)
    rw [readItems?, hvalues h hr (by omega)]
    simp only [skipSpace_blank hb (show isSpace ']' = false from rfl)]
  | @more v vs cs a b' ds h ha hb' hr =>
    have hends : Ends (a ++ ',' :: (b' ++ (ds ++ (b ++ ']' :: r)))) :=
      ends_blank ha (ends_cons (.inr (.inl rfl)) _)
    simp only [List.length_append, List.length_cons] at hlen
    have hread := hvalues h hends (by omega)
    have hrest := hitems hr hb (by omega : ds.length + 1 < fuel) (r := r)
    simp only [List.append_assoc, List.cons_append]
    rw [readItems?, hread]
    simp only [skipSpace_blank ha (show isSpace ',' = false from rfl), readItems?_blank hb', hrest,
      Option.map_some]

/-- A member is read as its key and, behind the colon, its value. -/
theorem readMember_append {fuel : Nat} (hvalues : ReadsValues fuel) {key : Option String} {v : Json}
    (h : IsMember (key, v) cs) (hr : Ends r) (hlen : cs.length < fuel) :
    ∃ body s t, cs ++ r = '"' :: body ∧ readText? body = some (key, s) ∧ skipSpace s = ':' :: t ∧
      readValue? fuel t = some (v, r) := by
  cases h with
  | @mk _ _ ks a b vs hk ha hb hv =>
    simp only [List.length_append, List.length_cons] at hlen
    obtain ⟨body, rfl, hread⟩ := readText?_append hk (a ++ ':' :: (b ++ (vs ++ r)))
    refine ⟨_, _, _, ?_, hread, skipSpace_blank ha rfl _, ?_⟩
    · simp only [List.append_assoc, List.cons_append]
    · rw [readValue?_blank hb, hvalues hv hr (by omega)]

theorem readsMembers_succ {fuel : Nat} (hvalues : ReadsValues fuel) (hmembers : ReadsMembers fuel) :
    ReadsMembers (fuel + 1) := by
  intro ms cs b r h hb hlen
  cases h with
  | @one m cs h =>
    have hr : Ends (b ++ '\x7d' :: r) := ends_blank hb (ends_cons (.inr (.inr (.inr rfl))) r)
    obtain ⟨body, s, t, heq, htext, hskip, hvalue⟩ := readMember_append hvalues h hr (by omega)
    rw [heq, readMembers?, skipSpace_of_not rfl]
    simp only [htext, hskip, hvalue, skipSpace_blank hb (show isSpace '\x7d' = false from rfl)]
  | @more m ms cs a b' ds h ha hb' hr =>
    have hends : Ends (a ++ ',' :: (b' ++ (ds ++ (b ++ '\x7d' :: r)))) :=
      ends_blank ha (ends_cons (.inr (.inl rfl)) _)
    simp only [List.length_append, List.length_cons] at hlen
    obtain ⟨body, s, t, heq, htext, hskip, hvalue⟩ := readMember_append hvalues h hends (by omega)
    have hrest := hmembers hr hb (by omega : ds.length + 1 < fuel) (r := r)
    simp only [List.append_assoc, List.cons_append]
    rw [heq, readMembers?, skipSpace_of_not rfl]
    simp only [htext, hskip, hvalue, skipSpace_blank ha (show isSpace ',' = false from rfl),
      readMembers?_blank hb', hrest, Option.map_some]

theorem reads_of_length_lt (fuel : Nat) :
    ReadsValues fuel ∧ ReadsItems fuel ∧ ReadsMembers fuel := by
  induction fuel with
  | zero =>
    exact ⟨fun _ _ h => absurd h (Nat.not_lt_zero _), fun _ _ h => absurd h (Nat.not_lt_zero _),
      fun _ _ h => absurd h (Nat.not_lt_zero _)⟩
  | succ fuel ih =>
    obtain ⟨hvalues, hitems, hmembers⟩ := ih
    exact ⟨readsValues_succ hitems hmembers, readsItems_succ hvalues hitems,
      readsMembers_succ hvalues hmembers⟩

/-- A value is read from its text, whatever follows that ends it. -/
theorem readValue?_append {fuel : Nat} {v : Json} (h : IsText v cs) (hr : Ends r)
    (hlen : cs.length < fuel) : readValue? fuel (cs ++ r) = some (v, r) :=
  (reads_of_length_lt fuel).1 h hr hlen

/-- Every document of a value is read as that value. -/
theorem parse?_of_isDocument {v : Json} {s : String} (h : IsDocument v s) : parse? s = some v := by
  obtain ⟨a, cs, b, hs, ha, htext, hb⟩ := h
  have hends : Ends b := by
    have := ends_blank hb (show Ends [] from fun c hc => by cases hc)
    rwa [List.append_nil] at this
  have hread : readValue? (2 * s.toList.length + 2) s.toList = some (v, b) := by
    rw [hs, readValue?_blank ha]
    refine readValue?_append htext hends ?_
    simp only [List.length_append]
    omega
  have hblank : skipSpace b = [] := by
    have := skipSpace_append hb []
    rwa [List.append_nil] at this
  unfold parse?
  simp only [hread, hblank, List.isEmpty_nil, if_true]

end AsmOrigin.Json
