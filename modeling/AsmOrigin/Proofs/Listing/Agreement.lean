import AsmOrigin.Classifier
import AsmOrigin.Proofs.Listing.Stripping

/-!
Listings whose lines are read alike.

A profile learns of each line whether it is ignored, its mnemonic, the registers and marks it mentions,
and the signatures in it.  Two listings that agree line by line on one of these (`AgreeOn`) have the
same counter of it.  Carriage returns added before line feeds leave all of them as they are
(`ofListing_with_added_returns`); letters in another case leave those that are read in lower
case (`ofListing_in_another_case`).
-/

namespace AsmOrigin

open Text Profile

/-! ## Agreement -/

/-- The lines of both texts give the same values of `g`, in turn. -/
def Text.AgreeOn {α : Type} (g : List Char → α) (a b : List Char) : Prop :=
  (lines a).map g = (lines b).map g

namespace Listing

variable {α : Type} {a b : List Char}

theorem map_filter_congr {β : Type} {g : β → α} {p : β → Bool} {ks ls : List β}
    (hp : ks.map p = ls.map p) (hg : ks.map g = ls.map g) :
    (ks.filter p).map g = (ls.filter p).map g := by
  induction ks generalizing ls with
  | nil =>
    rw [List.map_nil, eq_comm, List.map_eq_nil_iff] at hp
    rw [hp]
  | cons k ks ih =>
    cases ls with
    | nil => cases hp
    | cons l ls =>
      rw [List.map_cons, List.map_cons, List.cons.injEq] at hp hg
      rw [List.filter_cons, List.filter_cons, hp.1]
      split
      · rw [List.map_cons, List.map_cons, hg.1, ih hp.2 hg.2]
      · exact ih hp.2 hg.2

/-- Instructions are the same lines of both texts. -/
theorem map_instructions_congr (hi : AgreeOn isIgnored a b) {g : List Char → α} (hg : AgreeOn g a b) :
    (instructions a).map g = (instructions b).map g := by
  refine map_filter_congr ?_ hg
  have h := congrArg (List.map (!·)) hi
  rwa [List.map_map, List.map_map] at h

theorem length_instructions_congr (hi : AgreeOn isIgnored a b) :
    (instructions a).length = (instructions b).length := by
  have h := congrArg List.length (map_instructions_congr hi hi)
  rwa [List.length_map, List.length_map] at h

theorem mnemonics_congr (hi : AgreeOn isIgnored a b) (hm : AgreeOn mnemonic a b) :
    (instructions a).filterMap mnemonic = (instructions b).filterMap mnemonic := by
  have h := congrArg (List.filterMap id) (map_instructions_congr hi hm)
  rwa [List.filterMap_map, List.filterMap_map] at h

theorem mentionedRegisters_congr (hi : AgreeOn isIgnored a b)
    (hr : AgreeOn (mentionedRegisters .substring) a b) :
    (instructions a).flatMap (mentionedRegisters .substring) =
      (instructions b).flatMap (mentionedRegisters .substring) := by
  rw [List.flatMap_def, List.flatMap_def, map_instructions_congr hi hr]

theorem countLines_congr {names : List String} (h : AgreeOn (mentionsAny names) a b) :
    countLines .substring names a = countLines .substring names b := by
  have h := congrArg (List.countP id) h
  rw [List.countP_map, List.countP_map] at h
  rw [countLines_eq, countLines_eq]
  exact h

theorem count_congr {needle : List Char} (hfeed : '\n' ∉ needle) (hreturn : '\r' ∉ needle)
    (h : AgreeOn (count needle) a b) : count needle a = count needle b := by
  rw [count_eq_sum_lines hfeed hreturn, count_eq_sum_lines hfeed hreturn, h]

end Listing

/-! ## Carriage returns -/

/-- The second text is the first one with any number of carriage returns directly before any of its
line feeds. -/
inductive Text.AddsReturns : List Char → List Char → Prop
  | nil : AddsReturns [] []
  | keep (c : Char) {a b : List Char} (h : AddsReturns a b) : AddsReturns (c :: a) (c :: b)
  | add (n : Nat) {a b : List Char} (h : AddsReturns a b) :
      AddsReturns ('\n' :: a) (List.replicate n '\r' ++ '\n' :: b)

namespace Text

variable {α : Type} {a b l : List Char} {g : List Char → α}

theorem AddsReturns.eq_of_notMem (h : AddsReturns l b) (hl : '\n' ∉ l) : b = l := by
  induction h with
  | nil => rfl
  | keep c _ ih => rw [ih fun hmem => hl (List.mem_cons_of_mem c hmem)]
  | add => exact absurd List.mem_cons_self hl

theorem AddsReturns.exists_line (hl : '\n' ∉ l) (h : AddsReturns (l ++ '\n' :: a) b) :
    ∃ n b', b = l ++ List.replicate n '\r' ++ '\n' :: b' ∧ AddsReturns a b' := by
  induction l generalizing b with
  | nil =>
    cases h with
    | keep _ h => exact ⟨0, _, rfl, h⟩
    | add n h => exact ⟨n, _, rfl, h⟩
  | cons c r ih =>
    rw [List.mem_cons, not_or] at hl
    cases h with
    | keep _ h =>
      obtain ⟨n, b', rfl, hrest⟩ := ih hl.2 h
      exact ⟨n, b', rfl, hrest⟩
    | add => exact absurd rfl hl.1

theorem apply_append_replicate (hg : ∀ l, g (dropReturn l) = g l) (l : List Char) (n : Nat) :
    g (l ++ List.replicate n '\r') = g l := by
  induction n with
  | zero => rw [List.replicate_zero, List.append_nil]
  | succ n ih =>
    rw [List.replicate_succ', ← List.append_assoc, ← hg, dropReturn_concat, ih]

/-- What the carriage return at the end of a line does not change is not changed by any number of them. -/
theorem AddsReturns.agreeOn (hg : ∀ l, g (dropReturn l) = g l) (h : AddsReturns a b) :
    AgreeOn g b a := by
  unfold AgreeOn
  induction a using line_induction generalizing b with
  | nil => rw [h.eq_of_notMem List.not_mem_nil]
  | last l hl hne => rw [h.eq_of_notMem hl]
  | line l cs hl ih =>
    -- one carriage return goes with the line feed, the others stay at the end of the line
    obtain ⟨n, b', rfl, hrest⟩ := h.exists_line hl
    have hpadded : '\n' ∉ l ++ List.replicate n '\r' := by
      rw [List.mem_append, not_or]
      exact ⟨hl, fun hmem => absurd (List.eq_of_mem_replicate hmem) (by decide)⟩
    rw [lines_line hpadded, lines_line hl, List.map_cons, List.map_cons, ih hrest, hg, hg,
      apply_append_replicate hg]

end Text

namespace Listing

/-- Carriage returns added before line feeds change no counter, and so neither the fingerprint nor what
any classifier says of the listing. -/
theorem ofListing_with_added_returns {raw raw' : String} (h : AddsReturns raw.toList raw'.toList) :
    ofListing .substring raw' = ofListing .substring raw ∧
      Fingerprint.ofListing .substring raw' = Fingerprint.ofListing .substring raw ∧
      ∀ c : Classifier, c.matcher = .substring →
        c.predict raw' = c.predict raw ∧ c.confidences raw' = c.confidences raw ∧
          c.classify raw' = c.classify raw := by
  have hignored : AgreeOn isIgnored raw'.toList raw.toList := h.agreeOn isIgnored_dropReturn
  have hmarks : ∀ {names : List String}, (∀ name ∈ names, IsOneLine name) →
      countLines .substring names raw'.toList = countLines .substring names raw.toList :=
    fun hnames => countLines_congr (h.agreeOn (mentionsAny_dropReturn hnames))
  have hprofile : ofListing .substring raw' = ofListing .substring raw := by
    unfold ofListing
    rw [Profile.mk.injEq]
    refine ⟨length_instructions_congr hignored, congrArg tally ?_, congrArg tally ?_,
      hmarks isOneLine_jumpMnemonics, hmarks (by decide +kernel), ?_⟩
    · exact mnemonics_congr hignored (h.agreeOn mnemonic_dropReturn)
    · exact mentionedRegisters_congr hignored (h.agreeOn mentionedRegisters_dropReturn)
    · refine Vector.map_congr_left fun pattern hmem => ?_
      obtain ⟨hfeed, hreturn⟩ := isOneLine_signaturePatterns pattern hmem
      exact count_congr hfeed hreturn (h.agreeOn (count_dropReturn hreturn))
  have hfingerprint : Fingerprint.ofListing .substring raw' = Fingerprint.ofListing .substring raw :=
    congrArg Profile.fingerprint hprofile
  refine ⟨hprofile, hfingerprint, fun c hc => ?_⟩
  have hextract : c.extract raw' = c.extract raw := by
    unfold Classifier.extract
    rw [hc, hfingerprint]
  unfold Classifier.predict Classifier.confidences Classifier.classify
  rw [hextract]
  exact ⟨rfl, rfl, rfl⟩

/-- A line feed with two carriage returns more, and one with none, before a classifier of one label. -/
theorem ofListing_with_two_added_returns :
    AddsReturns "call free\r\nret\n".toList "call free\r\r\r\nret\n".toList ∧
      ofListing .substring "call free\r\r\r\nret\n" = ofListing .substring "call free\r\nret\n" ∧
      let c := (Classifier.untrained .substring).put ("C", .ofListing .substring "ret\n")
      c.matcher = .substring ∧
        c.predict "call free\r\r\r\nret\n" = c.predict "call free\r\nret\n" ∧
        c.classify "call free\r\r\r\nret\n" = c.classify "call free\r\nret\n" := by
  have hadds : AddsReturns "call free\r\nret\n".toList "call free\r\r\r\nret\n".toList := by
    iterate 10 apply AddsReturns.keep
    apply AddsReturns.add 2
    iterate 4 apply AddsReturns.keep
    exact .nil
  obtain ⟨hprofile, -, hanswers⟩ := ofListing_with_added_returns hadds
  refine ⟨hadds, hprofile, ?_⟩
  intro c
  obtain ⟨hpredict, -, hclassify⟩ := hanswers c rfl
  exact ⟨rfl, hpredict, hclassify⟩

end Listing

/-! ## Case of letters -/

/-- The two texts differ at most in the case of ASCII letters, the only characters that `Char.toLower`
changes. -/
def Text.SameButCase (a b : List Char) : Prop := a.map Char.toLower = b.map Char.toLower

namespace Text

variable {α : Type} {a b : List Char} {g : List Char → α}

theorem map_dropReturn_toLower (l : List Char) :
    dropReturn (l.map Char.toLower) = (dropReturn l).map Char.toLower := by
  have hreturn : ∀ c : Char, c.toLower = '\r' ↔ c = '\r' := toLower_eq_iff (by decide)
  by_cases h : l.getLast? = some '\r'
  · obtain ⟨k, rfl⟩ := List.getLast?_eq_some_iff.1 h
    rw [dropReturn_concat, List.map_append]
    exact dropReturn_concat _
  · rw [dropReturn_eq_self_iff.2 h, dropReturn_eq_self_iff, List.getLast?_map]
    intro hlast
    obtain ⟨c, hc, hlower⟩ := Option.map_eq_some_iff.1 hlast
    rw [(hreturn c).1 hlower] at hc
    exact h hc

theorem newline_mem_map_toLower_iff (l : List Char) : '\n' ∈ l.map Char.toLower ↔ '\n' ∈ l := by
  have hfeed : ∀ c : Char, c.toLower = '\n' ↔ c = '\n' := toLower_eq_iff (by decide)
  simp only [List.mem_map, hfeed, exists_eq_right]

theorem lines_map_toLower (cs : List Char) :
    lines (cs.map Char.toLower) = (lines cs).map (List.map Char.toLower) := by
  induction cs using line_induction with
  | nil => rfl
  | last l hl hne =>
    rw [lines_of_notMem hl hne, lines_of_notMem (mt (newline_mem_map_toLower_iff l).1 hl) (by simpa)]
    rfl
  | line l cs hl ih =>
    rw [List.map_append, List.map_cons]
    show lines (l.map Char.toLower ++ '\n' :: cs.map Char.toLower) = _
    rw [lines_line (mt (newline_mem_map_toLower_iff l).1 hl), lines_line hl, ih,
      map_dropReturn_toLower, List.map_cons]

/-- What does not depend on the case of a line's letters is the same for both texts. -/
theorem SameButCase.agreeOn (hg : ∀ l, g (l.map Char.toLower) = g l) (h : SameButCase a b) :
    AgreeOn g a b := by
  have hmap : ∀ cs : List Char, (lines cs).map g = (lines (cs.map Char.toLower)).map g := fun cs => by
    rw [lines_map_toLower, List.map_map]
    exact List.map_congr_left fun l _ => (hg l).symm
  unfold AgreeOn
  rw [hmap a, hmap b, h]

theorem dropBlanks_map_toLower (l : List Char) :
    dropBlanks (l.map Char.toLower) = (dropBlanks l).map Char.toLower := by
  unfold dropBlanks
  rw [List.dropWhile_map, show isBlank ∘ Char.toLower = isBlank from funext isBlank_toLower]

theorem firstWord_map_toLower (l : List Char) :
    firstWord (l.map Char.toLower) = (firstWord l).map (List.map Char.toLower) := by
  unfold firstWord
  rw [dropBlanks_map_toLower]
  cases dropBlanks l with
  | nil => rfl
  | cons c r =>
    have hblank : (!isBlank ·) ∘ Char.toLower = (!isBlank ·) :=
      funext fun c => congrArg (!·) (isBlank_toLower c)
    simp only [List.map_cons, Option.map_some, List.takeWhile_map, hblank]

end Text

namespace Listing

theorem isIgnored_map_toLower (line : List Char) :
    isIgnored (line.map Char.toLower) = isIgnored line := by
  unfold isIgnored
  rw [dropBlanks_map_toLower]
  cases dropBlanks line with
  | nil => rfl
  | cons c r => exact apply_toLower (f := fun c => c == '#' || c == '.') (by decide) c

theorem mnemonic_map_toLower (line : List Char) :
    mnemonic (line.map Char.toLower) = mnemonic line := by
  unfold mnemonic
  rw [firstWord_map_toLower, Option.map_map]
  simp only [Function.comp_def, lower_map_toLower]

theorem mentionsAny_map_toLower (names : List String) (line : List Char) :
    mentionsAny names (line.map Char.toLower) = mentionsAny names line := by
  unfold mentionsAny
  rw [lower_map_toLower]

/-- Instructions, opcodes, jump lines and call lines are counted alike in listings that differ only in
the case of ASCII letters. -/
theorem ofListing_in_another_case {raw raw' : String} (h : SameButCase raw.toList raw'.toList) :
    let p := ofListing .substring raw
    let q := ofListing .substring raw'
    p.instructions = q.instructions ∧ p.opcodes = q.opcodes ∧ p.jumpLines = q.jumpLines ∧
      p.callLines = q.callLines := by
  have hignored : AgreeOn isIgnored raw.toList raw'.toList := h.agreeOn isIgnored_map_toLower
  have hmarks : ∀ names : List String,
      countLines .substring names raw.toList = countLines .substring names raw'.toList :=
    fun names => countLines_congr (h.agreeOn (mentionsAny_map_toLower names))
  refine ⟨length_instructions_congr hignored, congrArg tally ?_, hmarks _, hmarks _⟩
  exact mnemonics_congr hignored (h.agreeOn mnemonic_map_toLower)

/-- Letters of ASCII beside a `Σ`, which is a final one here, and a register that is mentioned in lower
case only. -/
theorem ofListing_in_upper_case :
    SameButCase "xΣ rax\nJne .L\n".toList "XΣ RAX\njnE .l\n".toList ∧
      let p := ofListing .substring "xΣ rax\nJne .L\n"
      let q := ofListing .substring "XΣ RAX\njnE .l\n"
      p.opcodes = q.opcodes ∧ p.jumpLines = q.jumpLines ∧ p.registers ≠ q.registers := by
  have hcase : SameButCase "xΣ rax\nJne .L\n".toList "XΣ RAX\njnE .l\n".toList := by
    unfold SameButCase
    decide +kernel
  obtain ⟨-, hopcodes, hjumps, -⟩ := ofListing_in_another_case hcase
  exact ⟨hcase, hopcodes, hjumps, by decide +kernel⟩

end Listing

end AsmOrigin
