import AsmOrigin.Proofs.Manifest.YamlScalars
import AsmOrigin.Yaml.Token

/-!
Scalars among the tokens of a YAML text are no longer than the text.

The invariant of the tokenizer (`Tokenizer.Fits`) bounds what is left of the text and every scalar read so
far.  Most steps only move tokens that are no scalars about; the few that read a scalar take it from what
is left.
-/

namespace AsmOrigin.Yaml

/-! ## Names -/

theorem anchorName?_length {c d : Cursor} {name : List Char} (h : anchorName? c = some (name, d)) :
    d.rest.length ≤ c.rest.length := by
  simp only [anchorName?] at h
  split at h
  · cases h
  · cases h
    rw [Cursor.length_rest_advance]
    exact Nat.sub_le _ _

theorem tagTextAt?_length {verbatim : Bool} {c d : Cursor} {t : List Char}
    (h : tagTextAt? verbatim c = some (t, d)) : d.rest.length ≤ c.rest.length := by
  obtain ⟨⟨t', r⟩, -, h⟩ := Option.bind_eq_some_iff.1 h
  cases h
  rw [Cursor.length_rest_advance]
  exact Nat.sub_le _ _

theorem tagHandle?_length {c d : Cursor} {handle : List Char}
    (h : tagHandle? c = some (handle, d)) : d.rest.length ≤ c.rest.length := by
  simp only [tagHandle?] at h
  split at h
  · split at h <;> cases h <;> simp only [Cursor.length_rest_advance] <;> omega
  · cases h

theorem tag?_length {inFlow : Bool} {c d : Cursor} {t : Tag} (h : tag? inFlow c = some (t, d)) :
    d.rest.length ≤ c.rest.length := by
  have hend : ∀ {u : Tag} {e : Cursor}, e.rest.length ≤ c.rest.length →
      (if e.endsAt 0 || (inFlow && e.has 0 ',') then some (u, e) else none) = some (t, d) →
      d.rest.length ≤ c.rest.length := by
    intro u e he h
    split at h <;> cases h
    exact he
  simp only [tag?] at h
  split at h
  · obtain ⟨⟨u, e⟩, he, h⟩ := Option.bind_eq_some_iff.1 h
    have he := tagTextAt?_length he
    dsimp only at h
    split at h
    · cases h
    · refine hend ?_ h
      simp only [Cursor.length_rest_advance] at *
      omega
  · obtain ⟨⟨handle, e⟩, he, h⟩ := Option.bind_eq_some_iff.1 h
    obtain ⟨⟨u, f⟩, hf, h⟩ := Option.bind_eq_some_iff.1 h
    have hf := (tagTextAt?_length hf).trans (tagHandle?_length he)
    dsimp only at h
    split at h
    · split at h
      · cases h
      · exact hend hf h
    · exact hend hf h

theorem versionNumber?_length {c d : Cursor} {n : Nat} (h : versionNumber? c = some (n, d)) :
    d.rest.length ≤ c.rest.length := by
  simp only [versionNumber?] at h
  split at h
  · cases h
  · cases h
    rw [Cursor.length_rest_advance]
    exact Nat.sub_le _ _

theorem versionDirective?_length {c d : Cursor} {v : Directive}
    (h : versionDirective? c = some (v, d)) : d.rest.length ≤ c.rest.length := by
  have hblanks := Cursor.length_rest_advanceWhile_le isBlank c
  obtain ⟨⟨major, e⟩, he, h⟩ := Option.bind_eq_some_iff.1 h
  have he := versionNumber?_length he
  dsimp only at h
  split at h
  · obtain ⟨⟨minor, f⟩, hf, h⟩ := Option.bind_eq_some_iff.1 h
    have hf := versionNumber?_length hf
    cases h
    rw [Cursor.length_rest_advance] at hf
    exact hf.trans (Nat.sub_le_of_le_add (by omega))
  · cases h

theorem tagDirective?_length {c d : Cursor} {v : Directive} (h : tagDirective? c = some (v, d)) :
    d.rest.length ≤ c.rest.length := by
  have hblanks := Cursor.length_rest_advanceWhile_le isBlank c
  obtain ⟨⟨handle, e⟩, he, h⟩ := Option.bind_eq_some_iff.1 h
  have he := tagHandle?_length he
  dsimp only at h
  split at h
  · cases h
  · split at h
    · cases h
    · obtain ⟨⟨target, f⟩, hf, h⟩ := Option.bind_eq_some_iff.1 h
      have hf := tagTextAt?_length hf
      have hblanks' := Cursor.length_rest_advanceWhile_le isBlank e
      dsimp only at h
      split at h
      · cases h
      · cases h
        omega

theorem directive?_length {c d : Cursor} {v : Directive} (h : directive? c = some (v, d)) :
    d.rest.length ≤ c.rest.length := by
  -- both kinds of directives end with their line
  have hline : ∀ {w : Directive} {e : Cursor} {k : Nat}, e.rest.length ≤ (c.advance k).rest.length →
      (e.endLine?.bind fun f => some (w, f)) = some (v, d) → d.rest.length ≤ c.rest.length := by
    intro w e k he h
    obtain ⟨f, hf, h⟩ := Option.bind_eq_some_iff.1 h
    have hf := Cursor.endLine?_length hf
    cases h
    rw [Cursor.length_rest_advance] at he
    exact hf.trans (he.trans (Nat.sub_le _ _))
  simp only [directive?] at h
  split at h
  · cases h
  · split at h
    · obtain ⟨⟨w, e⟩, he, h⟩ := Option.bind_eq_some_iff.1 h
      exact hline (versionDirective?_length he) h
    · split at h
      · obtain ⟨⟨w, e⟩, he, h⟩ := Option.bind_eq_some_iff.1 h
        exact hline (tagDirective?_length he) h
      · cases h

/-! ## Tokens -/

/-- No scalar that is longer than `n`. -/
def Token.Fits (n : Nat) : Token → Prop
  | scalar _ text => text.length ≤ n
  | _ => True

theorem Token.Fits.mono {k n : Nat} {token : Token} (h : token.Fits k)
    (hk : k ≤ n) : token.Fits n := by
  cases token with
  | scalar style text => exact Nat.le_trans h hk
  | _ => trivial

namespace Tokenizer

/-- Neither what is left nor a scalar that was read is longer than `n`. -/
structure Fits (n : Nat) (t : Tokenizer) : Prop where
  rest_le : t.cursor.rest.length ≤ n
  tokens_fit : ∀ token ∈ t.tokens, token.Fits n

variable {n : Nat} {t u : Tokenizer}

theorem fits_start (text : List Char) : (start text).Fits text.length :=
  ⟨le_rfl, fun token h => absurd h (Array.not_mem_empty token)⟩

/-- All that the invariant is about are the cursor and the tokens. -/
theorem Fits.congr (h : t.Fits n) (hc : u.cursor = t.cursor) (ht : u.tokens = t.tokens) :
    u.Fits n := by
  refine ⟨?_, ?_⟩
  · rw [hc]
    exact h.rest_le
  · rw [ht]
    exact h.tokens_fit

theorem forall_mem_push {ts : Array Token} {token : Token} (h : ∀ s ∈ ts, s.Fits n)
    (htoken : token.Fits n) : ∀ s ∈ ts.push token, s.Fits n := by
  intro s hs
  rcases Array.mem_push.1 hs with hs | rfl
  · exact h s hs
  · exact htoken

theorem forall_mem_insert {ts : Array Token} {token : Token} (h : ∀ s ∈ ts, s.Fits n)
    (htoken : token.Fits n) (place : Nat) :
    ∀ s ∈ ts.insertIdxIfInBounds place token, s.Fits n := by
  intro s hs
  unfold Array.insertIdxIfInBounds at hs
  split at hs
  · rcases Array.mem_insertIdx.1 hs with rfl | hs
    · exact htoken
    · exact h s hs
  · exact h s hs

/-- A step over a token that is read from what is left. -/
theorem Fits.read (h : t.Fits n) {c : Cursor} {token : Token} (hc : c.rest.length ≤ n)
    (htoken : token.Fits n) (hu : u.cursor = c) (hts : u.tokens = t.tokens.push token) :
    u.Fits n := by
  refine ⟨?_, ?_⟩
  · rw [hu]
    exact hc
  · rw [hts]
    exact forall_mem_push h.tokens_fit htoken

theorem Fits.take (h : t.Fits n) (k : Nat) {token : Token} (htoken : token.Fits n) :
    (t.take k token).Fits n := by
  have hrest : (t.cursor.advance k).rest.length ≤ n := by
    rw [Cursor.length_rest_advance]
    exact (Nat.sub_le _ _).trans h.rest_le
  exact h.read hrest htoken rfl rfl

theorem Fits.allowKey (h : t.Fits n) (allowed : Bool) : (t.allowKey allowed).Fits n :=
  h.congr rfl rfl

theorem Fits.dropStale? (h : t.Fits n) (hu : t.dropStale? = some u) : u.Fits n := by
  unfold Tokenizer.dropStale? at hu
  split at hu
  · cases hu
    exact h
  · split at hu
    · split at hu
      · cases hu
      · cases hu
        exact h.congr rfl rfl
    · cases hu
      exact h

theorem Fits.dropKey? (h : t.Fits n) (hu : t.dropKey? = some u) : u.Fits n := by
  unfold Tokenizer.dropKey? at hu
  split at hu
  · cases hu
  · cases hu
    exact h.congr rfl rfl

theorem Fits.saveKey? (h : t.Fits n) (hu : t.saveKey? = some u) : u.Fits n := by
  unfold Tokenizer.saveKey? at hu
  split at hu
  · obtain ⟨v, hv, hu⟩ := Option.bind_eq_some_iff.1 hu
    cases hu
    exact (h.dropKey? hv).congr rfl rfl
  · cases hu
    exact h

theorem Fits.openBlock (h : t.Fits n) (column place : Nat) {token : Token}
    (htoken : token.Fits n) : (t.openBlock column place token).Fits n := by
  unfold Tokenizer.openBlock
  split
  · exact ⟨h.rest_le, forall_mem_insert h.tokens_fit htoken place⟩
  · exact h

theorem Fits.closeBlocks (h : t.Fits n) (keep : Nat → Bool) : (t.closeBlocks keep).Fits n := by
  unfold Tokenizer.closeBlocks
  split
  · exact h
  · refine ⟨h.rest_le, fun token htoken => ?_⟩
    rcases Array.mem_append.1 htoken with htoken | htoken
    · exact h.tokens_fit token htoken
    · rw [(Array.mem_replicate.1 htoken).2]
      trivial

theorem Fits.openFlow? (h : t.Fits n) {token : Token} (htoken : token.Fits n)
    (hu : t.openFlow? token = some u) : u.Fits n := by
  obtain ⟨v, hv, hu⟩ := Option.bind_eq_some_iff.1 hu
  cases hu
  have hsaved : Fits n { v with
      candidate := none, outer := v.candidate :: v.outer, keyAllowed := true } :=
    (h.saveKey? hv).congr rfl rfl
  exact hsaved.take 1 htoken

theorem Fits.closeFlow? (h : t.Fits n) {token : Token} (htoken : token.Fits n)
    (hu : t.closeFlow? token = some u) : u.Fits n := by
  obtain ⟨v, hv, hu⟩ := Option.bind_eq_some_iff.1 hu
  cases hu
  refine (Fits.allowKey ?_ false).take 1 htoken
  split
  · exact h.dropKey? hv
  · exact (h.dropKey? hv).congr rfl rfl

theorem Fits.openEntry? (h : t.Fits n) {block : Token} (hblock : block.Fits n)
    (hu : t.openEntry? block = some u) : u.Fits n := by
  unfold Tokenizer.openEntry? at hu
  split at hu
  · cases hu
    exact h
  · split at hu
    · cases hu
      exact h.openBlock _ _ hblock
    · cases hu

theorem Fits.blockEntry? (h : t.Fits n) (hu : t.blockEntry? = some u) : u.Fits n := by
  obtain ⟨v, hv, hu⟩ := Option.bind_eq_some_iff.1 hu
  obtain ⟨w, hw, hu⟩ := Option.bind_eq_some_iff.1 hu
  cases hu
  exact (((h.openEntry? (by trivial) hv).dropKey? hw).allowKey true).take 1 (by trivial)

theorem Fits.key? (h : t.Fits n) (hu : t.key? = some u) : u.Fits n := by
  obtain ⟨v, hv, hu⟩ := Option.bind_eq_some_iff.1 hu
  obtain ⟨w, hw, hu⟩ := Option.bind_eq_some_iff.1 hu
  cases hu
  exact (((h.openEntry? (by trivial) hv).dropKey? hw).allowKey _).take 1 (by trivial)

theorem Fits.value? (h : t.Fits n) (hu : t.value? = some u) : u.Fits n := by
  unfold Tokenizer.value? at hu
  split at hu
  · rename_i k _
    cases hu
    have hkey : Fits n { t with
        tokens := t.tokens.insertIdxIfInBounds k.place .key, candidate := none } :=
      ⟨h.rest_le, forall_mem_insert h.tokens_fit (by trivial) k.place⟩
    exact ((hkey.openBlock _ _ (by trivial)).allowKey false).take 1 (by trivial)
  · obtain ⟨v, hv, hu⟩ := Option.bind_eq_some_iff.1 hu
    cases hu
    exact ((h.openEntry? (by trivial) hv).allowKey _).take 1 (by trivial)

theorem Fits.leaveDocument? (h : t.Fits n) (hu : t.leaveDocument? = some u) : u.Fits n := by
  obtain ⟨v, hv, hu⟩ := Option.bind_eq_some_iff.1 hu
  cases hu
  exact ((h.closeBlocks _).dropKey? hv).allowKey false

/-- What a reader of a token promises. -/
def Takes (read : Tokenizer → Option (Token × Cursor)) : Prop :=
  ∀ {t : Tokenizer} {token : Token} {c : Cursor}, read t = some (token, c) →
    c.rest.length ≤ t.cursor.rest.length ∧ token.Fits t.cursor.rest.length

theorem Fits.node? (h : t.Fits n) {read : Tokenizer → Option (Token × Cursor)}
    (hread : Takes read) (hu : t.node? read = some u) : u.Fits n := by
  obtain ⟨v, hv, hu⟩ := Option.bind_eq_some_iff.1 hu
  obtain ⟨⟨token, c⟩, hc, hu⟩ := Option.bind_eq_some_iff.1 hu
  cases hu
  have hfits := h.saveKey? hv
  obtain ⟨hrest, htoken⟩ := hread hc
  exact hfits.read (hrest.trans hfits.rest_le) (htoken.mono hfits.rest_le) rfl rfl

/-- References and anchors are read alike. -/
theorem takes_name (make : List Char → Token) (hmake : ∀ n name, (make name).Fits n) :
    Takes fun t => do
      let (name, d) ← anchorName? (t.cursor.advance 1)
      return (make name, d) := by
  intro t token c h
  obtain ⟨⟨name, d⟩, hd, h⟩ := Option.bind_eq_some_iff.1 h
  have hd := anchorName?_length hd
  cases h
  rw [Cursor.length_rest_advance] at hd
  exact ⟨hd.trans (Nat.sub_le _ _), hmake _ name⟩

theorem takes_tag : Takes fun t => do
    let (tag, d) ← tag? t.inFlow t.cursor
    return (.tag tag, d) := by
  intro t token c h
  obtain ⟨⟨tag, d⟩, hd, h⟩ := Option.bind_eq_some_iff.1 h
  have hd := tag?_length hd
  cases h
  exact ⟨hd, trivial⟩

theorem takes_quoted (double : Bool) : Takes fun t => do
    let (text, d) ← quoted? double t.cursor
    return (.scalar .quoted text, d) := by
  intro t token c h
  obtain ⟨⟨text, d⟩, hd, h⟩ := Option.bind_eq_some_iff.1 h
  have hd := quoted?_length hd
  cases h
  exact ⟨(Nat.le_add_left _ _).trans hd, (Nat.le_add_right _ _).trans hd⟩

theorem Fits.plainScalar? (h : t.Fits n) (hu : t.plainScalar? = some u) : u.Fits n := by
  obtain ⟨v, hv, hu⟩ := Option.bind_eq_some_iff.1 hu
  obtain ⟨⟨text, broken, c⟩, hc, hu⟩ := Option.bind_eq_some_iff.1 hu
  cases hu
  have hfits := h.saveKey? hv
  have hlen := (plain?_length hc).trans hfits.rest_le
  have htoken : (Token.scalar .plain text).Fits n := (Nat.le_add_right _ _).trans hlen
  exact hfits.read ((Nat.le_add_left _ _).trans hlen) htoken rfl rfl

theorem Fits.blockScalar? (h : t.Fits n) {folded : Bool} (hu : t.blockScalar? folded = some u) :
    u.Fits n := by
  obtain ⟨v, hv, hu⟩ := Option.bind_eq_some_iff.1 hu
  obtain ⟨⟨text, c⟩, hc, hu⟩ := Option.bind_eq_some_iff.1 hu
  cases hu
  have hfits := h.dropKey? hv
  have hlen := (block?_length hc).trans hfits.rest_le
  have htoken : (Token.scalar (if folded then .folded else .literal) text).Fits n :=
    (Nat.le_add_right _ _).trans hlen
  exact hfits.read ((Nat.le_add_left _ _).trans hlen) htoken rfl rfl

/-- Both branches of a choice keep the invariant. -/
theorem fits_of_ite {p : Prop} [Decidable p] {a b : Option Tokenizer} (ha : a = some u → u.Fits n)
    (hb : b = some u → u.Fits n) (hu : (if p then a else b) = some u) : u.Fits n := by
  split at hu
  · exact ha hu
  · exact hb hu

theorem Fits.directive? (h : t.Fits n) (hu : (do
    let t' ← t.leaveDocument?
    let (d, c) ← Yaml.directive? t.cursor
    return { t' with cursor := c, tokens := t'.tokens.push (.directive d) }) = some u) :
    u.Fits n := by
  obtain ⟨v, hv, hu⟩ := Option.bind_eq_some_iff.1 hu
  obtain ⟨⟨d, c⟩, hc, hu⟩ := Option.bind_eq_some_iff.1 hu
  cases hu
  exact (h.leaveDocument? hv).read ((directive?_length hc).trans h.rest_le) (by trivial) rfl rfl

theorem Fits.documentMark? (h : t.Fits n) {token : Token} (htoken : token.Fits n)
    (hu : (do return (← t.leaveDocument?).take 3 token) = some u) : u.Fits n := by
  obtain ⟨v, hv, hu⟩ := Option.bind_eq_some_iff.1 hu
  cases hu
  exact (h.leaveDocument? hv).take 3 htoken

theorem Fits.flowEntry? (h : t.Fits n)
    (hu : (do return ((← t.dropKey?).allowKey true).take 1 .flowEntry) = some u) : u.Fits n := by
  obtain ⟨v, hv, hu⟩ := Option.bind_eq_some_iff.1 hu
  cases hu
  exact ((h.dropKey? hv).allowKey true).take 1 (by trivial)

theorem Fits.next? (h : t.Fits n) (hnext : t.next? = some u) : u.Fits n := by
  have hmark : (if t.cursor.has 0 '-' then Token.documentStart else Token.documentEnd).Fits n := by
    split <;> trivial
  refine fits_of_ite h.directive? (fits_of_ite (h.documentMark? hmark) fun hu => ?_) hnext
  split at hu
  case h_1 => exact h.openFlow? (by trivial) hu
  case h_2 => exact h.openFlow? (by trivial) hu
  case h_3 => exact h.closeFlow? (by trivial) hu
  case h_4 => exact h.closeFlow? (by trivial) hu
  case h_5 => exact h.flowEntry? hu
  case h_6 =>
    -- the tokens that begin with other characters, in the order in which they are tried
    refine fits_of_ite h.blockEntry? (fits_of_ite h.key? (fits_of_ite h.value? ?_)) hu
    refine fits_of_ite (h.node? (takes_name .reference fun _ _ => trivial)) ?_
    refine fits_of_ite (h.node? (takes_name .anchor fun _ _ => trivial)) ?_
    refine fits_of_ite (h.node? takes_tag) (fits_of_ite h.blockScalar? ?_)
    refine fits_of_ite (h.node? (takes_quoted _)) (fits_of_ite h.plainScalar? ?_)
    rintro ⟨⟩
  case h_7 => cases hu

/-! ## Whole texts -/

theorem length_skipBlanks_le (inFlow keyAllowed : Bool) (c : Cursor) :
    (skipBlanks inFlow keyAllowed c).2.rest.length ≤ c.rest.length := by
  fun_induction skipBlanks inFlow keyAllowed c with
  | case1 | case5 => exact le_rfl
  | case2 keyAllowed c x r hc hx ih =>
    rw [Cursor.length_rest_advance] at ih
    exact ih.trans (Nat.sub_le _ _)
  | case3 keyAllowed c x r hc hx hcomment ih =>
    rw [Cursor.length_rest_advance] at ih
    exact ih.trans (Nat.sub_le _ _)
  | case4 keyAllowed c x r hc hx hcomment hbreak ih =>
    exact ih.trans (Cursor.length_rest_nextLine_le c)

theorem Fits.approach? (h : t.Fits n) (hu : t.approach? = some u) : u.Fits n := by
  obtain ⟨v, hv, hu⟩ := Option.bind_eq_some_iff.1 hu
  cases hu
  have hskipped : Fits n { t with
      cursor := (skipBlanks t.inFlow t.keyAllowed t.cursor).2
      keyAllowed := (skipBlanks t.inFlow t.keyAllowed t.cursor).1 } :=
    ⟨(length_skipBlanks_le _ _ _).trans h.rest_le, h.tokens_fit⟩
  exact (hskipped.dropStale? hv).closeBlocks _

theorem Fits.run? {limit : Nat} {ts : List Token} (h : t.Fits n) (hts : t.run? limit = some ts) :
    ∀ token ∈ ts, token.Fits n := by
  induction limit generalizing t with
  | zero => cases hts
  | succ limit ih =>
    obtain ⟨v, hv, hts⟩ := Option.bind_eq_some_iff.1 hts
    have hfits := h.approach? hv
    split at hts
    · obtain ⟨w, hw, hts⟩ := Option.bind_eq_some_iff.1 hts
      cases hts
      intro token htoken
      exact (hfits.leaveDocument? hw).tokens_fit token (Array.mem_toList_iff.1 htoken)
    · obtain ⟨w, hw, hts⟩ := Option.bind_eq_some_iff.1 hts
      exact ih (hfits.next? hw) hts

end Tokenizer

/-- No scalar of a text is longer than the text. -/
theorem fits_of_tokens? {text : List Char} {ts : List Token} (h : tokens? text = some ts) :
    ∀ token ∈ ts, token.Fits text.length := by
  unfold tokens? at h
  split at h
  · exact (Tokenizer.fits_start text).run? h
  · cases h

end AsmOrigin.Yaml
