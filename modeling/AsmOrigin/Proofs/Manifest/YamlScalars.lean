import AsmOrigin.Yaml.Block
import AsmOrigin.Yaml.Plain
import AsmOrigin.Yaml.Quoted
import Mathlib.Tactic

/-!
Scalars of a YAML text are no longer than what is written.

Every reader is measured by what it has collected, what the gap it stands behind stands for, and what is
left of the text: no step makes that sum grow, since folding and escapes only shorten.
-/

namespace AsmOrigin.Yaml

namespace Cursor

@[simp] theorem length_rest_advance (c : Cursor) (n : Nat) :
    (c.advance n).rest.length = c.rest.length - n := List.length_drop

theorem length_rest_nextLine_le (c : Cursor) : c.nextLine.rest.length ≤ c.rest.length := by
  cases h : c.rest with
  | nil =>
    unfold nextLine
    rw [h]
    exact le_rfl
  | cons x r =>
    have := rest_nextLine_lt h
    rw [h] at this
    exact this.le

theorem length_rest_advanceWhile_le (p : Char → Bool) (c : Cursor) :
    (c.advanceWhile p).rest.length ≤ c.rest.length := by
  unfold advanceWhile
  rw [length_rest_advance]
  exact Nat.sub_le _ _

theorem endLine?_length {c d : Cursor} (h : c.endLine? = some d) : d.rest.length ≤ c.rest.length := by
  have hblanks := length_rest_advanceWhile_le isBlank c
  have hcomment : (if (c.advanceWhile isBlank).has 0 '#' then
      (c.advanceWhile isBlank).advanceWhile (!isBreak ·)
      else c.advanceWhile isBlank).rest.length ≤ c.rest.length := by
    split
    · exact (length_rest_advanceWhile_le _ _).trans hblanks
    · exact hblanks
  unfold endLine? at h
  dsimp only at h
  split at h
  · cases h
    exact hcomment
  · split at h
    · cases h
      exact (length_rest_nextLine_le _).trans hcomment
    · cases h

theorem length_rest_pos {c : Cursor} {x : Char} {r : List Char} (h : c.rest = x :: r) :
    0 < c.rest.length := h ▸ Nat.succ_pos _

end Cursor

theorem length_breakText (c : Char) : (breakText c).length = 1 := by
  unfold breakText
  split <;> rfl

/-! ## Gaps -/

namespace Gap

/-- Characters kept of what was read. -/
def length (g : Gap) : Nat := g.blanks.length + g.first.length + g.further.length

@[simp] theorem length_empty : empty.length = 0 := rfl

@[simp] theorem length_escaped : escaped.length = 0 := rfl

theorem length_addBlank_le (g : Gap) (c : Char) : (g.addBlank c).length ≤ g.length + 1 := by
  unfold addBlank length
  split
  · exact Nat.le_succ _
  · simp only [List.length_cons]
    omega

theorem length_addBreak_le (g : Gap) (c : Char) : (g.addBreak c).length ≤ g.length + 1 := by
  have hc := length_breakText c
  unfold addBreak length
  split
  · simp only [List.length_append]
    omega
  · simp only [List.length_nil]
    omega

/-- What a gap stands for is no longer than what was read. -/
theorem length_reversed_le (g : Gap) : g.reversed.length ≤ g.length := by
  unfold reversed length
  split
  · split
    · rename_i hfirst
      rw [hfirst]
      split
      · simp only [List.length_singleton]
        omega
      · omega
    · rw [List.length_append]
      omega
  · omega

end Gap

/-! ## Plain scalars -/

@[simp] theorem PlainState.gap_behind (g : Gap) : (behind g).gap = g := rfl

@[simp] theorem PlainState.gap_inside : inside.gap = .empty := rfl

theorem plainFrom_length {inFlow : Bool} {leastColumn : Nat} {state : PlainState} {acc : List Char}
    {c d : Cursor} {text : List Char} {broken : Bool}
    (h : plainFrom inFlow leastColumn state acc c = some (text, broken, d)) :
    text.length + d.rest.length ≤ acc.length + state.gap.length + c.rest.length := by
  fun_induction plainFrom inFlow leastColumn state acc c with
  | case1 | case5 | case7 =>
    -- the scalar ends
    cases h
    rw [List.length_reverse]
    omega
  | case2 | case6 => cases h
  | case3 state acc c x r hc hx hgap ih =>
    have := ih h
    have := state.gap.length_addBlank_le x
    have := Cursor.length_rest_pos hc
    simp only [PlainState.gap_behind, Cursor.length_rest_advance] at *
    omega
  | case4 state acc c x r hc hx hbreak ih =>
    have := ih h
    have := state.gap.length_addBreak_le x
    have := Cursor.rest_nextLine_lt hc
    simp only [PlainState.gap_behind] at *
    omega
  | case8 state acc c x r hc hx hbreak hstop hcolon hend ih =>
    have := ih h
    have := state.gap.length_reversed_le
    have := Cursor.length_rest_pos hc
    simp only [PlainState.gap_inside, Gap.length_empty, Cursor.length_rest_advance,
      List.length_cons, List.length_append] at *
    omega

theorem plain?_length {inFlow : Bool} {leastColumn : Nat} {c d : Cursor} {text : List Char}
    {broken : Bool} (h : plain? inFlow leastColumn c = some (text, broken, d)) :
    text.length + d.rest.length ≤ c.rest.length := by
  have := plainFrom_length h
  simpa [PlainState.gap] using this

/-! ## Quoted scalars -/

theorem quotedFrom_length {double : Bool} {gap : Gap} {acc : List Char} {c d : Cursor}
    {text : List Char} (h : quotedFrom double gap acc c = some (text, d)) :
    text.length + d.rest.length ≤ acc.length + gap.length + c.rest.length := by
  fun_induction quotedFrom double gap acc c with
  | case1 | case4 | case6 | case8 => cases h
  | case2 gap acc c x r hc hx ih =>
    have := ih h
    have := gap.length_addBlank_le x
    have := Cursor.length_rest_pos hc
    simp only [Cursor.length_rest_advance] at *
    omega
  | case3 gap acc c x r hc hx hbreak ih =>
    have := ih h
    have := gap.length_addBreak_le x
    have := Cursor.rest_nextLine_lt hc
    omega
  | case5 gap acc c x r hc hx hbreak hmark acc' | case12 gap acc c x r hc hx hbreak hmark acc' =>
    -- the closing quote
    cases h
    have := gap.length_reversed_le
    simp only [acc', List.length_reverse, List.length_append, Cursor.length_rest_advance]
    omega
  | case7 gap acc c x r hc hx hbreak hmark acc' hdouble hquote hslash hnext e y s he ih =>
    -- an escaped line break
    have := ih h
    have := gap.length_reversed_le
    have := Cursor.rest_nextLine_lt he
    simp only [acc', e, Gap.length_escaped, Cursor.length_rest_advance, List.length_append] at *
    omega
  | case9 gap acc c x r hc hx hbreak hmark acc' hdouble hquote hslash hnext y n hy ih =>
    -- an escape of any length
    have := ih h
    have := gap.length_reversed_le
    have := Cursor.length_rest_pos hc
    simp only [acc', Gap.length_empty, Cursor.length_rest_advance, List.length_cons,
      List.length_append] at *
    omega
  | case10 gap acc c x r hc hx hbreak hmark acc' hdouble hquote hslash ih
  | case11 gap acc c x r hc hx hbreak hmark acc' hdouble hquote hnext ih
  | case13 gap acc c x r hc hx hbreak hmark acc' hdouble hquote ih =>
    -- one more character
    have := ih h
    have := gap.length_reversed_le
    have := Cursor.length_rest_pos hc
    simp only [acc', Gap.length_empty, Cursor.length_rest_advance, List.length_cons,
      List.length_append] at *
    omega

theorem quoted?_length {double : Bool} {c d : Cursor} {text : List Char}
    (h : quoted? double c = some (text, d)) : text.length + d.rest.length ≤ c.rest.length := by
  have := quotedFrom_length h
  simp only [List.length_nil, Gap.length_empty, Cursor.length_rest_advance] at this
  omega

/-! ## Block scalars -/

theorem blockHeader?_length {c d : Cursor} {k : Chomping} {depth : Option Nat}
    (h : blockHeader? c = some (k, depth, d)) : d.rest.length ≤ c.rest.length := by
  unfold blockHeader? at h
  split at h
  rename_i chomping depth' e he
  have hmarks : e.rest.length ≤ c.rest.length := by
    split at he
    · split at he <;> cases he <;> simp
    · split at he <;> cases he <;> simp
    · cases he
      exact le_rfl
  split at h
  · cases h
  · obtain ⟨f, hf, h⟩ := Option.bind_eq_some_iff.1 h
    cases h
    exact (Cursor.endLine?_length hf).trans hmarks

theorem indentation?_length {column : Option Nat} {deepest n : Nat} {breaks bs : List Char}
    {c d : Cursor} (h : indentation? column deepest breaks c = some (n, bs, d)) :
    bs.length + d.rest.length ≤ breaks.length + c.rest.length := by
  fun_induction indentation? column deepest breaks c with
  | case1 | case5 => 
    cases h
    rw [List.length_reverse]
  | case2 deepest breaks c within x r hc hx ih =>
    have := ih h
    rw [Cursor.length_rest_advance] at this
    omega
  | case3 => cases h
  | case4 deepest breaks c within x r hc hx htab hbreak ih =>
    have := ih h
    have := length_breakText x
    have := Cursor.rest_nextLine_lt hc
    rw [List.length_append] at *
    omega

namespace BlockText

/-- Characters that the text may still come to. -/
def length (t : BlockText) : Nat := t.reversed.length + t.lastBreak.length + t.empties.length

/-- A joint is no longer than the line breaks that it stands for. -/
theorem length_addLine_le (folded : Bool) (t : BlockText) (line lineBreak : List Char) :
    (t.addLine folded line lineBreak).length ≤ t.length + line.length + lineBreak.length := by
  have hjoint : ∀ blank : Bool,
      (if folded && t.lastBreak == ['\n'] && !t.blankStart && !blank then
        (if t.empties.isEmpty then [' '] else t.empties)
      else t.lastBreak ++ t.empties).length ≤ t.lastBreak.length + t.empties.length := by
    intro blank
    split
    · rename_i h
      simp only [Bool.and_eq_true, beq_iff_eq] at h
      rw [h.1.1.2]
      split
      · exact Nat.le_add_right _ _
      · exact Nat.le_add_left _ _
    · rw [List.length_append]
  have := hjoint ((line.head?).any isBlank)
  simp only [addLine, length, List.length_append, List.length_reverse, List.length_nil]
  omega

theorem length_chomp_le (k : Chomping) (t : BlockText) : (t.chomp k).length ≤ t.length := by
  unfold length
  cases k with
  | strip =>
    show t.reversed.reverse.length ≤ _
    rw [List.length_reverse]
    omega
  | clip =>
    show (t.reversed.reverse ++ t.lastBreak).length ≤ _
    rw [List.length_append, List.length_reverse]
    omega
  | keep =>
    show (t.reversed.reverse ++ t.lastBreak ++ t.empties).length ≤ _
    rw [List.length_append, List.length_append, List.length_reverse]

end BlockText

/-- A line break is as long as the step over it. -/
theorem Cursor.length_lineBreak_le (c : Cursor) :
    ((c.peek 0).map breakText |>.getD []).length +
      (if ((c.peek 0).map breakText |>.getD []).isEmpty then c else c.nextLine).rest.length ≤
        c.rest.length := by
  unfold peek
  cases hc : c.rest with
  | nil => simp [hc]
  | cons x r =>
    have hbreak := length_breakText x
    have hnext := rest_nextLine_lt hc
    have hne : (breakText x).isEmpty = false := by
      rw [List.isEmpty_eq_false_iff, ← List.length_pos_iff]
      omega
    simp only [List.getElem?_cons_zero, Option.map_some, Option.getD_some, hne]
    rw [hc] at hnext
    rw [hbreak]
    simp only [Bool.false_eq_true, if_false]
    omega

theorem blockLines?_length {folded : Bool} {column limit : Nat} {t u : BlockText} {c d : Cursor}
    (h : blockLines? folded column limit t c = some (u, d)) :
    u.length + d.rest.length ≤ t.length + c.rest.length := by
  induction limit generalizing t c with
  | zero => cases h
  | succ limit ih =>
    unfold blockLines? at h
    split at h
    · simp only [Option.bind_eq_bind, Option.bind_eq_some_iff, Prod.exists] at h
      obtain ⟨n, breaks, e, he, h⟩ := h
      have hrest := ih h
      have hbreaks := indentation?_length he
      have hline : (c.run (!isBreak ·)).length ≤ c.rest.length :=
        (List.takeWhile_prefix _).length_le
      have hadd := t.length_addLine_le folded (c.run (!isBreak ·))
        (((c.advance (c.run (!isBreak ·)).length).peek 0).map breakText |>.getD [])
      have hbreak := Cursor.length_lineBreak_le (c.advance (c.run (!isBreak ·)).length)
      rw [Cursor.length_rest_advance] at hbreak
      simp only [BlockText.length, BlockText.addLine, List.length_nil] at *
      omega
    · cases h
      exact le_rfl

theorem block?_length {folded : Bool} {leastColumn : Nat} {c d : Cursor} {text : List Char}
    (h : block? folded leastColumn c = some (text, d)) :
    text.length + d.rest.length ≤ c.rest.length := by
  simp only [block?, Option.bind_eq_bind, Option.bind_eq_some_iff, Option.pure_def,
    Option.some.injEq, Prod.mk.injEq, Prod.exists] at h
  obtain ⟨k, depth, c₁, h₁, n, breaks, c₂, h₂, t, c₃, h₃, rfl, rfl⟩ := h
  have h₁ := blockHeader?_length h₁
  have h₂ := indentation?_length h₂
  have h₃ := blockLines?_length h₃
  have := t.length_chomp_le k
  simp only [BlockText.length, List.length_nil, Cursor.length_rest_advance] at *
  omega

end AsmOrigin.Yaml
