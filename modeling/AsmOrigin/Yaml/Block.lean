import AsmOrigin.Yaml.Gap

/-!
Block scalars: indented lines, kept as they are or folded.

The header names the style, and may say how the final line breaks are chomped and how deep the lines are
indented.  Without the latter the first line that is not empty decides.
-/

namespace AsmOrigin.Yaml

/-- What becomes of the line breaks at the end: none stays, one stays, all stay. -/
inductive Chomping where
  | strip
  | clip
  | keep
  deriving DecidableEq

def chomping? : Option Char → Option Chomping
  | some '-' => some .strip
  | some '+' => some .keep
  | _ => none

/-- An indentation of one to nine columns. -/
def depth? (x : Option Char) : Option Nat :=
  x.bind fun x => if '0' ≤ x ∧ x ≤ '9' then some (x.toNat - '0'.toNat) else none

/-- Chomping and depth, in either order, each of them optional; a depth of zero is refused. -/
def blockHeader? (c : Cursor) : Option (Chomping × Option Nat × Cursor) := do
  let (chomping, depth, c) := match chomping? (c.peek 0), depth? (c.peek 0) with
    | some k, _ =>
      match depth? (c.peek 1) with
      | some n => (k, some n, c.advance 2)
      | none => (k, none, c.advance 1)
    | none, some n =>
      match chomping? (c.peek 1) with
      | some k => (k, some n, c.advance 2)
      | none => (.clip, some n, c.advance 1)
    | none, none => (.clip, none, c)
  if depth = some 0 then none
  else return (chomping, depth, ← c.endLine?)

/-- Moves over indentation and empty lines.  The answer has the deepest column reached and the line breaks
met, which are collected in `breaks`, last one first. -/
def indentation? (column : Option Nat) (deepest : Nat) (breaks : List Char) (c : Cursor) :
    Option (Nat × List Char × Cursor) :=
  let within := column.all (c.column < ·)
  match _h : c.rest with
  | [] => some (max deepest c.column, breaks.reverse, c)
  | x :: _ =>
    if within && x == ' ' then indentation? column deepest breaks (c.advance 1)
    else if within && x == '\t' then none
    else if isBreak x then
      indentation? column (max deepest c.column) (breakText x ++ breaks) c.nextLine
    else some (max deepest c.column, breaks.reverse, c)
termination_by c.rest.length
decreasing_by
  · exact Cursor.rest_advance_lt _h 0
  · exact Cursor.rest_nextLine_lt _h

/-- Text read so far, the break of its last line, and the empty lines since. -/
structure BlockText where
  /-- Last character first. -/
  reversed : List Char
  lastBreak : List Char
  empties : List Char
  /-- The last line begins with a blank. -/
  blankStart : Bool

namespace BlockText

/-- Joins the next line; a folded one is joined by a blank, unless it or the last one begins with a
blank. -/
def addLine (folded : Bool) (t : BlockText) (line lineBreak : List Char) : BlockText :=
  let blank := (line.head?).any isBlank
  let joint :=
    if folded && t.lastBreak == ['\n'] && !t.blankStart && !blank then
      (if t.empties.isEmpty then [' '] else t.empties)
    else t.lastBreak ++ t.empties
  { reversed := line.reverse ++ joint.reverse ++ t.reversed
    lastBreak := lineBreak
    empties := []
    blankStart := blank }

def chomp (k : Chomping) (t : BlockText) : List Char :=
  match k with
  | .strip => t.reversed.reverse
  | .clip => t.reversed.reverse ++ t.lastBreak
  | .keep => t.reversed.reverse ++ t.lastBreak ++ t.empties

end BlockText

/-- The lines indented by `column`, at most `limit` of them. -/
def blockLines? (folded : Bool) (column : Nat) : Nat → BlockText → Cursor → Option (BlockText × Cursor)
  | 0, _, _ => none
  | limit + 1, t, c =>
    if c.column = column ∧ c.rest ≠ [] then do
      let line := c.run (!isBreak ·)
      let c := c.advance line.length
      let lineBreak := ((c.peek 0).map breakText).getD []
      let (_, breaks, c) ←
        indentation? (some column) 0 [] (if lineBreak.isEmpty then c else c.nextLine)
      blockLines? folded column limit { t.addLine folded line lineBreak with empties := breaks } c
    else some (t, c)

/-- A block scalar from its style mark on, within blocks whose contents stand at `leastColumn` or
deeper. -/
def block? (folded : Bool) (leastColumn : Nat) (c : Cursor) : Option (List Char × Cursor) := do
  let (chomping, depth, c) ← blockHeader? (c.advance 1)
  let given := depth.map (leastColumn - 1 + ·)
  let (deepest, breaks, c) ← indentation? given 0 [] c
  let column := given.getD (max 1 (max leastColumn deepest))
  let (t, c) ← blockLines? folded column (c.rest.length + 1) ⟨[], [], breaks, false⟩ c
  return (t.chomp chomping, c)

end AsmOrigin.Yaml
