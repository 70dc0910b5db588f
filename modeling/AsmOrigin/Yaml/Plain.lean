import AsmOrigin.Yaml.Gap

/-!
Plain scalars: text without quotes.

A plain scalar ends at a colon before a blank, at a comment, at a document mark, within brackets also at a
comma or a bracket, and outside of them where a line is not indented enough.
-/

namespace AsmOrigin.Yaml

/-- Characters that cannot begin a plain scalar. -/
def indicators : List Char :=
  ['-', '?', ':', ',', '[', ']', '\x7b', '\x7d', '#', '&', '*', '!', '|', '>', '\x27', '"', '%', '@',
    '\x60']

/-- A plain scalar can begin here. -/
def startsPlain (inFlow : Bool) (c : Cursor) : Bool :=
  match c.peek 0 with
  | none => false
  | some x =>
    (!isBlankOrBreak x && !indicators.contains x) ||
      (x == '-' && !(c.peek 1).any isBlank) ||
      (!inFlow && (x == '?' || x == ':') && !c.endsAt 1)

/-- Brackets and commas, which have a meaning of their own within a flow collection. -/
def isFlowIndicator (x : Char) : Bool :=
  x == ',' || x == '[' || x == ']' || x == '\x7b' || x == '\x7d'

/-- A colon glued to a flow indicator, which is refused. -/
def atGluedColon (inFlow : Bool) (c : Cursor) : Bool :=
  inFlow && c.has 0 ':' && (c.peek 1).any fun x => isFlowIndicator x || x == '?'

/-- A plain scalar ends before this character of a line. -/
def endsPlain (inFlow : Bool) (c : Cursor) : Bool :=
  (c.has 0 ':' && c.endsAt 1) || (inFlow && (c.peek 0).any isFlowIndicator)

/-- Where the reader of a plain scalar stands: before it, in it, or behind a gap. -/
inductive PlainState where
  | start
  | inside
  | behind (gap : Gap)

namespace PlainState

def gap : PlainState → Gap
  | behind g => g
  | _ => .empty

/-- The scalar ends here at the latest, since this is no continuation of it. -/
def stops (inFlow : Bool) (leastColumn : Nat) (c : Cursor) : PlainState → Bool
  | start => c.atDocumentMark || c.has 0 '#'
  | inside => false
  | behind _ => (!inFlow && c.column < leastColumn) || c.atDocumentMark || c.has 0 '#'

end PlainState

/-- The text read so far is `acc`, last character first.  The answer tells also whether a line break was
read behind the last character. -/
def plainFrom (inFlow : Bool) (leastColumn : Nat) (state : PlainState) (acc : List Char) (c : Cursor) :
    Option (List Char × Bool × Cursor) :=
  match _h : c.rest with
  | [] => some (acc.reverse, state.gap.broken, c)
  | x :: _ =>
    if isBlank x then
      if x == '\t' && state.gap.broken && c.column < leastColumn then none
      else plainFrom inFlow leastColumn (.behind (state.gap.addBlank x)) acc (c.advance 1)
    else if isBreak x then
      plainFrom inFlow leastColumn (.behind (state.gap.addBreak x)) acc c.nextLine
    else if state.stops inFlow leastColumn c then some (acc.reverse, state.gap.broken, c)
    else if atGluedColon inFlow c then none
    else if endsPlain inFlow c then some (acc.reverse, state.gap.broken, c)
    else plainFrom inFlow leastColumn .inside (x :: (state.gap.reversed ++ acc)) (c.advance 1)
termination_by c.rest.length
decreasing_by
  · exact Cursor.rest_advance_lt _h 0
  · exact Cursor.rest_nextLine_lt _h
  · exact Cursor.rest_advance_lt _h 0

/-- A plain scalar whose continuation lines are indented by `leastColumn` at least. -/
def plain? (inFlow : Bool) (leastColumn : Nat) (c : Cursor) : Option (List Char × Bool × Cursor) :=
  plainFrom inFlow leastColumn .start [] c

end AsmOrigin.Yaml
