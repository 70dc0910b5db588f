import AsmOrigin.Yaml.Cursor

/-!
Line folding: what the blanks and line breaks between two parts of a scalar mean.

Blanks within a line stay.  A single line feed becomes a blank, further line breaks stay, and the blanks
around line breaks are dropped.
-/

namespace AsmOrigin.Yaml

structure Gap where
  /-- Blanks before the first line break, last one first. -/
  blanks : List Char
  /-- A line break was met, perhaps one that was escaped. -/
  broken : Bool
  /-- The first line break, unless it was escaped. -/
  first : List Char
  /-- All further line breaks, last one first. -/
  further : List Char

namespace Gap

def empty : Gap := ⟨[], false, [], []⟩

/-- A gap that begins with an escaped line break. -/
def escaped : Gap := ⟨[], true, [], []⟩

def addBlank (g : Gap) (c : Char) : Gap :=
  if g.broken then g else { g with blanks := c :: g.blanks }

def addBreak (g : Gap) (c : Char) : Gap :=
  if g.broken then { g with further := breakText c ++ g.further }
  else { g with blanks := [], broken := true, first := breakText c }

/-- The text that the gap stands for, last character first. -/
def reversed (g : Gap) : List Char :=
  if g.broken then
    if g.first = ['\n'] then (if g.further.isEmpty then [' '] else g.further)
    else g.further ++ g.first
  else g.blanks

end Gap

end AsmOrigin.Yaml
