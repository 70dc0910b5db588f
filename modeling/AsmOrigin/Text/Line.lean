/-!
Lines of a text.

A text is cut after each line feed.  The line feed and one carriage return directly before it are
the line's ending and belong to no line; a last line that no line feed ends keeps every character it
has.  No other character separates lines.
-/

namespace AsmOrigin.Text

/-- The text cut after each line feed; the last piece may have none. -/
def segments : List Char → List (List Char)
  | [] => []
  | c :: r =>
    if c = '\n' then [c] :: segments r
    else match segments r with
      | [] => [[c]]
      | s :: ss => (c :: s) :: ss

/-- One piece without its ending: a line feed, or a carriage return and a line feed. -/
def dropEnding : List Char → List Char
  | [] => []
  | ['\n'] => []
  | ['\r', '\n'] => []
  | c :: r => c :: dropEnding r

def lines (cs : List Char) : List (List Char) := (segments cs).map dropEnding

/-- Cutting loses nothing. -/
theorem flatten_segments (cs : List Char) : (segments cs).flatten = cs := by
  induction cs with
  | nil => rfl
  | cons c r ih =>
    unfold segments
    split
    · simp [ih]
    · split <;> rename_i hs <;> rw [hs] at ih <;> simp_all

/-- Lines ended by a line feed each. -/
def unlines (ls : List (List Char)) : List Char := ls.flatMap (· ++ ['\n'])

end AsmOrigin.Text
