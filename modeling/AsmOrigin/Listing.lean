import AsmOrigin.Text.Line
import AsmOrigin.Text.Blank
import AsmOrigin.Text.Word
import AsmOrigin.Text.Lower

/-!
Assembly listings: which lines of a compiler's output are instructions.

A line is ignored if it is blank or if its first character that is not blank is `#` (a comment) or `.`
(a directive or a local label).  Stripping a listing keeps its other lines, each ended by a line feed.
-/

namespace AsmOrigin.Listing

/-- A line that carries no instruction. -/
def isIgnored (line : List Char) : Bool :=
  match Text.dropBlanks line with
  | [] => true
  | c :: _ => c == '#' || c == '.'

/-- The lines that carry an instruction. -/
def instructions (listing : List Char) : List (List Char) :=
  (Text.lines listing).filter (!isIgnored ·)

/-- The listing without its ignored lines. -/
def strip (listing : String) : String :=
  String.ofList (Text.unlines (instructions listing.toList))

/-- The mnemonic of an instruction: its first word in lower case. -/
def mnemonic (line : List Char) : Option String :=
  (Text.firstWord line).map (fun w => String.ofList (Text.lower w))

theorem firstWord_isSome_of_not_isIgnored {line : List Char} (h : isIgnored line = false) :
    (Text.firstWord line).isSome = true := by
  unfold isIgnored at h
  unfold Text.firstWord
  cases hd : Text.dropBlanks line with
  | nil => simp [hd] at h
  | cons c r => rfl

end AsmOrigin.Listing
