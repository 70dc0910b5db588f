/-!
Blank characters: the Unicode property White_Space.

Everything that looks past blanks (words, ignored lines, required names) uses this one class.  It
contains the ASCII blanks, both line ends included, and no ASCII character that is printed.
-/

namespace AsmOrigin.Text

/-- U+0009 to U+000D, the spaces, and the line and paragraph separators. -/
def isBlank (c : Char) : Bool :=
  let n := c.toNat
  (0x09 ≤ n && n ≤ 0x0D) || n == 0x20 || n == 0x85 || n == 0xA0 || n == 0x1680 ||
    (0x2000 ≤ n && n ≤ 0x200A) || n == 0x2028 || n == 0x2029 || n == 0x202F || n == 0x205F ||
    n == 0x3000

/-- The text without its leading blanks. -/
def dropBlanks (cs : List Char) : List Char := cs.dropWhile isBlank

/-- A text of blanks only; the empty text is one. -/
def isBlankText (cs : List Char) : Bool := cs.all isBlank

theorem isBlankText_iff (cs : List Char) : isBlankText cs = true ↔ dropBlanks cs = [] := by
  simp only [isBlankText, dropBlanks]
  induction cs with
  | nil => simp
  | cons c r ih => by_cases h : isBlank c = true <;> simp [h, ih]

end AsmOrigin.Text
