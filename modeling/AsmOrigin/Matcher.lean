import AsmOrigin.Text.Alphanumeric
import AsmOrigin.Text.Blank
import AsmOrigin.Text.Substring
import AsmOrigin.Text.Word

/-!
Mention matchers: what it means that a line or a listing mentions a name.

Register mentions, jump and call lines and the runtime signatures all ask the matcher, so a stricter
one can take the place of plain substring search without a change to the fingerprint layout.
-/

namespace AsmOrigin

/-- `mentions haystack needle` and the number of mentions that do not overlap. -/
structure Matcher where
  mentions : List Char → List Char → Bool
  occurrences : List Char → List Char → Nat

namespace Matcher

/-- The needle anywhere, also inside an unrelated word. -/
def substring : Matcher where
  mentions haystack needle := Text.contains needle haystack
  occurrences haystack needle := Text.count needle haystack

/-- The needle as one whole piece between blanks and commas. -/
def operand : Matcher where
  mentions haystack needle := (pieces haystack).contains needle
  occurrences haystack needle := (pieces haystack).count needle
where
  pieces (haystack : List Char) : List (List Char) :=
    Text.splitAt (fun c => Text.isBlank c || c == ',') haystack

/-- The needle as one whole word.  A dot belongs to a word that is looked for and separates words that
are counted. -/
def word : Matcher where
  mentions haystack needle :=
    (Text.splitAt (fun c => !(isWordChar c || c == '.')) haystack).contains needle
  occurrences haystack needle := (Text.splitAt (!isWordChar ·) haystack).count needle
where
  isWordChar (c : Char) : Bool := Text.isAlphanumeric c || c == '_'

end Matcher

end AsmOrigin
