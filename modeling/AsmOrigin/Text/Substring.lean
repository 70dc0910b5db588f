/-!
Occurrences of one text in another.

`contains` asks for one position; `count` is the number found by reading from left to right and going
on behind each occurrence, so that no two of those counted share a character.
-/

namespace AsmOrigin.Text

/-- The needle stands at the front of the text. -/
def startsWith (needle : List Char) (cs : List Char) : Bool := needle.isPrefixOf cs

/-- The needle stands somewhere in the text. -/
def contains (needle : List Char) : List Char → Bool
  | [] => needle.isEmpty
  | c :: r => startsWith needle (c :: r) || contains needle r

/-- Occurrences met from left to right, where `skip` characters still belong to the last one. -/
def countFrom (needle : List Char) : Nat → List Char → Nat
  | _, [] => 0
  | skip + 1, _ :: r => countFrom needle skip r
  | 0, c :: r =>
    if startsWith needle (c :: r) then 1 + countFrom needle (needle.length - 1) r
    else countFrom needle 0 r

/-- Occurrences that do not overlap; the empty needle has none. -/
def count (needle cs : List Char) : Nat :=
  if needle.isEmpty then 0 else countFrom needle 0 cs

end AsmOrigin.Text
