import AsmOrigin.Text.Blank

/-!
Words: what stands between blanks.
-/

namespace AsmOrigin.Text

/-- The first run of characters that are not blank, if there is one. -/
def firstWord (cs : List Char) : Option (List Char) :=
  match dropBlanks cs with
  | [] => none
  | c :: r => some (c :: r.takeWhile (!isBlank ·))

/-- The pieces between the separators that `sep` names: one more than there are separators, each of
them possibly empty. -/
def splitAt (sep : Char → Bool) : List Char → List (List Char)
  | [] => [[]]
  | c :: r =>
    if sep c then [] :: splitAt sep r
    else match splitAt sep r with
      | [] => [[c]]
      | p :: ps => (c :: p) :: ps

end AsmOrigin.Text
