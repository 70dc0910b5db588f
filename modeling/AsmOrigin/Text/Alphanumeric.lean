import AsmOrigin.Text.AlphanumericTable
import AsmOrigin.Text.Lower

/-!
Letters and digits of all scripts.
-/

namespace AsmOrigin.Text

/-- A character that is alphabetic (property Alphabetic) or numeric (general category N). -/
def isAlphanumeric (c : Char) : Bool :=
  if c.toNat < 0x80 then c.isAlphanum else inRanges alphanumericRanges c.toNat

end AsmOrigin.Text
