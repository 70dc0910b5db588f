import AsmOrigin.Json.Numeral

/-!
Serialised values: the tree that a JSON text describes.

Objects keep their members as written, repeated ones included.  A text is `none` where one of its escapes
is half of a surrogate pair: such a text may stand in a value that nobody reads, and nowhere else.
-/

namespace AsmOrigin

inductive Json where
  | null
  | bool (value : Bool)
  | number (numeral : Json.Numeral)
  | text (content : Option String)
  | list (items : List Json)
  | object (members : List (Option String × Json))

namespace Json

def ofText (s : String) : Json := text (some s)

def ofNat (n : Nat) : Json := number (.ofNat n)

/-- What is not a number or not finite becomes null. -/
def ofFloat (x : Float) : Json := if x.isFinite then number (.ofFloat x) else null

def ofList {α : Type} (item : α → Json) (xs : List α) : Json := list (xs.map item)

/-- An object with readable keys. -/
def ofMembers (ms : List (String × Json)) : Json := object (ms.map fun m => (some m.1, m.2))

end Json

end AsmOrigin
