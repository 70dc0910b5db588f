import AsmOrigin.Json.Basic
import AsmOrigin.Json.Reader

/-!
The grammar of JSON (RFC 8259), by the texts that each value has.

A value has many texts: blanks may stand around every token, a character may be written as it is, by an
escape of one letter or by its UTF-16 units in hexadecimal, and the power of a number has several forms.
A string in which a unit of a surrogate pair stands alone has no content.
-/

namespace AsmOrigin.Json

/-- What may stand between tokens. -/
def Blank (cs : List Char) : Prop := ∀ c ∈ cs, c = ' ' ∨ c = '\t' ∨ c = '\n' ∨ c = '\r'

theorem blank_nil : Blank [] := fun _ hc => absurd hc List.not_mem_nil

/-! ## Strings -/

/-- Escapes of one letter, and the characters they stand for. -/
def letterEscapes : List (Char × Char) :=
  [('"', '"'), ('\\', '\\'), ('/', '/'), ('b', '\x08'), ('f', '\x0c'), ('n', '\n'), ('r', '\r'),
    ('t', '\t')]

/-- A hexadecimal digit of either case. -/
def IsHexDigit (c : Char) (n : Nat) : Prop :=
  "0123456789abcdef".toList[n]? = some c ∨ "0123456789ABCDEF".toList[n]? = some c

/-- The characters between the quotes of a string spell these units. -/
inductive Spells : List Char → List TextUnit → Prop where
  | nil : Spells [] []
  | plain {c : Char} {cs : List Char} {us : List TextUnit} (hc : 0x20 ≤ c.toNat)
      (hquote : c ≠ '"') (hslash : c ≠ '\\') (h : Spells cs us) : Spells (c :: cs) (.char c :: us)
  | letter {e c : Char} {cs : List Char} {us : List TextUnit} (he : (e, c) ∈ letterEscapes)
      (h : Spells cs us) : Spells ('\\' :: e :: cs) (.char c :: us)
  | unit {a b c d : Char} {w x y z : Nat} {cs : List Char} {us : List TextUnit}
      (ha : IsHexDigit a w) (hb : IsHexDigit b x) (hc : IsHexDigit c y) (hd : IsHexDigit d z)
      (h : Spells cs us) :
      Spells ('\\' :: 'u' :: a :: b :: c :: d :: cs)
        (.unit (w * 0x1000 + x * 0x100 + y * 0x10 + z) :: us)

/-- The units stand for these characters, those above U+FFFF as surrogate pairs. -/
inductive StandsFor : List TextUnit → List Char → Prop where
  | nil : StandsFor [] []
  | char {c : Char} {us : List TextUnit} {cs : List Char} (h : StandsFor us cs) :
      StandsFor (.char c :: us) (c :: cs)
  | unit {c : Char} {us : List TextUnit} {cs : List Char} (hc : c.toNat < 0x10000)
      (h : StandsFor us cs) : StandsFor (.unit c.toNat :: us) (c :: cs)
  | pair {c : Char} {us : List TextUnit} {cs : List Char} (hc : 0x10000 ≤ c.toNat)
      (h : StandsFor us cs) :
      StandsFor (.unit (0xD800 + (c.toNat - 0x10000) / 0x400) ::
        .unit (0xDC00 + (c.toNat - 0x10000) % 0x400) :: us) (c :: cs)

/-- Content of a string with these units. -/
inductive HasContent (us : List TextUnit) : Option String → Prop where
  | some {s : String} (h : StandsFor us s.toList) : HasContent us (some s)
  | none (h : ∀ cs, ¬ StandsFor us cs) : HasContent us none

/-- A string between its quotes. -/
def IsString (content : Option String) (cs : List Char) : Prop :=
  ∃ body us, cs = '"' :: (body ++ ['"']) ∧ Spells body us ∧ HasContent us content

/-! ## Numbers -/

namespace Numeral

def Digits (ds : List Char) : Prop := ds ≠ [] ∧ ∀ c ∈ ds, c.isDigit = true

/-- Decimals with the point before them. -/
inductive DecimalsText : List Char → List Char → Prop where
  | none : DecimalsText [] []
  | some {ds : List Char} (hds : Digits ds) : DecimalsText ds ('.' :: ds)

/-- A power of ten; the positive sign may be left out. -/
inductive PowerText : Option (Bool × List Char) → List Char → Prop where
  | none : PowerText none []
  | below {e : Char} {ds : List Char} (he : e = 'e' ∨ e = 'E') (hds : Digits ds) :
      PowerText (some (true, ds)) (e :: '-' :: ds)
  | above {e : Char} {sign ds : List Char} (he : e = 'e' ∨ e = 'E')
      (hsign : sign = [] ∨ sign = ['+']) (hds : Digits ds) :
      PowerText (some (false, ds)) (e :: (sign ++ ds))

/-- A text of the numeral; its integer digits start with a zero only if that is all of them. -/
def IsText (n : Numeral) (cs : List Char) : Prop :=
  ∃ decimals power, cs = (if n.negative then ['-'] else []) ++ n.whole ++ decimals ++ power ∧
    Digits n.whole ∧ (n.whole.head? = some '0' → n.whole = ['0']) ∧
    DecimalsText n.decimals decimals ∧ PowerText n.power power

end Numeral

/-! ## Values -/

mutual

/-- A text of the value, without blanks around it. -/
inductive IsText : Json → List Char → Prop where
  | null : IsText null ['n', 'u', 'l', 'l']
  | true : IsText (bool true) ['t', 'r', 'u', 'e']
  | false : IsText (bool false) ['f', 'a', 'l', 's', 'e']
  | number {n : Numeral} {cs : List Char} (h : n.IsText cs) : IsText (number n) cs
  | text {content : Option String} {cs : List Char} (h : IsString content cs) :
      IsText (text content) cs
  | emptyList {a : List Char} (ha : Blank a) : IsText (list []) ('[' :: (a ++ [']']))
  | list {vs : List Json} {a cs b : List Char} (ha : Blank a) (h : AreItems vs cs) (hb : Blank b) :
      IsText (list vs) ('[' :: (a ++ (cs ++ (b ++ [']']))))
  | emptyObject {a : List Char} (ha : Blank a) : IsText (object []) ('\x7b' :: (a ++ ['\x7d']))
  | object {ms : List (Option String × Json)} {a cs b : List Char} (ha : Blank a)
      (h : AreMembers ms cs) (hb : Blank b) :
      IsText (object ms) ('\x7b' :: (a ++ (cs ++ (b ++ ['\x7d']))))

/-- Items with commas between them. -/
inductive AreItems : List Json → List Char → Prop where
  | one {v : Json} {cs : List Char} (h : IsText v cs) : AreItems [v] cs
  | more {v : Json} {vs : List Json} {cs a b ds : List Char} (h : IsText v cs) (ha : Blank a)
      (hb : Blank b) (hr : AreItems vs ds) : AreItems (v :: vs) (cs ++ (a ++ ',' :: (b ++ ds)))

/-- A key and a value with a colon between them. -/
inductive IsMember : Option String × Json → List Char → Prop where
  | mk {key : Option String} {v : Json} {ks a b cs : List Char} (hk : IsString key ks)
      (ha : Blank a) (hb : Blank b) (hv : IsText v cs) :
      IsMember (key, v) (ks ++ (a ++ ':' :: (b ++ cs)))

/-- Members with commas between them. -/
inductive AreMembers : List (Option String × Json) → List Char → Prop where
  | one {m : Option String × Json} {cs : List Char} (h : IsMember m cs) : AreMembers [m] cs
  | more {m : Option String × Json} {ms : List (Option String × Json)} {cs a b ds : List Char}
      (h : IsMember m cs) (ha : Blank a) (hb : Blank b) (hr : AreMembers ms ds) :
      AreMembers (m :: ms) (cs ++ (a ++ ',' :: (b ++ ds)))

end

/-- A whole text of the value. -/
def IsDocument (v : Json) (s : String) : Prop :=
  ∃ a cs b, s.toList = a ++ (cs ++ b) ∧ Blank a ∧ IsText v cs ∧ Blank b

end AsmOrigin.Json
