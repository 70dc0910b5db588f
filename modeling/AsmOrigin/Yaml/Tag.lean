import AsmOrigin.Yaml.Quoted

/-!
Names that YAML text gives to nodes: anchors, tags, and the directives that shorten tags.

A tag is a handle and the rest of the name.  Names are sequences of octets written with ASCII characters;
an octet beyond them is escaped, and stands here as the character of its number.  The octet zero ends a
name, whatever is written behind it.
-/

namespace AsmOrigin.Yaml

/-- A name of an anchor or an alias. -/
def anchorName? (c : Cursor) : Option (List Char × Cursor) :=
  let name := c.run isNameChar
  let c := c.advance name.length
  let ends := c.endsAt 0 ||
    (c.peek 0).any fun x => ['?', ':', ',', ']', '\x7d', '%', '@', '\x60'].contains x
  if name.isEmpty || !ends then none else some (name, c)

/-- What the names of tags are made of; commas and brackets only where nothing else is meant. -/
def isTagChar (verbatim : Bool) (x : Char) : Bool :=
  isNameChar x ||
    [';', '/', '?', ':', '@', '&', '=', '+', '$', '.', '%', '!', '~', '*', '\x27', '(', ')'].contains x ||
    (verbatim && (x == ',' || x == '[' || x == ']'))

/-- Octets that belong to one character, by the first of them. -/
def octetCount? (n : Nat) : Option Nat :=
  if n < 0x80 then some 1
  else if n < 0xC0 then none
  else if n < 0xE0 then some 2
  else if n < 0xF0 then some 3
  else if n < 0xF8 then some 4
  else none

/-- One escaped octet. -/
def octet? : List Char → Option (Nat × List Char)
  | '%' :: r => (hexNumber? 2 r).map fun n => (n, r.drop 2)
  | _ => none

/-- So many octets that continue a character. -/
def furtherOctets? : Nat → List Char → Option (List Char × List Char)
  | 0, cs => some ([], cs)
  | k + 1, cs => do
    let (n, r) ← octet? cs
    if n / 0x40 = 2 then
      let (ns, s) ← furtherOctets? k r
      return (Char.ofNat n :: ns, s)
    else none

/-- All escaped octets of one character. -/
def escapedOctets? (cs : List Char) : Option (List Char × List Char) := do
  let (n, r) ← octet? cs
  let (ns, s) ← furtherOctets? ((← octetCount? n) - 1) r
  return (Char.ofNat n :: ns, s)

/-- Part of a tag's name with its escapes resolved; `limit` bounds its length. -/
def tagText? (verbatim : Bool) : Nat → List Char → Option (List Char × List Char)
  | 0, cs => some ([], cs)
  | limit + 1, cs =>
    match cs with
    | [] => some ([], [])
    | x :: r =>
      if !isTagChar verbatim x then some ([], cs)
      else if x == '%' then do
        let (ns, s) ← escapedOctets? cs
        let (t, s) ← tagText? verbatim limit s
        return (ns ++ t, s)
      else do
        let (t, s) ← tagText? verbatim limit r
        return (x :: t, s)

/-- Part of a tag's name at a cursor. -/
def tagTextAt? (verbatim : Bool) (c : Cursor) : Option (List Char × Cursor) := do
  let (t, r) ← tagText? verbatim c.rest.length c.rest
  return (t, c.advance (c.rest.length - r.length))

/-- The name that a text stands for: all before the first zero. -/
def nameOf (t : List Char) : List Char := t.takeWhile (· != '\x00')

/-- An exclamation mark, a name, and a second mark if there is one. -/
def tagHandle? (c : Cursor) : Option (List Char × Cursor) :=
  if c.has 0 '!' then
    let name := (c.advance 1).run isNameChar
    let d := c.advance (name.length + 1)
    if d.has 0 '!' then some ('!' :: name ++ ['!'], d.advance 1) else some ('!' :: name, d)
  else none

/-- A tag as written: its handle and the rest of its name. -/
structure Tag where
  handle : List Char
  suffix : List Char
  deriving DecidableEq

/-- A tag from its exclamation mark on. -/
def tag? (inFlow : Bool) (c : Cursor) : Option (Tag × Cursor) := do
  let (tag, c) ←
    if c.has 1 '<' then do
      let (t, d) ← tagTextAt? true (c.advance 2)
      if t.isEmpty || !d.has 0 '>' then none else pure (Tag.mk [] (nameOf t), d.advance 1)
    else do
      let (handle, d) ← tagHandle? c
      let (t, d) ← tagTextAt? false d
      if 1 < handle.length && handle.getLast? == some '!' then
        if t.isEmpty then none else pure (Tag.mk handle (nameOf t), d)
      else
        let suffix := nameOf (handle.drop 1 ++ t)
        pure (if suffix.isEmpty then Tag.mk [] ['!'] else Tag.mk ['!'] suffix, d)
  if c.endsAt 0 || (inFlow && c.has 0 ',') then return (tag, c) else none

/-! ## Directives -/

/-- A line before a document that tells how to read it. -/
inductive Directive where
  | version (major minor : Nat)
  | tag (handle target : List Char)
  deriving DecidableEq

/-- A number of at most nine digits. -/
def versionNumber? (c : Cursor) : Option (Nat × Cursor) :=
  let ds := c.run Char.isDigit
  if ds.isEmpty || 9 < ds.length then none
  else some (ds.foldl (fun n d => 10 * n + (d.toNat - '0'.toNat)) 0, c.advance ds.length)

def versionDirective? (c : Cursor) : Option (Directive × Cursor) := do
  let (major, c) ← versionNumber? (c.advanceWhile isBlank)
  if c.has 0 '.' then
    let (minor, c) ← versionNumber? (c.advance 1)
    return (.version major minor, c)
  else none

def tagDirective? (c : Cursor) : Option (Directive × Cursor) := do
  let (handle, c) ← tagHandle? (c.advanceWhile isBlank)
  if 1 < handle.length && handle.getLast? != some '!' then none
  else if !(c.peek 0).any isBlank then none
  else
    let (target, c) ← tagTextAt? true (c.advanceWhile isBlank)
    if target.isEmpty || !c.endsAt 0 then none else return (.tag handle (nameOf target), c)

/-- A directive from its percent sign to the end of its line. -/
def directive? (c : Cursor) : Option (Directive × Cursor) := do
  let name := (c.advance 1).run isNameChar
  let c := c.advance (name.length + 1)
  if name.isEmpty || !c.endsAt 0 then none
  else
    let (d, c) ←
      if name = ['Y', 'A', 'M', 'L'] then versionDirective? c
      else if name = ['T', 'A', 'G'] then tagDirective? c
      else none
    return (d, ← c.endLine?)

end AsmOrigin.Yaml
