import AsmOrigin.Json.Basic

/-!
JSON text of a value, compact or indented.

In strings the quote, the backslash and the characters below U+0020 are escaped, everything else stands
as it is.
-/

namespace AsmOrigin.Json

def hexDigit (n : Nat) : Char := (Nat.toDigits 16 n).getD 0 '0'

/-- A character as it stands in a string. -/
def escape (c : Char) : List Char :=
  if c = '"' then ['\\', '"']
  else if c = '\\' then ['\\', '\\']
  else if c = '\n' then ['\\', 'n']
  else if c = '\r' then ['\\', 'r']
  else if c = '\t' then ['\\', 't']
  else if c = '\x08' then ['\\', 'b']
  else if c = '\x0c' then ['\\', 'f']
  else if c.toNat < 0x20 then
    ['\\', 'u', '0', '0', hexDigit (c.toNat / 16), hexDigit (c.toNat % 16)]
  else [c]

def quote (s : List Char) : List Char := '"' :: s.flatMap escape ++ ['"']

def quoteContent (s : Option String) : List Char := quote (s.getD "").toList

/-- Texts one after the other with a separator between them. -/
def joined (sep : List Char) : List (List Char) → List Char
  | [] => []
  | [x] => x
  | x :: xs => x ++ sep ++ joined sep xs

/-! ## Compact text -/

mutual

def compact : Json → List Char
  | null => "null".toList
  | bool true => "true".toList
  | bool false => "false".toList
  | number n => n.text
  | text s => quoteContent s
  | list items => '[' :: joined [','] (compactItems items) ++ [']']
  | object members => '\x7b' :: joined [','] (compactMembers members) ++ ['\x7d']

def compactItems : List Json → List (List Char)
  | [] => []
  | v :: r => compact v :: compactItems r

def compactMembers : List (Option String × Json) → List (List Char)
  | [] => []
  | (k, v) :: r => (quoteContent k ++ ':' :: compact v) :: compactMembers r

end

/-! ## Indented text -/

/-- A new line at the given depth, two blanks each. -/
def newLine (depth : Nat) : List Char := '\n' :: List.replicate (2 * depth) ' '

/-- Parts on a line each between brackets; without parts the brackets stand together. -/
def block (opening closing : Char) (depth : Nat) (parts : List (List Char)) : List Char :=
  if parts.isEmpty then [opening, closing]
  else
    opening :: newLine (depth + 1) ++ joined (',' :: newLine (depth + 1)) parts ++ newLine depth ++
      [closing]

mutual

def indented (depth : Nat) : Json → List Char
  | null => "null".toList
  | bool true => "true".toList
  | bool false => "false".toList
  | number n => n.text
  | text s => quoteContent s
  | list items => block '[' ']' depth (indentedItems (depth + 1) items)
  | object members => block '\x7b' '\x7d' depth (indentedMembers (depth + 1) members)

def indentedItems (depth : Nat) : List Json → List (List Char)
  | [] => []
  | v :: r => indented depth v :: indentedItems depth r

def indentedMembers (depth : Nat) : List (Option String × Json) → List (List Char)
  | [] => []
  | (k, v) :: r => (quoteContent k ++ ':' :: ' ' :: indented depth v) :: indentedMembers depth r

end

def print (v : Json) : String := String.ofList v.compact

def prettyPrint (v : Json) : String := String.ofList (v.indented 0)

end AsmOrigin.Json
