import AsmOrigin.Json.Basic

/-!
Reading JSON text.

The grammar is the strict one: no comments, no trailing commas, no control characters in strings, nothing
but blanks after the value.  Values may be nested to any depth.
-/

namespace AsmOrigin.Json

def isSpace (c : Char) : Bool := c == ' ' || c == '\n' || c == '\t' || c == '\r'

def skipSpace (cs : List Char) : List Char := cs.dropWhile isSpace

/-! ## Strings -/

/-- What a string is made of: characters that stand for themselves or have a short escape, and 16-bit
units written in hexadecimal. -/
inductive TextUnit where
  | char (c : Char)
  | unit (n : Nat)
  deriving DecidableEq

def hexValue? (c : Char) : Option Nat :=
  if '0' ≤ c ∧ c ≤ '9' then some (c.toNat - '0'.toNat)
  else if 'a' ≤ c ∧ c ≤ 'f' then some (c.toNat - 'a'.toNat + 10)
  else if 'A' ≤ c ∧ c ≤ 'F' then some (c.toNat - 'A'.toNat + 10)
  else none

def unit? (a b c d : Char) : Option Nat := do
  return (← hexValue? a) * 4096 + (← hexValue? b) * 256 + (← hexValue? c) * 16 + (← hexValue? d)

def shortEscape? (c : Char) : Option Char :=
  if c = '"' ∨ c = '\\' ∨ c = '/' then some c
  else if c = 'b' then some '\x08'
  else if c = 'f' then some '\x0c'
  else if c = 'n' then some '\n'
  else if c = 'r' then some '\r'
  else if c = 't' then some '\t'
  else none

/-- The rest of a string up to its closing quote, and what follows that. -/
def textUnits : List Char → Option (List TextUnit × List Char)
  | [] => none
  | '"' :: r => some ([], r)
  | '\\' :: 'u' :: a :: b :: c :: d :: r =>
    match unit? a b c d, textUnits r with
    | some n, some (us, t) => some (.unit n :: us, t)
    | _, _ => none
  | '\\' :: c :: r =>
    match shortEscape? c, textUnits r with
    | some e, some (us, t) => some (.char e :: us, t)
    | _, _ => none
  | c :: r =>
    if c = '\\' ∨ c.toNat < 0x20 then none
    else match textUnits r with
      | some (us, t) => some (.char c :: us, t)
      | none => none

def isLeading (n : Nat) : Bool := 0xD800 ≤ n && n < 0xDC00

def isTrailing (n : Nat) : Bool := 0xDC00 ≤ n && n < 0xE000

/-- The characters, two surrogate units making one; a unit without its partner is none. -/
def characters? : List TextUnit → Option (List Char)
  | [] => some []
  | .char c :: r => (characters? r).map (c :: ·)
  | .unit n :: .unit m :: r =>
    if isLeading n then
      if isTrailing m then
        (characters? r).map (Char.ofNat (0x10000 + (n - 0xD800) * 0x400 + (m - 0xDC00)) :: ·)
      else none
    else if isTrailing n then none
    else (characters? (.unit m :: r)).map (Char.ofNat n :: ·)
  | .unit n :: r =>
    if isLeading n || isTrailing n then none else (characters? r).map (Char.ofNat n :: ·)

def readText? (cs : List Char) : Option (Option String × List Char) :=
  (textUnits cs).map fun (us, r) => ((characters? us).map String.ofList, r)

/-! ## Values -/

mutual

/-- The value at the front of a text; `fuel` bounds its depth. -/
def readValue? : Nat → List Char → Option (Json × List Char)
  | 0, _ => none
  | fuel + 1, cs =>
    match skipSpace cs with
    | '"' :: r => (readText? r).map fun (s, t) => (text s, t)
    | '[' :: r =>
      match skipSpace r with
      | ']' :: t => some (list [], t)
      | t => (readItems? fuel t).map fun (vs, u) => (list vs, u)
    | '\x7b' :: r =>
      match skipSpace r with
      | '\x7d' :: t => some (object [], t)
      | t => (readMembers? fuel t).map fun (ms, u) => (object ms, u)
    | 'n' :: 'u' :: 'l' :: 'l' :: r => some (null, r)
    | 't' :: 'r' :: 'u' :: 'e' :: r => some (bool true, r)
    | 'f' :: 'a' :: 'l' :: 's' :: 'e' :: r => some (bool false, r)
    | r => (Numeral.read? r).map fun (n, t) => (number n, t)

/-- One or more items and the closing bracket. -/
def readItems? : Nat → List Char → Option (List Json × List Char)
  | 0, _ => none
  | fuel + 1, cs =>
    match readValue? fuel cs with
    | none => none
    | some (v, r) =>
      match skipSpace r with
      | ']' :: t => some ([v], t)
      | ',' :: t => (readItems? fuel t).map fun (vs, u) => (v :: vs, u)
      | _ => none

/-- One or more members and the closing brace. -/
def readMembers? : Nat → List Char → Option (List (Option String × Json) × List Char)
  | 0, _ => none
  | fuel + 1, cs =>
    match skipSpace cs with
    | '"' :: r =>
      match readText? r with
      | none => none
      | some (k, s) =>
        match skipSpace s with
        | ':' :: t =>
          match readValue? fuel t with
          | none => none
          | some (v, u) =>
            match skipSpace u with
            | '\x7d' :: w => some ([(k, v)], w)
            | ',' :: w => (readMembers? fuel w).map fun (ms, x) => ((k, v) :: ms, x)
            | _ => none
        | _ => none
    | _ => none

end

/-- The value that a whole text describes. -/
def parse? (s : String) : Option Json :=
  let cs := s.toList
  match readValue? (2 * cs.length + 2) cs with
  | some (v, r) => if (skipSpace r).isEmpty then some v else none
  | none => none

end AsmOrigin.Json
