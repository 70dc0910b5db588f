import AsmOrigin.Yaml.Gap

/-!
Quoted scalars.

Between single quotes only the quote itself is escaped, by doubling it; between double quotes a backslash
begins an escape.  Lines are folded in both.
-/

namespace AsmOrigin.Yaml

def hexDigit? (c : Char) : Option Nat :=
  if '0' ≤ c ∧ c ≤ '9' then some (c.toNat - '0'.toNat)
  else if 'a' ≤ c ∧ c ≤ 'f' then some (c.toNat - 'a'.toNat + 10)
  else if 'A' ≤ c ∧ c ≤ 'F' then some (c.toNat - 'A'.toNat + 10)
  else none

/-- The number that the next `n` hexadecimal digits stand for. -/
def hexNumber? (n : Nat) (cs : List Char) : Option Nat :=
  let ds := cs.take n
  if ds.length < n then none
  else ds.foldlM (fun v c => (hexDigit? c).map (16 * v + ·)) 0

/-- A character by its code point; surrogates are none. -/
def codePoint? (n : Nat) : Option Char := if n.isValidChar then some (Char.ofNat n) else none

/-- Escapes of one letter. -/
def letterEscape? : Char → Option Char
  | '0' => some '\x00'
  | 'a' => some '\x07'
  | 'b' => some '\x08'
  | 't' => some '\t'
  | '\t' => some '\t'
  | 'n' => some '\n'
  | 'v' => some '\x0b'
  | 'f' => some '\x0c'
  | 'r' => some '\r'
  | 'e' => some '\x1b'
  | ' ' => some ' '
  | '"' => some '"'
  | '/' => some '/'
  | '\\' => some '\\'
  | 'N' => some '\u0085'
  | '_' => some '\u00a0'
  | 'L' => some '\u2028'
  | 'P' => some '\u2029'
  | _ => none

/-- Digits of the hexadecimal escapes. -/
def hexEscapeLength? : Char → Option Nat
  | 'x' => some 2
  | 'u' => some 4
  | 'U' => some 8
  | _ => none

/-- What stands behind a backslash: the character meant, and how many characters of text it takes. -/
def escape? (cs : List Char) : Option (Char × Nat) :=
  match cs with
  | [] => none
  | x :: r =>
    match hexEscapeLength? x with
    | some n => ((hexNumber? n r).bind codePoint?).map (·, n + 1)
    | none => (letterEscape? x).map (·, 1)

/-- The rest of a quoted scalar up to its closing quote; `gap` is what was read since the last
character of `acc`. -/
def quotedFrom (double : Bool) (gap : Gap) (acc : List Char) (c : Cursor) :
    Option (List Char × Cursor) :=
  match _h : c.rest with
  | [] => none
  | x :: _ =>
    if isBlank x then quotedFrom double (gap.addBlank x) acc (c.advance 1)
    else if isBreak x then quotedFrom double (gap.addBreak x) acc c.nextLine
    else if c.atDocumentMark then none
    else
      let acc := gap.reversed ++ acc
      if double then
        if x == '"' then some (acc.reverse, c.advance 1)
        else if x == '\\' then
          if (c.peek 1).any isBreak then
            let d := c.advance 1
            match _h2 : d.rest with
            | [] => none
            | _ :: _ => quotedFrom double .escaped acc d.nextLine
          else match escape? (c.rest.drop 1) with
            | none => none
            | some (y, n) => quotedFrom double .empty (y :: acc) (c.advance (n + 1))
        else quotedFrom double .empty (x :: acc) (c.advance 1)
      else if x == '\x27' then
        if c.has 1 '\x27' then quotedFrom double .empty ('\x27' :: acc) (c.advance 2)
        else some (acc.reverse, c.advance 1)
      else quotedFrom double .empty (x :: acc) (c.advance 1)
termination_by c.rest.length
decreasing_by
  · exact Cursor.rest_advance_lt _h 0
  · exact Cursor.rest_nextLine_lt _h
  · exact Nat.lt_trans (Cursor.rest_nextLine_lt _h2) (Cursor.rest_advance_lt _h 0)
  · exact Cursor.rest_advance_lt _h n
  · exact Cursor.rest_advance_lt _h 0
  · exact Cursor.rest_advance_lt _h 1
  · exact Cursor.rest_advance_lt _h 0

/-- A quoted scalar from its opening quote on. -/
def quoted? (double : Bool) (c : Cursor) : Option (List Char × Cursor) :=
  quotedFrom double .empty [] (c.advance 1)

end AsmOrigin.Yaml
