/-!
A place in a YAML text, and the characters that matter for its layout.

A cursor knows the line and the column it stands at, because indentation decides how YAML text is nested.
-/

namespace AsmOrigin.Yaml

/-! ## Characters -/

/-- What separates words on a line. -/
def isBlank (c : Char) : Bool := c == ' ' || c == '\t'

/-- What ends a line. -/
def isBreak (c : Char) : Bool :=
  c == '\n' || c == '\r' || c == '\u0085' || c == '\u2028' || c == '\u2029'

def isBlankOrBreak (c : Char) : Bool := isBlank c || isBreak c

/-- What names of anchors, handles and directives are made of. -/
def isNameChar (c : Char) : Bool := c.isAlphanum || c == '_' || c == '-'

/-- What may stand in a YAML text at all. -/
def isAdmitted (c : Char) : Bool :=
  let n := c.toNat
  c == '\t' || c == '\n' || c == '\r' || (0x20 ≤ n && n ≤ 0x7E) || n == 0x85 ||
    (0xA0 ≤ n && n ≤ 0xD7FF) || (0xE000 ≤ n && n ≤ 0xFFFD) || 0x10000 ≤ n

/-- A line break as it is read: the line and paragraph separators stay, all others are line feeds. -/
def breakText (c : Char) : List Char := if c == '\u2028' || c == '\u2029' then [c] else ['\n']

/-! ## Cursors -/

structure Cursor where
  /-- UTF-8 octets before this place. -/
  index : Nat
  line : Nat
  column : Nat
  rest : List Char

namespace Cursor

def start (text : List Char) : Cursor := ⟨0, 0, 0, text⟩

def peek (c : Cursor) (n : Nat) : Option Char := c.rest[n]?

/-- The character at distance `n` is the given one. -/
def has (c : Cursor) (n : Nat) (x : Char) : Bool := c.peek n == some x

/-- At distance `n` there is a blank, a line break or the end. -/
def endsAt (c : Cursor) (n : Nat) : Bool := (c.peek n).all isBlankOrBreak

/-- Octets of a text. -/
def octets (cs : List Char) : Nat := cs.foldl (fun n x => n + x.utf8Size) 0

/-- Moves over `n` characters of one line. -/
def advance (c : Cursor) (n : Nat) : Cursor :=
  { index := c.index + octets (c.rest.take n), line := c.line, column := c.column + n,
    rest := c.rest.drop n }

/-- Moves over one line break; a carriage return and a line feed are one. -/
def nextLine (c : Cursor) : Cursor :=
  match c.rest with
  | '\r' :: '\n' :: r => ⟨c.index + 2, c.line + 1, 0, r⟩
  | _ => ⟨c.index + octets (c.rest.take 1), c.line + 1, 0, c.rest.tail⟩

theorem rest_advance_lt {c : Cursor} {x : Char} {r : List Char} (h : c.rest = x :: r) (n : Nat) :
    (c.advance (n + 1)).rest.length < c.rest.length := by
  simp only [advance, List.length_drop]
  rw [h]
  simp only [List.length_cons]
  omega

theorem rest_nextLine_lt {c : Cursor} {x : Char} {r : List Char} (h : c.rest = x :: r) :
    c.nextLine.rest.length < c.rest.length := by
  unfold nextLine
  split
  · rename_i h'
    rw [h']
    simp only [List.length_cons]
    omega
  · rw [h]
    simp

/-- Moves on while the characters are of one kind. -/
def advanceWhile (p : Char → Bool) (c : Cursor) : Cursor := c.advance (c.rest.takeWhile p).length

/-- The characters of one kind that come next. -/
def run (p : Char → Bool) (c : Cursor) : List Char := c.rest.takeWhile p

/-- Moves over the end of a line, where only blanks and a comment may stand. -/
def endLine? (c : Cursor) : Option Cursor :=
  let c := c.advanceWhile isBlank
  let c := if c.has 0 '#' then c.advanceWhile (!isBreak ·) else c
  match c.peek 0 with
  | none => some c
  | some x => if isBreak x then some c.nextLine else none

/-- Three equal hyphens or dots alone at the start of a line begin or end a document. -/
def atDocumentMark (c : Cursor) : Bool :=
  c.column == 0 && c.endsAt 3 &&
    ((c.has 0 '-' && c.has 1 '-' && c.has 2 '-') || (c.has 0 '.' && c.has 1 '.' && c.has 2 '.'))

end Cursor

end AsmOrigin.Yaml
