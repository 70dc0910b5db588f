import AsmOrigin.Text.LowerTable
import AsmOrigin.Text.CasedTable
import AsmOrigin.Text.CaseIgnorableTable

/-!
Lower case of a text, by the full Unicode mapping.

Every character has its lower case alone, with two exceptions: `İ` becomes an `i` and a combining dot
(U+0307), and `Σ` becomes the final `ς` where a word ends there, which is to say that a cased letter
stands before it and none after it, case-ignorable characters not counted.
-/

namespace AsmOrigin.Text

def inRanges (ranges : List (Nat × Nat)) (n : Nat) : Bool :=
  ranges.any fun r => r.1 ≤ n && n ≤ r.2

/-- A letter that has case: the property Cased. -/
def isCased (c : Char) : Bool :=
  if c.toNat < 0x80 then c.isAlpha else inRanges casedRanges c.toNat

/-- A character that stands within a word without being a letter of it: the property
Case_Ignorable. -/
def isCaseIgnorable (c : Char) : Bool :=
  if c.toNat < 0x80 then c == '\x27' || c == '.' || c == ':' || c == '^' || c == '\x60'
  else inRanges caseIgnorableRanges c.toNat

def LowerRun.contains (run : LowerRun) (n : Nat) : Bool :=
  run.first ≤ n && n ≤ run.last && (n - run.first) % run.step == 0

/-- Lower case of one character by itself. -/
def lowerChar (c : Char) : List Char :=
  if c.toNat < 0x80 then [c.toLower]
  else if c = 'İ' then ['i', '\u0307']
  else match lowerRuns.find? (·.contains c.toNat) with
    | some run => [Char.ofNat (c.toNat + run.shift).toNat]
    | none => [c]

/-- The nearest character that is not case-ignorable is cased. -/
def nextIsCased (cs : List Char) : Bool :=
  match cs.dropWhile isCaseIgnorable with
  | [] => false
  | c :: _ => isCased c

/-- Lower case of what follows `before`, the characters already read, last one first. -/
def lowerAfter (before : List Char) : List Char → List Char
  | [] => []
  | c :: r =>
    (if c = 'Σ' then [if nextIsCased before && !nextIsCased r then 'ς' else 'σ'] else lowerChar c) ++
      lowerAfter (c :: before) r

def lower (cs : List Char) : List Char := lowerAfter [] cs

end AsmOrigin.Text
