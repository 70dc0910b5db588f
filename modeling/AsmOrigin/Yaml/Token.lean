import AsmOrigin.Yaml.Block
import AsmOrigin.Yaml.Plain
import AsmOrigin.Yaml.Tag

/-!
Tokens of a YAML text.

Indentation and one-line keys are made explicit: blocks are opened where the indentation grows and closed
where it shrinks, and every key is announced by a token of its own.  That a scalar was a key shows only at
the colon behind it, so the place of each scalar that could be one is remembered until then.
-/

namespace AsmOrigin.Yaml

/-- How a scalar is written. -/
inductive Style where
  | plain
  | quoted
  | literal
  | folded
  deriving DecidableEq

inductive Token where
  | directive (d : Directive)
  | documentStart
  | documentEnd
  | blockSequenceStart
  | blockMappingStart
  | blockEnd
  | flowSequenceStart
  | flowSequenceEnd
  | flowMappingStart
  | flowMappingEnd
  | blockEntry
  | flowEntry
  | key
  | value
  | reference (name : List Char)
  | anchor (name : List Char)
  | tag (t : Tag)
  | scalar (style : Style) (text : List Char)
  deriving DecidableEq

/-- What may turn out to be a key. -/
structure KeyCandidate where
  /-- No other thing can stand there. -/
  required : Bool
  /-- Number of tokens before it. -/
  place : Nat
  index : Nat
  line : Nat
  column : Nat

/-- A text on its way into tokens. -/
structure Tokenizer where
  cursor : Cursor
  tokens : Array Token
  /-- Columns of the open blocks, innermost first. -/
  blocks : List Nat
  /-- The key candidate of the innermost flow collection, or outside of them all. -/
  candidate : Option KeyCandidate
  /-- Key candidates of the enclosing levels, innermost first. -/
  outer : List (Option KeyCandidate)
  /-- A key may begin here. -/
  keyAllowed : Bool

namespace Tokenizer

def start (text : List Char) : Tokenizer := ⟨.start text, #[], [], none, [], true⟩

def inFlow (t : Tokenizer) : Bool := !t.outer.isEmpty

/-- The contents of the innermost open block stand at this column or deeper. -/
def leastColumn (t : Tokenizer) : Nat :=
  match t.blocks with
  | [] => 0
  | b :: _ => b + 1

def push (t : Tokenizer) (token : Token) : Tokenizer := { t with tokens := t.tokens.push token }

/-! ## Keys -/

/-- A candidate is too old on another line or more than 1024 octets on. -/
def KeyCandidate.isStale (k : KeyCandidate) (c : Cursor) : Bool :=
  k.line < c.line || k.index + 1024 < c.index

/-- Gives up the candidate of this level if it is too old; a required one cannot be given up.  Those of the
enclosing levels grow no younger, and are looked at when their level is left to again. -/
def dropStale? (t : Tokenizer) : Option Tokenizer :=
  match t.candidate with
  | none => some t
  | some k =>
    if KeyCandidate.isStale k t.cursor then
      (if k.required then none else some { t with candidate := none })
    else some t

/-- Decides that the candidate of this level is no key. -/
def dropKey? (t : Tokenizer) : Option Tokenizer :=
  if t.candidate.any (·.required) then none else some { t with candidate := none }

/-- Remembers that what begins here may be a key. -/
def saveKey? (t : Tokenizer) : Option Tokenizer :=
  if t.keyAllowed then do
    let t ← t.dropKey?
    let c := t.cursor
    return { t with
      candidate := some ⟨!t.inFlow && t.blocks.head? == some c.column, t.tokens.size, c.index, c.line,
        c.column⟩ }
  else some t

/-! ## Blocks -/

/-- Opens a block at a column that is deeper than all open blocks. -/
def openBlock (t : Tokenizer) (column place : Nat) (token : Token) : Tokenizer :=
  if !t.inFlow && t.leastColumn ≤ column then
    { t with blocks := column :: t.blocks, tokens := t.tokens.insertIdxIfInBounds place token }
  else t

/-- Closes the blocks that are deeper than `keep` allows. -/
def closeBlocks (keep : Nat → Bool) (t : Tokenizer) : Tokenizer :=
  if t.inFlow then t
  else
    let closed := t.blocks.takeWhile (!keep ·)
    { t with
      blocks := t.blocks.drop closed.length
      tokens := t.tokens ++ Array.replicate closed.length .blockEnd }

/-! ## Single tokens -/

/-- A token of `n` characters. -/
def take (t : Tokenizer) (n : Nat) (token : Token) : Tokenizer :=
  { t with cursor := t.cursor.advance n, tokens := t.tokens.push token }

def allowKey (t : Tokenizer) (allowed : Bool) : Tokenizer := { t with keyAllowed := allowed }

def openFlow? (t : Tokenizer) (token : Token) : Option Tokenizer := do
  let t ← t.saveKey?
  return { t with candidate := none, outer := t.candidate :: t.outer, keyAllowed := true }.take 1 token

def closeFlow? (t : Tokenizer) (token : Token) : Option Tokenizer := do
  let t ← t.dropKey?
  let t := match t.outer with
    | [] => t
    | k :: ks => { t with candidate := k, outer := ks }
  return (t.allowKey false).take 1 token

/-- An entry or a key that opens its own block where it stands. -/
def openEntry? (t : Tokenizer) (block : Token) : Option Tokenizer :=
  if t.inFlow then some t
  else if t.keyAllowed then some (t.openBlock t.cursor.column t.tokens.size block)
  else none

def blockEntry? (t : Tokenizer) : Option Tokenizer := do
  let t ← (← t.openEntry? .blockSequenceStart).dropKey?
  return (t.allowKey true).take 1 .blockEntry

def key? (t : Tokenizer) : Option Tokenizer := do
  let t ← (← t.openEntry? .blockMappingStart).dropKey?
  return (t.allowKey (!t.inFlow)).take 1 .key

/-- A colon makes a key of the candidate of its level, if there is one. -/
def value? (t : Tokenizer) : Option Tokenizer :=
  match t.candidate with
  | some k =>
    let t := { t with tokens := t.tokens.insertIdxIfInBounds k.place .key, candidate := none }
    some (((t.openBlock k.column k.place .blockMappingStart).allowKey false).take 1 .value)
  | none => do
    let t ← t.openEntry? .blockMappingStart
    return (t.allowKey (!t.inFlow)).take 1 .value

/-- Ends all blocks, as a directive and a document mark do. -/
def leaveDocument? (t : Tokenizer) : Option Tokenizer := do
  return (← (t.closeBlocks fun _ => false).dropKey?).allowKey false

/-- A thing that may be a key or the beginning of one. -/
def node? (t : Tokenizer) (read : Tokenizer → Option (Token × Cursor)) : Option Tokenizer := do
  let t ← t.saveKey?
  let (token, c) ← read t
  return { t with cursor := c, tokens := t.tokens.push token, keyAllowed := false }

def plainScalar? (t : Tokenizer) : Option Tokenizer := do
  let t ← t.saveKey?
  let (text, broken, c) ← plain? t.inFlow t.leastColumn t.cursor
  return { t with cursor := c, tokens := t.tokens.push (.scalar .plain text), keyAllowed := broken }

def blockScalar? (t : Tokenizer) (folded : Bool) : Option Tokenizer := do
  let t ← t.dropKey?
  let (text, c) ← block? folded t.leastColumn t.cursor
  return { t with
    cursor := c
    tokens := t.tokens.push (.scalar (if folded then .folded else .literal) text)
    keyAllowed := true }

/-- Reads the token that begins here; the cursor stands neither at a blank nor at the end. -/
def next? (t : Tokenizer) : Option Tokenizer :=
  let c := t.cursor
  if c.column == 0 && c.has 0 '%' then do
    let t ← t.leaveDocument?
    let (d, c) ← directive? c
    return { t with cursor := c, tokens := t.tokens.push (.directive d) }
  else if c.atDocumentMark then do
    let t ← t.leaveDocument?
    return t.take 3 (if c.has 0 '-' then .documentStart else .documentEnd)
  else match c.peek 0 with
    | some '[' => t.openFlow? .flowSequenceStart
    | some '\x7b' => t.openFlow? .flowMappingStart
    | some ']' => t.closeFlow? .flowSequenceEnd
    | some '\x7d' => t.closeFlow? .flowMappingEnd
    | some ',' => do return ((← t.dropKey?).allowKey true).take 1 .flowEntry
    | some x =>
      if x == '-' && c.endsAt 1 then t.blockEntry?
      else if x == '?' && (t.inFlow || c.endsAt 1) then t.key?
      else if x == ':' && (t.inFlow || c.endsAt 1) then t.value?
      else if x == '*' then
        t.node? fun t => do let (n, d) ← anchorName? (t.cursor.advance 1); return (.reference n, d)
      else if x == '&' then
        t.node? fun t => do let (n, d) ← anchorName? (t.cursor.advance 1); return (.anchor n, d)
      else if x == '!' then
        t.node? fun t => do let (n, d) ← tag? t.inFlow t.cursor; return (.tag n, d)
      else if !t.inFlow && (x == '|' || x == '>') then t.blockScalar? (x == '>')
      else if x == '\x27' || x == '"' then
        t.node? fun t => do let (s, d) ← quoted? (x == '"') t.cursor; return (.scalar .quoted s, d)
      else if startsPlain t.inFlow c then t.plainScalar?
      else none
    | none => none

/-! ## Whole texts -/

/-- Moves over blanks, comments and line breaks, and over a byte order mark at the start of a line.  A tab
is no blank where a key may begin outside of flow collections; a line break there allows a key. -/
def skipBlanks (inFlow keyAllowed : Bool) (c : Cursor) : Bool × Cursor :=
  match _h : c.rest with
  | [] => (keyAllowed, c)
  | x :: _ =>
    if x == ' ' || (x == '\t' && (inFlow || !keyAllowed)) || (x == '\ufeff' && c.column == 0) then
      skipBlanks inFlow keyAllowed (c.advance 1)
    else if x == '#' then
      skipBlanks inFlow keyAllowed (c.advance (((c.advance 1).run (!isBreak ·)).length + 1))
    else if isBreak x then skipBlanks inFlow (keyAllowed || !inFlow) c.nextLine
    else (keyAllowed, c)
termination_by c.rest.length
decreasing_by
  · exact Cursor.rest_advance_lt _h 0
  · exact Cursor.rest_advance_lt _h _
  · exact Cursor.rest_nextLine_lt _h

/-- Moves to the next token: closes what the indentation there closes. -/
def approach? (t : Tokenizer) : Option Tokenizer := do
  let (allowed, c) := skipBlanks t.inFlow t.keyAllowed t.cursor
  let t ← { t with cursor := c, keyAllowed := allowed }.dropStale?
  return t.closeBlocks (· ≤ c.column)

/-- All tokens up to the end of the text, at most `limit` of them as written. -/
def run? : Nat → Tokenizer → Option (List Token)
  | 0, _ => none
  | limit + 1, t => do
    let t ← t.approach?
    if t.cursor.rest.isEmpty then return (← t.leaveDocument?).tokens.toList
    else run? limit (← t.next?)

end Tokenizer

/-- The tokens of a text. -/
def tokens? (text : List Char) : Option (List Token) :=
  if text.all isAdmitted then (Tokenizer.start text).run? (text.length + 1) else none

end AsmOrigin.Yaml
