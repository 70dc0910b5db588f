import AsmOrigin.Manifest.Basic
import AsmOrigin.Yaml.Document

/-!
Manifests in YAML.

Texts are taken as written, whatever else they might mean, from any scalar.  An optional text is absent
where a plain scalar is empty or says null; a number of repetitions is a decimal, hexadecimal, octal or
binary scalar, either plain or literal and tagged as an integer.
-/

namespace AsmOrigin.Manifest

open Yaml Document

def isNullWord (text : List Char) : Bool :=
  ["~", "null", "Null", "NULL"].any fun w => text == w.toList

def nullTag : List Char := "tag:yaml.org,2002:null".toList

def integerTag : List Char := "tag:yaml.org,2002:int".toList

/-- Text of any scalar. -/
def textOfYaml (d : Document) (n : Node.Numbered) : Reading String := do
  match ← d.follow n with
  | .scalar _ _ text => return String.ofList text
  | _ => failure

/-- A value that a plain scalar may deny: untagged by being empty or saying null, tagged as null by saying
null, which it then must.  A scalar with any other tag is a value whatever it says, and a lone `!` is such
a tag: `! ~` is the text `~`. -/
def optionalOfYaml {α : Type} (item : Node.Numbered → Reading α) (d : Document) :
    Option Node.Numbered → Reading (Option α)
  | none => return none
  | some n => do
    let n ← d.follow n
    match n with
    | .scalar props .plain text =>
      match props.tag with
      | none => if text.isEmpty || isNullWord text then return none else return some (← item n)
      | some tag =>
        if tag = nullTag then (if isNullWord text then return none else failure)
        else return some (← item n)
    | _ => return some (← item n)

/-! ## Numbers -/

def digitValue? (base : Nat) (c : Char) : Option Nat :=
  (hexDigit? c).bind fun n => if n < base then some n else none

/-- One or more digits of a base, for a number below 2⁶⁴. -/
def numberInBase? (base : Nat) (ds : List Char) : Option Nat :=
  if ds.isEmpty then none
  else do
    let n ← ds.foldlM (fun n c => (digitValue? base c).map (base * n + ·)) 0
    if n < Nat.pow 2 64 then some n else none

/-- A decimal number has no leading zeros. -/
def decimal? (ds : List Char) : Option Nat :=
  if ds.head? == some '0' && 1 < ds.length then none else numberInBase? 10 ds

def number? (text : List Char) : Option Nat :=
  let unsigned := match text with
    | '+' :: r => r
    | r => r
  match unsigned with
  | '0' :: 'x' :: r => numberInBase? 16 r
  | '0' :: 'o' :: r => numberInBase? 8 r
  | '0' :: 'b' :: r => numberInBase? 2 r
  | r => decimal? r

/-- A scalar that is meant as a number. -/
def numeral? : Node.Numbered → Option (List Char)
  | .scalar _ .plain text => some text
  | .scalar props .literal text => if props.tag = some integerTag then some text else none
  | _ => none

def countOfYaml (d : Document) (n : Node.Numbered) : Reading Nat := do
  match (numeral? (← d.follow n)).bind number? with
  | some count => return count
  | none => failure

/-! ## Records -/

/-- Values of the named fields in order, `none` where one is absent.  Keys must be scalars, a named field
may not be repeated, and other fields are passed over. -/
def fieldsOfYaml (names : List String) (d : Document) (n : Node.Numbered) :
    Reading (List (Option Node.Numbered)) := do
  match ← d.follow n with
  | .mapping _ entries =>
    let members ← entries.mapM fun e => return (← textOfYaml d e.1, e.2)
    names.mapM fun name =>
      match members.filter (·.1 = name) with
      | [] => return none
      | [m] => return some m.2
      | _ => failure
  | _ => failure

def sampleOfYaml (d : Document) (n : Node.Numbered) : Reading Sample := do
  match ← fieldsOfYaml ["label", "path", "code", "repeat"] d n with
  | [some label, path, code, repetitions] =>
    return {
      label := ← textOfYaml d label
      path := ← optionalOfYaml (textOfYaml d) d path
      code := ← optionalOfYaml (textOfYaml d) d code
      repetitions := ← optionalOfYaml (countOfYaml d) d repetitions }
  | _ => failure

/-- A list of samples, empty where it is left out or nothing is written. -/
def samplesOfYaml (d : Document) : Option Node.Numbered → Reading (List Sample)
  | none => return []
  | some n => do
    match ← d.follow n with
    | .sequence _ items => items.mapM (sampleOfYaml d)
    | .scalar _ .plain [] => return []
    | _ => failure

/-- The manifest that the root of a document holds. -/
def manifestOfYaml (d : Document) : Reading Manifest := do
  match ← fieldsOfYaml ["name", "description", "samples"] d d.root with
  | [some name, description, samples] =>
    return {
      name := ← textOfYaml d name
      description := ← optionalOfYaml (textOfYaml d) d description
      samples := ← samplesOfYaml d samples }
  | _ => failure

def ofYaml? (d : Document) : Option Manifest := d.read? (manifestOfYaml d)

end AsmOrigin.Manifest
