import AsmOrigin.Classifier
import AsmOrigin.Json.Record

/-!
Serialised form of fingerprints, training sets, predictions and profiles.
-/

namespace AsmOrigin

namespace Fingerprint

/-- The list of its slots. -/
def toJson (f : Fingerprint) : Json := .ofList .ofFloat f.slots

def ofJson? (j : Json) : Option Fingerprint := (Json.toList? Json.toFloat? j).map .mk

end Fingerprint

namespace TrainingSet

def toJson (t : TrainingSet) : Json := .ofMembers [
  ("features", .ofList Fingerprint.toJson t.fingerprints),
  ("labels", .ofList .ofText t.labels)]

def ofJson? (j : Json) : Option TrainingSet := do
  match ← Json.fields? ["features", "labels"] j with
  | [some features, some labels] =>
    return ⟨← Json.toList? Fingerprint.ofJson? features, ← Json.toList? Json.toText? labels⟩
  | _ => none

end TrainingSet

namespace Prediction

def toJson (p : Prediction) : Json := .ofMembers [
  ("label", .ofText p.label),
  ("confidences", .ofMap .ofFloat p.confidences)]

def ofJson? (j : Json) : Option Prediction := do
  match ← Json.fields? ["label", "confidences"] j with
  | [some label, some confidences] =>
    return ⟨← Json.toText? label, ← Json.toMap? Json.toFloat? confidences⟩
  | _ => none

end Prediction

namespace Profile

def toJson (p : Profile) : Json := .ofMembers [
  ("total_instructions", .ofNat p.instructions),
  ("opcodes", .ofMap .ofNat p.opcodes),
  ("registers", .ofMap .ofNat p.registers),
  ("jump_lines", .ofNat p.jumpLines),
  ("call_lines", .ofNat p.callLines),
  ("signatures", .ofList .ofNat p.signatures.toList)]

/-- Eight counts. -/
def signaturesOfJson? (j : Json) : Option (Vector Nat 8) := do
  let counts := (← Json.toList? Json.toNat? j).toArray
  if h : counts.size = 8 then some ⟨counts, h⟩ else none

def ofJson? (j : Json) : Option Profile := do
  match ← Json.fields? ["total_instructions", "opcodes", "registers", "jump_lines", "call_lines",
    "signatures"] j with
  | [some instructions, some opcodes, some registers, some jumpLines, some callLines,
      some signatures] =>
    return {
      instructions := ← Json.toNat? instructions
      opcodes := ← Json.toMap? Json.toNat? opcodes
      registers := ← Json.toMap? Json.toNat? registers
      jumpLines := ← Json.toNat? jumpLines
      callLines := ← Json.toNat? callLines
      signatures := ← signaturesOfJson? signatures }
  | _ => none

end Profile

end AsmOrigin
