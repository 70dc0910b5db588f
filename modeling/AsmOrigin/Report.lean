import AsmOrigin.Decimal.Layout
import AsmOrigin.Demo
import AsmOrigin.Json.Printer
import AsmOrigin.Serialized

/-!
Reports of the commands, as JSON and as lines of text.
-/

namespace AsmOrigin

/-- A classified file beside the manifest that the classifier was trained from. -/
structure ClassificationReport where
  manifest : String
  input : String
  sha256 : String
  generatedAt : String
  prediction : Prediction
  deriving DecidableEq

/-- One confidence per line. -/
def confidenceLines (indent : String) (confidences : OrderedMap Float) : List String :=
  confidences.entries.map fun e => s!"{indent}{e.1}: {Decimal.percent e.2}"

namespace ClassificationReport

def toJson (r : ClassificationReport) : Json := .ofMembers [
  ("manifest", .ofText r.manifest),
  ("input", .ofText r.input),
  ("input_sha256", .ofText r.sha256),
  ("generated_at", .ofText r.generatedAt),
  ("label", .ofText r.prediction.label),
  ("confidences", .ofMap .ofFloat r.prediction.confidences)]

def lines (r : ClassificationReport) : List String :=
  [s!"Input: {r.input} (sha256: {r.sha256})",
   s!"Manifest: {r.manifest}",
   s!"Predicted: {r.prediction.label}",
   "Confidences:"] ++ confidenceLines "  " r.prediction.confidences

end ClassificationReport

/-- A file's fingerprint by slot, and all its counters. -/
structure FingerprintReport where
  input : String
  slots : List (String × Float)
  profile : Profile
  deriving DecidableEq

namespace FingerprintReport

def ofProfile (input : String) (p : Profile) : FingerprintReport :=
  ⟨input, slotNames.zip p.fingerprint.slots, p⟩

def slotToJson (s : String × Float) : Json := .ofMembers [
  ("slot", .ofText s.1),
  ("value", .ofFloat s.2)]

def toJson (r : FingerprintReport) : Json := .ofMembers [
  ("input", .ofText r.input),
  ("slots", .ofList slotToJson r.slots),
  ("profile", r.profile.toJson)]

/-- A name filled up with blanks to eighteen characters. -/
def padded (name : String) : String :=
  name ++ String.ofList (List.replicate (18 - name.length) ' ')

def slotLine (s : String × Float) : String :=
  s!"  {padded s.1} {String.ofList (Decimal.plain s.2)}"

def lines (r : FingerprintReport) : List String :=
  s!"Fingerprint of {r.input}:" :: r.slots.map slotLine

end FingerprintReport

namespace Demo

def Outcome.toJson (o : Outcome) : Json := .ofMembers [
  ("expected", .ofText o.expected),
  ("prediction", o.prediction.toJson)]

def Outcome.lines (o : Outcome) : List String :=
  [s!"Sample ({o.expected} code):",
   s!"  Predicted: {o.prediction.label}",
   "  Confidences:"] ++ confidenceLines "    " o.prediction.confidences ++ [""]

def reportLines (copies : Nat) (outcomes : List Outcome) : List String :=
  [s!"asmid v{version}",
   s!"Trained on {copies} copies of {snippets.length} demo snippets.",
   ""] ++ outcomes.flatMap Outcome.lines ++
  [s!"Correct: {outcomes.countP Outcome.isCorrect}/{outcomes.length}"]

end Demo

end AsmOrigin
