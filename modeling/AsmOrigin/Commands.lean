import AsmOrigin.Manifest.Samples
import AsmOrigin.Report
import AsmOrigin.Sha256

/-!
The four commands: the built-in demonstration, classifying a file, printing a file's fingerprint, and
cleaning a listing.

A command prints only after everything else has succeeded.
-/

namespace AsmOrigin

variable {m : Type → Type} [Monad m]

/-- Trains a classifier; what training reports is kept also if the training set is refused. -/
def Classifier.trained (result : List LogLine × Except ModelError Classifier) :
    Work m Classifier := do
  Work.report result.1
  Work.ofModel result.2

def Work.printLines (lines : List String) : Work m Unit := print (String.join (lines.map (· ++ "\n")))

/-- A value in JSON on lines of its own. -/
def Work.printJson (j : Json) : Work m Unit := printLine j.prettyPrint

/-! ## Demonstration -/

namespace Demo

def classifySnippets (c : Classifier) : List (String × String) → Work m (List Outcome)
  | [] => pure []
  | (label, listing) :: r => do
    let p ← Work.within (.classifyingDemo label) (Work.ofModel (c.classify listing))
    return ⟨label, p⟩ :: (← classifySnippets c r)

/-- Trains on copies of the built-in snippets and classifies each of them. -/
def run (copies : Nat) : Work m (List Outcome) := do
  let c ← Work.within .trainingDemo
    (Classifier.trained ((Classifier.untrained .substring).train (trainingSet copies)))
  classifySnippets c snippets

def command (copies : Nat) (json : Bool) : Work m Unit := do
  let outcomes ← run copies
  if json then Work.printJson (.ofList Outcome.toJson outcomes)
  else Work.printLines (reportLines copies outcomes)

end Demo

/-! ## Classification -/

/-- Trains from a manifest and classifies a file, which the report names beside its hash. -/
def classifyFileWith (readers : Readers) (hash : List UInt8 → String) (files : Files m)
    (now manifestPath inputPath : String) : Work m ClassificationReport := do
  let manifest ← Manifest.loadWith readers files manifestPath
  let samples ← manifest.resolve files (Manifest.baseOf manifestPath)
  Work.report [.manifestResolved manifest.name samples.length]
  let c ← Work.within (.trainingFrom manifestPath)
    (Classifier.trained ((Classifier.untrained .substring).trainSamples samples))
  let listing ← Work.readListing files inputPath
  let p ← Work.within (.classifying inputPath) (Work.ofModel (c.classify listing))
  return ⟨manifest.name, inputPath, hash listing.toUTF8.toList, now, p⟩

def classifyFile (files : Files m) (now manifestPath inputPath : String) :
    Work m ClassificationReport :=
  classifyFileWith .standard Sha256.hex files now manifestPath inputPath

def classifyCommand (files : Files m) (now manifestPath inputPath : String) (json : Bool) :
    Work m Unit := do
  let r ← classifyFile files now manifestPath inputPath
  if json then Work.printJson r.toJson else Work.printLines r.lines

/-! ## Fingerprints -/

def fingerprintFile (files : Files m) (inputPath : String) : Work m FingerprintReport := do
  let listing ← Work.readListing files inputPath
  return .ofProfile inputPath (.ofListing .substring listing)

def fingerprintCommand (files : Files m) (inputPath : String) (json : Bool) : Work m Unit := do
  let r ← fingerprintFile files inputPath
  if json then Work.printJson r.toJson else Work.printLines r.lines

/-! ## Cleaning -/

/-- Strips a listing and prints it, or writes it to a file and prints how many lines it has. -/
def cleanCommand (files : Files m) (inputPath : String) (outputPath : Option String) :
    Work m Unit := do
  let cleaned := Listing.strip (← Work.readListing files inputPath)
  match outputPath with
  | none => Work.print cleaned
  | some out =>
    Work.within (.writingListing out) (Work.writeText files out cleaned)
    let n := (Text.lines cleaned.toList).length
    Work.printLine s!"Wrote {n} instruction lines to {out}"

end AsmOrigin
