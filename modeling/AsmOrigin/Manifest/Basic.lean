import AsmOrigin.Text.Blank

/-!
Training manifests: which labelled listings to train on.

A manifest is well formed if its name and each sample's label hold a character that is not blank, it lists
a sample, and each sample has exactly one source and is not to be repeated zero times.  The defect
reported is the first one in that order, samples one after the other.
-/

namespace AsmOrigin

structure Sample where
  label : String
  /-- A file, relative to the manifest's directory unless it is absolute. -/
  path : Option String
  /-- The listing itself. -/
  code : Option String
  /-- How often to train on the sample; once unless given. -/
  repetitions : Option Nat
  deriving DecidableEq

structure Manifest where
  name : String
  description : Option String
  samples : List Sample
  deriving DecidableEq

inductive ManifestError where
  | nameMissing
  | noSamples (name : String)
  | labelMissing (index : Nat) (name : String)
  | twoSources (index : Nat) (label : String)
  | noSource (index : Nat) (label : String)
  | neverRepeated (index : Nat) (label : String)
  /-- A sample without a source in a manifest that nobody checked. -/
  | unsourced (label : String)
  | unknownFormat (format : String)
  deriving DecidableEq

def ManifestError.message : ManifestError → String
  | nameMissing => "Manifest name is required"
  | noSamples name => s!"Manifest '{name}' must list at least one sample"
  | labelMissing i name => s!"Sample #{i} in manifest '{name}': label is required"
  | twoSources i label => s!"Sample #{i} ({label}) sets both path and code; pick one"
  | noSource i label => s!"Sample #{i} ({label}) needs either a path or inline code"
  | neverRepeated i label => s!"Sample #{i} ({label}) has repeat = 0"
  | unsourced label => s!"Sample ({label}) has no assembly source"
  | unknownFormat format => s!"Unsupported manifest format '{format}'"

def isBlankString (s : String) : Bool := Text.isBlankText s.toList

namespace Sample

/-- How often the sample is trained on. -/
def count (s : Sample) : Nat := s.repetitions.getD 1

/-- First defect of the sample at the given place of a manifest. -/
def defect? (manifest : String) (index : Nat) (s : Sample) : Option ManifestError :=
  if isBlankString s.label then some (.labelMissing index manifest)
  else match s.path, s.code with
    | some _, some _ => some (.twoSources index s.label)
    | none, none => some (.noSource index s.label)
    | _, _ => if s.repetitions = some 0 then some (.neverRepeated index s.label) else none

end Sample

namespace Manifest

/-- First defect among the samples from `index` on. -/
def sampleDefect? (manifest : String) : Nat → List Sample → Option ManifestError
  | _, [] => none
  | index, s :: r => (s.defect? manifest index).or (sampleDefect? manifest (index + 1) r)

def defect? (m : Manifest) : Option ManifestError :=
  if isBlankString m.name then some .nameMissing
  else if m.samples.isEmpty then some (.noSamples m.name)
  else sampleDefect? m.name 0 m.samples

def validate (m : Manifest) : Except ManifestError Unit :=
  match m.defect? with
  | some e => .error e
  | none => .ok ()

/-- How often each sample is trained on. -/
def counts (m : Manifest) : List Nat := m.samples.map Sample.count

end Manifest

end AsmOrigin
