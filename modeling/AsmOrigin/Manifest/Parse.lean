import AsmOrigin.Failure
import AsmOrigin.Json.Reader
import AsmOrigin.Manifest.Json
import AsmOrigin.Manifest.Yaml

/-!
Manifests from text.

The format is named `json`, `yaml` or `yml`, and each of the two formats has its reader.  Only well-formed
manifests are read.
-/

namespace AsmOrigin

/-- How the texts of the two formats are read. -/
structure Readers where
  json? : String → Option Manifest
  yaml? : String → Option Manifest

/-- The readers of this library. -/
def Readers.standard : Readers where
  json? body := (Json.parse? body).bind Manifest.ofJson?
  yaml? body := (Yaml.Document.parse? body).bind Manifest.ofYaml?

namespace Manifest

def checked (m : Manifest) : Except Failure Manifest :=
  match m.validate with
  | .ok () => .ok m
  | .error e => .error ⟨[], .manifest e⟩

/-- A value that was read, or the failure to parse the text. -/
def parsed (activity : Activity) : Option Manifest → Except Failure Manifest
  | some m => checked m
  | none => .error ⟨[activity], .unparsable⟩

def parseWith (readers : Readers) (body format : String) : Except Failure Manifest :=
  if format = "json" then parsed .parsingJson (readers.json? body)
  else if format = "yaml" ∨ format = "yml" then parsed .parsingYaml (readers.yaml? body)
  else .error ⟨[], .manifest (.unknownFormat format)⟩

def parse (body format : String) : Except Failure Manifest := parseWith .standard body format

end Manifest

end AsmOrigin
