import AsmOrigin.Json.Record
import AsmOrigin.Manifest.Basic

/-!
Manifests in JSON.

Optional fields that are not set are left out when a manifest is written, and may be left out or null when
one is read.  A list of samples may be left out too, but it cannot be null.
-/

namespace AsmOrigin

/-- A member for a value that is there. -/
def optionalMember {α : Type} (key : String) (item : α → Json) : Option α → List (String × Json)
  | none => []
  | some a => [(key, item a)]

namespace Sample

def fieldNames : List String := ["label", "path", "code", "repeat"]

def toJson (s : Sample) : Json := .ofMembers <|
  [("label", .ofText s.label)] ++ optionalMember "path" .ofText s.path ++
    optionalMember "code" .ofText s.code ++ optionalMember "repeat" .ofNat s.repetitions

def ofJson? (j : Json) : Option Sample := do
  match ← Json.fields? fieldNames j with
  | [some label, path, code, repetitions] =>
    return {
      label := ← Json.toText? label
      path := ← Json.optional? Json.toText? path
      code := ← Json.optional? Json.toText? code
      repetitions := ← Json.optional? Json.toNat? repetitions }
  | _ => none

end Sample

namespace Manifest

def fieldNames : List String := ["name", "description", "samples"]

def toJson (m : Manifest) : Json := .ofMembers <|
  [("name", .ofText m.name)] ++ optionalMember "description" .ofText m.description ++
    [("samples", .ofList Sample.toJson m.samples)]

/-- A list that is left out is empty. -/
def samplesOfJson? : Option Json → Option (List Sample)
  | none => some []
  | some j => Json.toList? Sample.ofJson? j

def ofJson? (j : Json) : Option Manifest := do
  match ← Json.fields? fieldNames j with
  | [some name, description, samples] =>
    return {
      name := ← Json.toText? name
      description := ← Json.optional? Json.toText? description
      samples := ← samplesOfJson? samples }
  | _ => none

end Manifest

end AsmOrigin
