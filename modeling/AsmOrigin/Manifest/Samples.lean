import AsmOrigin.Manifest.Parse
import AsmOrigin.Text.Lower
import AsmOrigin.Work

/-!
Manifests on disk and the samples they stand for.

The extension of a manifest's name, in lower case, is its format.  Its samples are expanded in order, each
as often as it is to be repeated; a file is sought in the manifest's directory.
-/

namespace AsmOrigin.Manifest

variable {m : Type → Type} [Monad m]

/-- Format by the name of the file; no extension is an empty one. -/
def formatOf (path : String) : String :=
  String.ofList (Text.lower ((Path.extension? path).getD []))

def loadWith (readers : Readers) (files : Files m) (path : String) : Work m Manifest := do
  let body ← Work.within (.readingManifest path) (Work.readText files path)
  Work.within (.loadingManifest path) (Work.ofExcept (parseWith readers body (formatOf path)))

def load (files : Files m) (path : String) : Work m Manifest := loadWith .standard files path

/-- The sample's listing, from its file or from the manifest itself. -/
def listingOf (files : Files m) (base : String) (s : Sample) : Work m String :=
  match s.path, s.code with
  | some path, _ =>
    let full := Path.join base path
    Work.within (.readingSample full) (Work.readText files full)
  | none, some code => pure code
  | none, none => throw ⟨[], .manifest (.unsourced s.label)⟩

/-- Labelled listings of the samples in order. -/
def expand (files : Files m) (base : String) : List Sample → Work m (List (String × String))
  | [] => pure []
  | s :: r => do
    let listing ← listingOf files base s
    return List.replicate s.count (s.label, listing) ++ (← expand files base r)

/-- Labelled listings of a well-formed manifest. -/
def resolve (files : Files m) (base : String) (manifest : Manifest) :
    Work m (List (String × String)) := do
  let manifest ← Work.ofExcept (checked manifest)
  expand files base manifest.samples

/-- The directory in which a manifest's files are sought. -/
def baseOf (path : String) : String := (Path.parent? path).getD "."

end AsmOrigin.Manifest
