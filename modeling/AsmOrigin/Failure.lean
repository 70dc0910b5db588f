import AsmOrigin.Manifest.Basic
import AsmOrigin.TrainingSet

/-!
Why an operation failed: the root cause and what was being done, from the outside in.

A failure is told as a chain of messages.  The outermost step comes first and the cause last; what a JSON
or YAML text violates is not told, only that it could not be parsed.
-/

namespace AsmOrigin

/-- What the file system answers. -/
inductive FileError where
  | notFound
  | notDirectory
  | isDirectory
  | nameTooLong
  | nulInName
  | notText
  | denied
  | discFull
  /-- Any other answer, in the words of the system. -/
  | other (answer : String)
  deriving DecidableEq

def FileError.message : FileError → String
  | notFound => "No such file or directory (os error 2)"
  | notDirectory => "Not a directory (os error 20)"
  | isDirectory => "Is a directory (os error 21)"
  | nameTooLong => "File name too long (os error 36)"
  | nulInName => "file name contained an unexpected NUL byte"
  | notText => "stream did not contain valid UTF-8"
  | denied => "Permission denied (os error 13)"
  | discFull => "No space left on device (os error 28)"
  | other answer => answer

inductive Cause where
  | file (error : FileError)
  /-- The text is not a manifest in its format. -/
  | unparsable
  | model (error : ModelError)
  | manifest (error : ManifestError)
  deriving DecidableEq

def Cause.messages : Cause → List String
  | file e => [e.message]
  | unparsable => []
  | model e => [e.message]
  | manifest e => [e.message]

/-- What was being done when an operation failed. -/
inductive Activity where
  | readingManifest (path : String)
  | loadingManifest (path : String)
  | parsingJson
  | parsingYaml
  | readingSample (path : String)
  | readingListing (path : String)
  | writingListing (path : String)
  | trainingFrom (path : String)
  | classifying (path : String)
  | trainingDemo
  | classifyingDemo (label : String)
  deriving DecidableEq

def Activity.message : Activity → String
  | readingManifest p => s!"Failed to read manifest {p}"
  | loadingManifest p => s!"Invalid manifest {p}"
  | parsingJson => "Failed to parse manifest JSON"
  | parsingYaml => "Failed to parse manifest YAML"
  | readingSample p => s!"Failed to read assembly sample {p}"
  | readingListing p => s!"Failed to read assembly file {p}"
  | writingListing p => s!"Failed to write cleaned assembly to {p}"
  | trainingFrom p => s!"Failed to train from manifest {p}"
  | classifying p => s!"Failed to classify {p}"
  | trainingDemo => "Failed to train demo classifier"
  | classifyingDemo label => s!"Failed to classify the {label} demo snippet"

/-- The cause and the activities around it, outermost first. -/
structure Failure where
  during : List Activity
  cause : Cause
  deriving DecidableEq

namespace Failure

def messages (f : Failure) : List String := f.during.map Activity.message ++ f.cause.messages

/-- The outermost message. -/
def message (f : Failure) : String := f.messages.headD ""

/-- The messages below the outermost one. -/
def causes (f : Failure) : List String := f.messages.tail

/-- The failure as part of a larger activity. -/
def within (activity : Activity) (f : Failure) : Failure :=
  { f with during := activity :: f.during }

end Failure

end AsmOrigin
