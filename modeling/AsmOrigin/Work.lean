import AsmOrigin.Files.Tree
import AsmOrigin.Log

/-!
Operations that use files, print, report and may fail.

An operation reaches files only through `Files`, so the same operation runs on a tree of files and on the
files of a computer.  What was printed and reported stays when an operation fails.
-/

namespace AsmOrigin

/-- How to read a file, and how to write one: it is opened first and its content follows. -/
structure Files (m : Type → Type) where
  /-- A file that is open for writing. -/
  Handle : Type
  read : String → m (Except FileError ByteArray)
  /-- Makes a file, or empties the one that is there. -/
  create : String → m (Except FileError Handle)
  /-- Writes all of the content to a file that was just opened, or fails on the way. -/
  fill : Handle → ByteArray → m (Except FileError Unit)

/-- Writes a whole file. -/
def Files.write {m : Type → Type} [Monad m] (files : Files m) (path : String) (content : ByteArray) :
    m (Except FileError Unit) := do
  match ← files.create path with
  | .error e => return .error e
  | .ok file => files.fill file content

/-- The files of a tree that changes with what is written. -/
def Files.ofTree : Files (StateM FileTree) where
  Handle := Place
  read path := fun t => (t.read path, t)
  create path := fun t =>
    match t.create path with
    | .ok (place, u) => (.ok place, u)
    | .error e => (.error e, t)
  fill place content := fun t => t.fill place content

/-- What an operation has printed and reported so far. -/
structure Transcript where
  output : String
  log : List LogLine
  deriving DecidableEq

def Transcript.empty : Transcript := ⟨"", []⟩

/-- An operation that ends in a failure or a value, and in a transcript. -/
abbrev Work (m : Type → Type) := ExceptT Failure (StateT Transcript m)

namespace Work

variable {m : Type → Type} [Monad m] {α : Type}

def print (text : String) : Work m Unit := modify fun t => { t with output := t.output ++ text }

def printLine (text : String) : Work m Unit := print (text ++ "\n")

def report (lines : List LogLine) : Work m Unit := modify fun t => { t with log := t.log ++ lines }

/-- A failure of the operation becomes a failure of the activity around it. -/
def within (activity : Activity) (w : Work m α) : Work m α :=
  fun t => do
    let (r, t) ← w t
    return (r.mapError (Failure.within activity), t)

/-- A result that is already there. -/
def ofExcept : Except Failure α → Work m α := fun r => fun t => pure (r, t)

def ofModel (r : Except ModelError α) : Work m α := ofExcept (r.mapError fun e => ⟨[], .model e⟩)

/-- The answer of the file system. -/
def ofFile (answer : m (Except FileError α)) : Work m α := fun t => do
  return ((← answer).mapError fun e => ⟨[], .file e⟩, t)

/-- A file's content as text. -/
def readText (files : Files m) (path : String) : Work m String := do
  let content ← ofFile (files.read path)
  match String.fromUTF8? content with
  | some text => return text
  | none => throw ⟨[], .file .notText⟩

def writeText (files : Files m) (path text : String) : Work m Unit :=
  ofFile (files.write path text.toUTF8)

/-- An assembly listing. -/
def readListing (files : Files m) (path : String) : Work m String :=
  within (.readingListing path) (readText files path)

/-- Runs an operation from an empty transcript. -/
def run (w : Work m α) : m (Except Failure α × Transcript) := w Transcript.empty

end Work

end AsmOrigin
