import AsmOrigin.Failure
import AsmOrigin.Files.Path

/-!
A tree of files, and what reading and writing by path do to it.

Places are lists of names from the root.  A path is walked name by name: all names but the last must be
directories, a dot stays, two dots go up, and a slash at the end asks for a directory.

A file is written in two steps.  Opening it empties it, and the content follows as far as the disc takes
it.  So a write that fails after the first step has lost what the file held.
-/

namespace AsmOrigin

inductive Entry where
  | file (content : ByteArray)
  | directory

abbrev Place := List String

structure FileTree where
  /-- All but the root and the directories down to the working directory. -/
  entries : List (Place × Entry)
  workingDirectory : Place
  /-- Places where no file may be opened for writing. -/
  readOnly : List Place
  /-- How many bytes the disc still takes, if it can run full. -/
  room : Option Nat

namespace FileTree

def lookup (t : FileTree) (place : Place) : Option Entry :=
  if place.isPrefixOf t.workingDirectory then some .directory
  else (t.entries.find? (·.1 = place)).map (·.2)

def isDirectory (t : FileTree) (place : Place) : Bool :=
  match t.lookup place with
  | some .directory => true
  | _ => false

/-- Longest name of one component, in bytes. -/
def nameLimit : Nat := 255

/-- All paths are shorter than this, in bytes. -/
def pathLimit : Nat := 4096

/-- What is wrong with a path whatever it leads to. -/
def pathError? (path : String) : Option FileError :=
  if path.toList.contains '\x00' then some .nulInName
  else if path.isEmpty then some .notFound
  else if pathLimit ≤ path.utf8ByteSize then some .nameTooLong
  else none

/-- Where a path starts. -/
def origin (t : FileTree) (path : String) : Place :=
  if Path.isAbsolute path then [] else t.workingDirectory

/-- The place that a walk over the given names leads to. -/
def walk (t : FileTree) (place : Place) : List String → Except FileError Place
  | [] => .ok place
  | name :: rest =>
    if !t.isDirectory place then .error .notDirectory
    else if name = "" ∨ name = "." then t.walk place rest
    else if name = ".." then t.walk place.dropLast rest
    else if nameLimit < name.utf8ByteSize then .error .nameTooLong
    else match t.lookup (place ++ [name]) with
      | none => .error .notFound
      | some _ => t.walk (place ++ [name]) rest

/-- The content of the file at a place. -/
def contentAt (t : FileTree) (place : Place) : Option ByteArray :=
  match t.lookup place with
  | some (.file content) => some content
  | _ => none

/-- The bytes of the file at a place, none where no file is. -/
def sizeAt (t : FileTree) (place : Place) : Nat := ((t.contentAt place).map ByteArray.size).getD 0

/-! ## Reading -/

/-- The place of something that exists. -/
def locate (t : FileTree) (path : String) : Except FileError Place :=
  match pathError? path with
  | some e => .error e
  | none => t.walk (t.origin path) (Path.components path)

def read (t : FileTree) (path : String) : Except FileError ByteArray := do
  match t.lookup (← t.locate path) with
  | some (.file content) => .ok content
  | some .directory => .error .isDirectory
  | none => .error .notFound

/-! ## Writing -/

/-- Directory names and last name of a path, and whether slashes follow. -/
def splitLast (path : String) : List String × String × Bool :=
  let reversed := (Path.components path).reverse
  let named := reversed.dropWhile (· = "")
  (named.tail.reverse, named.headD "", named.length < reversed.length)

/-- The place of a file to be written, which need not exist. -/
def target (t : FileTree) (path : String) : Except FileError Place :=
  match pathError? path with
  | some e => .error e
  | none => do
    let (directories, name, slashed) := splitLast path
    let place ← t.walk (t.origin path) directories
    if !t.isDirectory place then .error .notDirectory
    else if slashed ∨ name = "" ∨ name = "." ∨ name = ".." then .error .isDirectory
    else if nameLimit < name.utf8ByteSize then .error .nameTooLong
    else if t.isDirectory (place ++ [name]) then .error .isDirectory
    else .ok (place ++ [name])

/-- The tree with one entry new or replaced. -/
def set (t : FileTree) (place : Place) (entry : Entry) : FileTree :=
  { t with entries := (place, entry) :: t.entries.filter (·.1 ≠ place) }

/-- Opens a file for writing, which is new or loses what it held. -/
def create (t : FileTree) (path : String) : Except FileError (Place × FileTree) := do
  let place ← t.target path
  if place ∈ t.readOnly then .error .denied
  else return (place, { t.set place (.file .empty) with room := t.room.map (· + t.sizeAt place) })

/-- How many of so many bytes the disc takes. -/
def accepted (t : FileTree) (size : Nat) : Nat :=
  match t.room with
  | none => size
  | some room => min room size

/-- Writes to a file that was just opened, until the disc is full. -/
def fill (t : FileTree) (place : Place) (content : ByteArray) : Except FileError Unit × FileTree :=
  let n := t.accepted content.size
  let written := content.extract 0 n
  (if n < content.size then .error .discFull else .ok (),
    { t.set place (.file written) with room := t.room.map (· - n) })

/-! ## Building -/

/-- An empty working directory among temporary files, on a disc that does not run full.  Its name is empty,
so that no path can lead to it by name. -/
def empty : FileTree := ⟨[], ["tmp", ""], [], none⟩

/-- Adds what is missing of the directories down to a place. -/
def addDirectories (t : FileTree) (place : Place) : FileTree :=
  (List.range place.length).foldl
    (fun t i =>
      let p := place.take (i + 1)
      if (t.lookup p).isSome then t else t.set p .directory) t

/-- Adds a file or, by a name that ends in a slash, a directory to the working directory. -/
def add (t : FileTree) (name : String) (content : ByteArray) : FileTree :=
  let (directories, last, slashed) := splitLast name
  let place := t.workingDirectory ++ directories
  if slashed then t.addDirectories (place ++ [last])
  else (t.addDirectories place).set (place ++ [last]) (.file content)

end FileTree

end AsmOrigin
