import AsmOrigin.Text.Word

/-!
Path texts: only a slash separates components, and one at the front makes a path absolute.
-/

namespace AsmOrigin.Path

def isAbsolute (path : String) : Bool := path.toList.head? == some '/'

/-- Components as written; empty ones stand between two slashes, before the first and after the last. -/
def components (path : String) : List String :=
  (Text.splitAt (· == '/') path.toList).map String.ofList

/-- A path seen from a directory.  An absolute path stands for itself. -/
def join (base path : String) : String :=
  if isAbsolute path || base.isEmpty then path
  else if base.toList.getLast? == some '/' then base ++ path
  else base ++ "/" ++ path

/-- A reversed path without slashes and single dots at its end, but for a path that is nothing else. -/
def trimReversed : List Char → List Char
  | ['/'] => ['/']
  | ['.'] => ['.']
  | '/' :: r => trimReversed r
  | '.' :: '/' :: r => trimReversed ('/' :: r)
  | r => r

/-- The path without its last component; the root and the empty path have no parent. -/
def parent? (path : String) : Option String :=
  let whole := trimReversed path.toList.reverse
  if whole = [] ∨ whole = ['/'] then none
  else some (String.ofList (trimReversed (whole.dropWhile (· != '/'))).reverse)

/-- The last component, if it is a name. -/
def fileName? (path : String) : Option (List Char) :=
  let name := ((trimReversed path.toList.reverse).takeWhile (· != '/')).reverse
  if name = [] ∨ name = ['.'] ∨ name = ['.', '.'] then none else some name

/-- What follows the last dot of the file name; a dot at its front does not count. -/
def extension? (path : String) : Option (List Char) := do
  let name ← fileName? path
  let ext := (name.reverse.takeWhile (· != '.')).reverse
  if name.length ≤ ext.length + 1 then none else some ext

end AsmOrigin.Path
