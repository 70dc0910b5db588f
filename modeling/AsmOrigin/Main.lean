import AsmOrigin.Calendar
import AsmOrigin.Program
import Std.Time.DateTime.Timestamp

/-!
The program on the files of this computer.

Output goes to standard output; what is reported and why a command failed go to standard error.
-/

namespace AsmOrigin.Main

/-- What the system answered, by its error number. -/
def fileError (e : IO.Error) : FileError :=
  match e with
  | .noFileOrDirectory .. => .notFound
  | .inappropriateType _ code _ => if code == 21 then .isDirectory else .notDirectory
  | .invalidArgument _ code _ => if code == 36 then .nameTooLong else .other (toString e)
  | .permissionDenied _ code _ => if code == 13 then .denied else .other (toString e)
  | .resourceExhausted _ code _ => if code == 28 then .discFull else .other (toString e)
  | e => .other (toString e)

def attempt {α : Type} (action : IO α) : IO (Except FileError α) := do
  match ← action.toBaseIO with
  | .ok a => return .ok a
  | .error e => return .error (fileError e)

/-- The files of this computer. -/
def files : Files IO where
  Handle := IO.FS.Handle
  read path := do
    match FileTree.pathError? path with
    | some e => return .error e
    | none => attempt (IO.FS.readBinFile path)
  create path := do
    match FileTree.pathError? path with
    | some e => return .error e
    | none => attempt (IO.FS.Handle.mk path .write)
  fill file content := attempt do
    file.write content
    file.flush

def logLine (l : LogLine) : String := s!"[{l.level.name}] {l.message}"

/-- What is said of a failure: its message, then its causes. -/
def failureLines (f : Failure) : List String :=
  ["Error: " ++ f.message] ++
    (if f.causes.isEmpty then [] else "" :: "Caused by:" :: f.causes.map ("    " ++ ·))

end AsmOrigin.Main

open AsmOrigin in
def main (args : List String) : IO UInt32 := do
  let now ← Std.Time.Timestamp.now
  let e ← Program.run Main.files (Calendar.dateTime now.toNanosecondsSinceUnixEpoch.val.toNat) args
  (← IO.getStdout).putStr e.output
  (← IO.getStdout).flush
  let lines := e.log.map Main.logLine ++ (e.failure.map Main.failureLines).getD [] ++
    (if e.status = 2 then [Program.usage] else [])
  for line in lines do
    (← IO.getStderr).putStrLn line
  return UInt32.ofNat e.status
