import AsmOrigin.Arguments
import AsmOrigin.Commands

/-!
The whole program: arguments in, transcript and exit status out.

The status is 0 for success, 1 for a failure of a command, and 2 for arguments that are not understood.
-/

namespace AsmOrigin

variable {m : Type → Type} [Monad m]

namespace Command

def run (files : Files m) (now : String) : Command → Work m Unit
  | demo copies json => Demo.command copies json
  | classify manifest input json => classifyCommand files now manifest input json
  | fingerprint input json => fingerprintCommand files input json
  | clean input output => cleanCommand files input output

end Command

namespace Program

def versionLine : String := s!"asmid {Demo.version}\n"

def usage : String :=
  "Usage: asmid [--verbose] [demo [--copies N] [--json]\n" ++
  "  | classify --manifest FILE --input FILE [--json]\n" ++
  "  | fingerprint --input FILE [--json]\n" ++
  "  | clean --input FILE [--output FILE]]\n"

structure Exit where
  status : Nat
  output : String
  /-- What was reported, if it was to be shown. -/
  log : List LogLine
  failure : Option Failure
  deriving DecidableEq

/-- How the program ends after a command. -/
def exitOf (verbose : Bool) (result : Except Failure Unit × Transcript) : Exit :=
  let log := if verbose then result.2.log else []
  match result.1 with
  | .ok () => ⟨0, result.2.output, log, none⟩
  | .error f => ⟨1, result.2.output, log, some f⟩

def run (files : Files m) (now : String) (args : List String) : m Exit :=
  match Arguments.parse args with
  | .version => pure ⟨0, versionLine, [], none⟩
  | .help => pure ⟨0, usage, [], none⟩
  | .invalid => pure ⟨2, "", [], none⟩
  | .run verbose command => do return exitOf verbose (← (command.run files now).run)

end Program

end AsmOrigin
