/-!
What the program reports while it works.
-/

namespace AsmOrigin

inductive LogLevel where
  | debug
  | info
  deriving DecidableEq

namespace LogLevel

def name : LogLevel → String
  | debug => "DEBUG"
  | info => "INFO"

end LogLevel

inductive LogLine where
  /-- One label's fingerprints were averaged. -/
  | centroidAveraged (label : String) (samples : Nat)
  /-- A whole batch was learned. -/
  | trainingComplete (samples : Nat) (labels : Nat)
  /-- A manifest was expanded. -/
  | manifestResolved (name : String) (samples : Nat)
  deriving DecidableEq

namespace LogLine

def level : LogLine → LogLevel
  | centroidAveraged .. => .debug
  | trainingComplete .. => .info
  | manifestResolved .. => .debug

def message : LogLine → String
  | centroidAveraged label n => s!"Centroid for '{label}' averaged from {n} samples"
  | trainingComplete n k => s!"Training complete: {n} samples in batch, {k} label profiles known"
  | manifestResolved name n => s!"Manifest '{name}' resolved to {n} training samples"

end LogLine

end AsmOrigin
