import AsmOrigin.Demo

/-!
Command-line arguments.

Options are written `--name value` or `--name=value`, flags `--name`; neither may be repeated.  A value may
begin with a hyphen only if it is nothing but a hyphen or stands behind an equals sign.  `--` ends the
options, and nothing may follow it.  The flag `--verbose` may stand before or after the command.  Arguments
are judged in turn: the first one that is wrong, or that asks for help or for the version, decides.
-/

namespace AsmOrigin

inductive Command where
  | demo (copies : Nat) (json : Bool)
  | classify (manifest input : String) (json : Bool)
  | fingerprint (input : String) (json : Bool)
  | clean (input : String) (output : Option String)
  deriving DecidableEq

/-- What the arguments ask for. -/
inductive Invocation where
  | run (verbose : Bool) (command : Command)
  | version
  | help
  /-- The arguments are not understood. -/
  | invalid
  deriving DecidableEq

namespace Arguments

/-- Which options a command takes with a text, which with a number, and which as flags. -/
structure Grammar where
  texts : List String
  counts : List String
  flags : List String

/-- Name of a long option, and the value glued to it by an equals sign. -/
def longOption? (arg : String) : Option (String × Option String) :=
  match arg.toList with
  | '-' :: '-' :: r =>
    let name := String.ofList (r.takeWhile (· != '='))
    match r.dropWhile (· != '=') with
    | [] => some (name, none)
    | _ :: value => some (name, some (String.ofList value))
  | _ => none

/-- The argument can be the value of the option before it. -/
def isValue (arg : String) : Bool := arg == "-" || arg.toList.head? != some '-'

/-- Options with their values, a flag's being empty. -/
abbrev Options := List (String × String)

/-- What the arguments behind a command are. -/
inductive Reading where
  | options (given : Options)
  | help
  | invalid

/-- A decimal number below 2⁶⁴, perhaps with a plus sign. -/
def count? (text : String) : Option Nat :=
  let ds := match text.toList with
    | '+' :: r => r
    | r => r
  if ds.isEmpty || !ds.all Char.isDigit then none
  else
    let n := ds.foldl (fun n c => 10 * n + (c.toNat - '0'.toNat)) 0
    if n < Nat.pow 2 64 then some n else none

/-- The command takes an option of that name, and the option takes that value. -/
def Grammar.takes (g : Grammar) (name value : String) : Bool :=
  g.texts.contains name || (g.counts.contains name && (count? value).isSome)

/-- The options in turn, none of them twice; the first argument that is none decides. -/
def readOptions (g : Grammar) (seen : Options) : List String → Reading
  | [] => .options seen
  | arg :: r =>
    if arg == "--" then (if r.isEmpty then .options seen else .invalid)
    else if arg.toList.take 2 == ['-', 'h'] || arg == "--help" then .help
    else match longOption? arg with
    | none => .invalid
    | some (name, glued) =>
      if seen.any (·.1 == name) then .invalid
      else if g.flags.contains name then
        if glued.isNone then readOptions g ((name, "") :: seen) r else .invalid
      else
        match glued, r with
        | some value, r =>
          if g.takes name value then readOptions g ((name, value) :: seen) r else .invalid
        | none, value :: s =>
          if isValue value && g.takes name value then readOptions g ((name, value) :: seen) s
          else .invalid
        | none, [] => .invalid
termination_by args => args.length

def Options.value? (o : Options) (name : String) : Option String :=
  (o.find? (·.1 == name)).map (·.2)

def Options.has (o : Options) (name : String) : Bool := (o.value? name).isSome

/-- A command by its name: the options it takes, and what they make of it. -/
def command? (name : String) : Option (Grammar × (Options → Option Command)) :=
  match name with
  | "demo" => some (⟨[], ["copies"], ["json"]⟩, fun o => do
      let copies ← match o.value? "copies" with
        | none => some Demo.defaultCopies
        | some text => count? text
      return .demo copies (o.has "json"))
  | "classify" => some (⟨["manifest", "input"], [], ["json"]⟩, fun o => do
      return .classify (← o.value? "manifest") (← o.value? "input") (o.has "json"))
  | "fingerprint" => some (⟨["input"], [], ["json"]⟩, fun o => do
      return .fingerprint (← o.value? "input") (o.has "json"))
  | "clean" => some (⟨["input", "output"], [], []⟩, fun o => do
      return .clean (← o.value? "input") (o.value? "output"))
  | _ => none

/-- Help is given on the whole program or on one command, itself included. -/
def parseHelp : List String → Invocation
  | [] => .help
  | [name] => if name == "help" || (command? name).isSome then .help else .invalid
  | _ => .invalid

/-- The arguments behind a command's name. -/
def parseCommand (verbose : Bool) (name : String) (rest : List String) : Invocation :=
  match command? name with
  | none => if name == "help" then parseHelp rest else .invalid
  | some (g, build) =>
    match readOptions { g with flags := "verbose" :: g.flags } [] rest with
    | .invalid => .invalid
    | .help => .help
    | .options o =>
      match build o with
      | none => .invalid
      | some c => .run (verbose || o.has "verbose") c

/-- The demonstration is what is run without a command. -/
def withoutCommand (verbose : Bool) : Invocation := .run verbose (.demo Demo.defaultCopies false)

/-- The arguments from the front, where `verbose` tells whether the flag was given. -/
def parseFrom (verbose : Bool) : List String → Invocation
  | [] => withoutCommand verbose
  | arg :: r =>
    if arg == "--" then (if r.isEmpty then withoutCommand verbose else .invalid)
    else if arg == "--verbose" then (if verbose then .invalid else parseFrom true r)
    else if arg == "--version" then .version
    else if arg == "--help" then .help
    else match arg.toList with
    | '-' :: 'V' :: _ => .version
    | '-' :: 'h' :: _ => .help
    | '-' :: _ => .invalid
    | _ => parseCommand verbose arg r

def parse (args : List String) : Invocation := parseFrom false args

end Arguments

end AsmOrigin
