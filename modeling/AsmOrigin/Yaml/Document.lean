import AsmOrigin.Yaml.Node

/-!
YAML documents: one tree, and the nodes that its aliases stand for.

Anchors are numbered in the order of the text by how many different names there were before, so an anchor
that takes an old name gets a new number, and the next new name gets that number too.  An alias stands for
the last node with the number that its name had where the alias stands.  So that a short document cannot
stand for a very long one, only so many aliases of it are followed.
-/

namespace AsmOrigin.Yaml

/-- Numbers of the anchor names met so far. -/
abbrev AnchorNames := List (List Char × Nat)

namespace AnchorNames

def number? (names : AnchorNames) (name : List Char) : Option Nat :=
  (names.find? (·.1 = name)).map (·.2)

/-- Gives a name the next number. -/
def assign (names : AnchorNames) (name : List Char) : AnchorNames :=
  (name, names.length) :: names.filter (·.1 ≠ name)

end AnchorNames

namespace Node

abbrev Numbered := Node Nat

def numberProperties (names : AnchorNames) (p : Properties (List Char)) :
    Properties Nat × AnchorNames :=
  match p.anchor with
  | none => (⟨none, p.tag⟩, names)
  | some name => (⟨some names.length, p.tag⟩, names.assign name)

mutual

/-- The tree with numbers for names; an alias without an anchor before it has none. -/
def number? (names : AnchorNames) : Named → Option (Numbered × AnchorNames)
  | reference name => (names.number? name).map fun n => (reference n, names)
  | scalar props style text =>
    let (props, names) := numberProperties names props
    some (scalar props style text, names)
  | sequence props items =>
    let (props, names) := numberProperties names props
    (numberItems? names items).map fun (ns, names) => (sequence props ns, names)
  | mapping props entries =>
    let (props, names) := numberProperties names props
    (numberEntries? names entries).map fun (es, names) => (mapping props es, names)

def numberItems? (names : AnchorNames) : List Named → Option (List Numbered × AnchorNames)
  | [] => some ([], names)
  | n :: r =>
    match number? names n with
    | none => none
    | some (m, names) => (numberItems? names r).map fun (ms, names) => (m :: ms, names)

def numberEntries? (names : AnchorNames) :
    List (Named × Named) → Option (List (Numbered × Numbered) × AnchorNames)
  | [] => some ([], names)
  | (k, v) :: r =>
    match number? names k with
    | none => none
    | some (k, names) =>
      match number? names v with
      | none => none
      | some (v, names) => (numberEntries? names r).map fun (es, names) => ((k, v) :: es, names)

end

def anchored (props : Properties Nat) (n : Numbered) : List (Nat × Numbered) :=
  match props.anchor with
  | none => []
  | some i => [(i, n)]

mutual

/-- Nodes with an anchor in the order of the text, each before those within it. -/
def anchors : Numbered → List (Nat × Numbered)
  | reference _ => []
  | scalar props style text => anchored props (scalar props style text)
  | sequence props items => anchored props (sequence props items) ++ anchorsOfItems items
  | mapping props entries => anchored props (mapping props entries) ++ anchorsOfEntries entries

def anchorsOfItems : List Numbered → List (Nat × Numbered)
  | [] => []
  | n :: r => anchors n ++ anchorsOfItems r

def anchorsOfEntries : List (Numbered × Numbered) → List (Nat × Numbered)
  | [] => []
  | (k, v) :: r => anchors k ++ anchors v ++ anchorsOfEntries r

end

mutual

/-- Number of parts: one for an alias or a scalar, two for the ends of a collection. -/
def size : Numbered → Nat
  | reference _ => 1
  | scalar .. => 1
  | sequence _ items => 2 + sizeOfItems items
  | mapping _ entries => 2 + sizeOfEntries entries

def sizeOfItems : List Numbered → Nat
  | [] => 0
  | n :: r => size n + sizeOfItems r

def sizeOfEntries : List (Numbered × Numbered) → Nat
  | [] => 0
  | (k, v) :: r => size k + size v + sizeOfEntries r

end

end Node

structure Document where
  root : Node.Numbered
  /-- Nodes with an anchor, the last one of the text first. -/
  anchors : List (Nat × Node.Numbered)

namespace Document

/-- Last node with the number. -/
def target? (d : Document) (i : Nat) : Option Node.Numbered :=
  (d.anchors.find? (·.1 = i)).map (·.2)

/-- A reading of a document: it may fail, and it has so many aliases left to follow. -/
abbrev Reading := StateT Nat Option

/-- The node itself, or what it stands for. -/
def follow (d : Document) : Node.Numbered → Reading Node.Numbered
  | .reference i => fun left => if left = 0 then none else (d.target? i).map (·, left - 1)
  | n => pure n

/-- Aliases are followed a hundred times for each part of the document, and not more often. -/
def read? {α : Type} (d : Document) (r : Reading α) : Option α :=
  (r (100 * d.root.size)).map (·.1)

/-- Adds a directive: one version at most, which must be 1.1 or 1.2, and one prefix per handle. -/
def addDirective? (seen : Bool × Handles) : Directive → Option (Bool × Handles)
  | .version major minor =>
    if !seen.1 && major == 1 && (minor == 1 || minor == 2) then some (true, seen.2) else none
  | .tag handle target =>
    if seen.2.any (·.1 = handle) then none else some (seen.1, seen.2 ++ [(handle, target)])

/-- The directives at the front, and what follows them. -/
def directives? (seen : Bool × Handles) : List Token → Option (Handles × List Token)
  | .directive d :: r => do directives? (← addDirective? seen d) r
  | r => some (seen.2, r)

def endsDocument : List Token → Bool
  | .directive _ :: _ => true
  | .documentStart :: _ => true
  | .documentEnd :: _ => true
  | r => r.isEmpty

def fuelFor (ts : List Token) : Nat := 3 * ts.length + 3

/-- The root node of a document, and what follows it.  Directives must be followed by a document mark;
behind the mark the document may be empty. -/
def root? (ts : List Token) : Option (Node.Named × List Token) := do
  let (given, r) ← directives? (false, []) ts
  let handles := given ++ standardHandles
  match r with
  | .documentStart :: s =>
    if endsDocument s then return (Node.absent, s) else Node.ofTokens? handles true false (fuelFor s) s
  | _ =>
    if given.isEmpty && r.length == ts.length then
      Node.ofTokens? handles true false (fuelFor r) r
    else none

/-- The only document of a text. -/
def parse? (text : String) : Option Document := do
  let (node, r) ← root? (← tokens? text.toList)
  if (r.dropWhile (· == .documentEnd)).isEmpty then
    let (root, _) ← node.number? []
    return ⟨root, root.anchors.reverse⟩
  else none

end Document

end AsmOrigin.Yaml
