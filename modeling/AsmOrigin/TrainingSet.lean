import AsmOrigin.Fingerprint
import AsmOrigin.Log
import AsmOrigin.OrderedMap

/-!
Training sets and what is learned from one.

A training set is a list of fingerprints beside a list of labels.  It is admitted if the lists are of
one length, the fingerprints of each label are of one size, and every slot is finite and not negative.
The defect that is reported is the first one by label, then by position in the batch, then size before
slots.  An admitted set yields for each of its labels the mean of that label's fingerprints.
-/

namespace AsmOrigin

structure TrainingSet where
  fingerprints : List Fingerprint
  labels : List String
  deriving DecidableEq

inductive ModelError where
  /-- A query came before any label was learned. -/
  | untrained
  | labelCountMismatch (fingerprints labels : Nat)
  | inconsistentSizes (label : String) (expected found : Nat)
  /-- A slot that is negative or not finite. -/
  | invalidSlot (label : String) (slot : Nat)
  deriving DecidableEq

def ModelError.message : ModelError → String
  | untrained => "Classifier has not been trained; no label profiles are available"
  | labelCountMismatch f l => s!"Training data has {f} fingerprints but {l} labels"
  | inconsistentSizes label e f =>
    s!"Fingerprints for label '{label}' have inconsistent lengths ({e} vs {f})"
  | invalidSlot label slot =>
    s!"Fingerprint for label '{label}' has an invalid value in slot {slot}"

namespace TrainingSet

def empty : TrainingSet := ⟨[], []⟩

/-- Number of labels. -/
def size (t : TrainingSet) : Nat := t.labels.length

def isEmpty (t : TrainingSet) : Bool := t.labels.isEmpty && t.fingerprints.isEmpty

/-- One more labelled fingerprint, behind those of the set. -/
def push (t : TrainingSet) (f : Fingerprint) (label : String) : TrainingSet :=
  ⟨t.fingerprints ++ [f], t.labels ++ [label]⟩

/-- The labelled fingerprints as two lists of one length. -/
def ofPairs (pairs : List (String × Fingerprint)) : TrainingSet :=
  ⟨pairs.map (·.2), pairs.map (·.1)⟩

theorem foldl_push (pairs : List (String × Fingerprint)) (t : TrainingSet) :
    pairs.foldl (fun t p => t.push p.2 p.1) t =
      ⟨t.fingerprints ++ pairs.map (·.2), t.labels ++ pairs.map (·.1)⟩ := by
  induction pairs generalizing t with
  | nil => simp
  | cons p pairs ih =>
    rw [List.foldl_cons, ih]
    simp [push]

def append (s t : TrainingSet) : TrainingSet :=
  ⟨s.fingerprints ++ t.fingerprints, s.labels ++ t.labels⟩

instance : Append TrainingSet := ⟨append⟩

/-- The labelled fingerprints in batch order. -/
def pairs (t : TrainingSet) : List (String × Fingerprint) := t.labels.zip t.fingerprints

/-- The fingerprints of each label, in batch order: each is put behind those of its label. -/
def groups (t : TrainingSet) : OrderedMap (List Fingerprint) :=
  t.pairs.foldl (fun m p => m.update p.1 fun members => members.getD [] ++ [p.2]) ∅

end TrainingSet

/-! ## Averaging one label -/

/-- A count-like value: finite and not below zero. -/
def isAdmissible (x : Float) : Bool := x.isFinite && !(x < 0.0)

/-- Adds the values to the sums slot by slot, up to the first value that is not admissible. -/
def addSlots (label : String) : Nat → List Float → List Float → Except ModelError (List Float)
  | slot, sum :: sums, x :: xs =>
    if isAdmissible x then (addSlots label (slot + 1) sums xs).map ((sum + x) :: ·)
    else .error (.invalidSlot label slot)
  | _, sums, _ => .ok sums

/-- Adds the fingerprints of a label in turn, each of which is to have `size` slots. -/
def addMembers (label : String) (size : Nat) :
    List Float → List Fingerprint → Except ModelError (List Float)
  | sums, [] => .ok sums
  | sums, f :: r =>
    if f.size = size then (addSlots label 0 sums f.slots).bind fun sums => addMembers label size sums r
    else .error (.inconsistentSizes label size f.size)

/-- Slot by slot, the sum of the fingerprints of one label divided by their number; nothing if there are
none, and an error at the first defect. -/
def centroid (label : String) (members : List Fingerprint) :
    Except ModelError (Option Fingerprint) :=
  match members with
  | [] => .ok none
  | first :: _ =>
    (addMembers label first.size (List.replicate first.size 0.0) members).map fun sums =>
      some ⟨sums.map (· / ofCount members.length)⟩

/-- Centroids of the groups in turn, up to the first defect, and the report of those averaged. -/
def learnGroups : List (String × List Fingerprint) →
    List LogLine × Except ModelError (List (String × Fingerprint))
  | [] => ([], .ok [])
  | (label, members) :: rest =>
    match centroid label members with
    | .error e => ([], .error e)
    | .ok none => learnGroups rest
    | .ok (some c) =>
      let (log, learned) := learnGroups rest
      (.centroidAveraged label members.length :: log, learned.map ((label, c) :: ·))

/-- What a training set teaches: one centroid per label. -/
def TrainingSet.learn (t : TrainingSet) :
    List LogLine × Except ModelError (List (String × Fingerprint)) :=
  if t.fingerprints.length = t.labels.length then learnGroups t.groups.entries
  else ([], .error (.labelCountMismatch t.fingerprints.length t.labels.length))

end AsmOrigin
