import AsmOrigin.Profile
import AsmOrigin.TrainingSet

/-!
Nearest-centroid classification of fingerprints.

A classifier keeps one centroid per label.  Training on a set replaces the centroids of the labels in
it and keeps all others; a set that is refused changes nothing, also where a classifier is trained in
place.  A query scores every centroid by
similarity.  The label predicted is the first one, in label order, with the greatest score, where a
score that is not a number never wins; confidences are the scores divided by their sum.
-/

namespace AsmOrigin

structure Classifier where
  matcher : Matcher
  centroids : OrderedMap Fingerprint

/-- Best label beside the confidence of every known label. -/
structure Prediction where
  label : String
  confidences : OrderedMap Float
  deriving DecidableEq

/-- Confidence of the predicted label, zero if it is not among the known ones. -/
def Prediction.confidence (p : Prediction) : Float := (p.confidences.get? p.label).getD 0.0

/-- The training set of labelled listings: the fingerprint of each is taken and pushed in turn. -/
def TrainingSet.ofSamples (m : Matcher) (samples : List (String × String)) : TrainingSet :=
  samples.foldl (fun t s => t.push (.ofListing m s.2) s.1) .empty

theorem TrainingSet.ofSamples_eq (m : Matcher) (samples : List (String × String)) :
    ofSamples m samples = .ofPairs (samples.map fun s => (s.1, .ofListing m s.2)) := by
  have h := foldl_push (samples.map fun s => (s.1, Fingerprint.ofListing m s.2)) .empty
  rw [List.foldl_map] at h
  exact h

theorem TrainingSet.fingerprints_ofSamples (m : Matcher) (samples : List (String × String)) :
    (ofSamples m samples).fingerprints = samples.map fun s => .ofListing m s.2 := by
  rw [ofSamples_eq]
  exact List.map_map

theorem TrainingSet.labels_ofSamples (m : Matcher) (samples : List (String × String)) :
    (ofSamples m samples).labels = samples.map (·.1) := by
  rw [ofSamples_eq]
  exact List.map_map

namespace Classifier

def untrained (m : Matcher) : Classifier := ⟨m, ∅⟩

def isTrained (c : Classifier) : Bool := !c.centroids.isEmpty

/-- Known labels in order. -/
def labels (c : Classifier) : List String := c.centroids.keys

/-! ## Training -/

/-- The classifier with new centroids in place of those of the same labels. -/
def adopt (c : Classifier) (learned : List (String × Fingerprint)) : Classifier :=
  { c with centroids := learned.foldl (fun m e => m.insert e.1 e.2) c.centroids }

/-- Learns a whole set or nothing, and reports what it did. -/
def train (c : Classifier) (t : TrainingSet) : List LogLine × Except ModelError Classifier :=
  match t.learn with
  | (log, .error e) => (log, .error e)
  | (log, .ok learned) =>
    let trained := c.adopt learned
    (log ++ [.trainingComplete t.size trained.centroids.size], .ok trained)

/-- Learns labelled listings by their fingerprints. -/
def trainSamples (c : Classifier) (samples : List (String × String)) :
    List LogLine × Except ModelError Classifier :=
  c.train (.ofSamples c.matcher samples)

/-! ## Training in place -/

/-- An operation on a classifier that changes it, also if it ends in an error. -/
abbrev Change := ExceptT ModelError (StateM Classifier)

/-- A new centroid in place of the one of the same label. -/
def put (c : Classifier) (e : String × Fingerprint) : Classifier :=
  { c with centroids := c.centroids.insert e.1 e.2 }

/-- Learns the whole set first and puts the centroids in place one after another then. -/
def trainInPlace (t : TrainingSet) : Change Unit := do
  let learned ← ExceptT.mk (pure t.learn.2)
  learned.forM fun e => modify (·.put e)

def trainSamplesInPlace (samples : List (String × String)) : Change Unit := do
  let c ← get
  trainInPlace (.ofSamples c.matcher samples)

/-- What the operation answers. -/
def answer (w : Change Unit) (c : Classifier) : Except ModelError Unit := (w.run.run c).1

/-- The classifier after the operation. -/
def after (w : Change Unit) (c : Classifier) : Classifier := (w.run.run c).2

/-! ## Queries -/

/-- Similarity to every centroid, in label order. -/
def scores (c : Classifier) (f : Fingerprint) : List (String × Float) :=
  c.centroids.entries.map (fun e => (e.1, similarity f e.2))

/-- First label with the greatest score; no label at all if no score is a number. -/
def bestLabel (scores : List (String × Float)) : String :=
  (scores.foldl (fun best s => if s.2 > best.2 then s else best) ("", -1.0)).1

/-- One score relative to the sum of all, or as it is if that sum is not positive. -/
def share (total score : Float) : Float := if total > 0.0 then score / total else score

/-- Requires a trained classifier. -/
def whenTrained {α : Type} (c : Classifier) (answer : α) : Except ModelError α :=
  if c.isTrained then .ok answer else .error .untrained

/-- Label whose centroid is most similar to the fingerprint. -/
def predictFingerprint (c : Classifier) (f : Fingerprint) : Except ModelError String :=
  c.whenTrained (bestLabel (c.scores f))

/-- The scores of the fingerprint as shares of their sum. -/
def shares (c : Classifier) (f : Fingerprint) : OrderedMap Float :=
  let total := sumFloats ((c.scores f).map (·.2))
  c.centroids.mapValues (fun _ centroid => share total (similarity f centroid))

/-- Confidence of every known label. -/
def confidencesFor (c : Classifier) (f : Fingerprint) : Except ModelError (OrderedMap Float) :=
  c.whenTrained (c.shares f)

/-- Fingerprint of a listing as this classifier sees it. -/
def extract (c : Classifier) (listing : String) : Fingerprint := .ofListing c.matcher listing

def predict (c : Classifier) (listing : String) : Except ModelError String :=
  c.predictFingerprint (c.extract listing)

def confidences (c : Classifier) (listing : String) : Except ModelError (OrderedMap Float) :=
  c.confidencesFor (c.extract listing)

/-- Best label and all confidences of one listing. -/
def classify (c : Classifier) (listing : String) : Except ModelError Prediction :=
  let f := c.extract listing
  c.whenTrained ⟨bestLabel (c.scores f), c.shares f⟩

end Classifier

end AsmOrigin
