import AsmOrigin.Manifest.Samples
import AsmOrigin.Proofs.Manifest.InlineListings
import AsmOrigin.Proofs.Manifest.WellFormed
import AsmOrigin.Proofs.Work

/-!
Loading manifests from files.

Loading ends in the parse of the file's text (`Manifest.endsIn_loadWith`), and whatever the readers do,
only a well-formed manifest comes out of it.  Validation accepts exactly those, and tells of any other the
first condition violated (`Manifest.validate_by_conditions`).
-/

namespace AsmOrigin.Manifest

open Work

variable {readers : Readers} {t : FileTree} {path : String} {m : Manifest}

/-! ## Loading -/

/-- What loading ends in: no text, or the parse of the text. -/
def loadedFrom (readers : Readers) (t : FileTree) (path : String) : Except Failure Manifest :=
  match t.textOf path with
  | .error e => .error ⟨[.readingManifest path], .file e⟩
  | .ok body =>
    (parseWith readers body (formatOf path)).mapError (Failure.within (.loadingManifest path))

theorem endsIn_loadWith (readers : Readers) (t : FileTree) (path : String) :
    EndsIn (loadWith readers Files.ofTree path) t (loadedFrom readers t path) := by
  have hread := endsIn_within_readText t path (.readingManifest path)
  unfold loadedFrom
  cases hbody : t.textOf path with
  | error e =>
    rw [hbody] at hread
    exact endsIn_bind_error hread _
  | ok body =>
    rw [hbody] at hread
    exact endsIn_bind_ok hread (endsIn_within (endsIn_ofExcept rfl) _)

/-- Failures to load a manifest: its file cannot be read, its text is no manifest of its format, or it is
refused for a defect or for its format. -/
inductive LoadFailure (path : String) : Failure → Prop
  | unreadable (error : FileError) : LoadFailure path ⟨[.readingManifest path], .file error⟩
  | json : LoadFailure path ⟨[.loadingManifest path, .parsingJson], .unparsable⟩
  | yaml : LoadFailure path ⟨[.loadingManifest path, .parsingYaml], .unparsable⟩
  | refused (error : ManifestError) : LoadFailure path ⟨[.loadingManifest path], .manifest error⟩

theorem failure_of_parsed {activity : Activity} {v : Option Manifest} {e : Failure}
    (h : parsed activity v = .error e) :
    e = ⟨[activity], .unparsable⟩ ∨ ∃ error, e = ⟨[], .manifest error⟩ := by
  cases v with
  | none =>
    cases h
    exact .inl rfl
  | some m =>
    change checked m = .error e at h
    unfold checked at h
    split at h
    · cases h
    · rename_i error _
      cases h
      exact .inr ⟨error, rfl⟩

theorem failure_of_loadedFrom {path : String} {e : Failure} (h : loadedFrom readers t path = .error e) :
    LoadFailure path e := by
  unfold loadedFrom at h
  split at h
  · rename_i error _
    cases h
    exact .unreadable error
  · rename_i body _
    obtain ⟨e', hparse, rfl⟩ := mapError_eq_error_iff.1 h
    unfold parseWith at hparse
    split at hparse
    · rcases failure_of_parsed hparse with rfl | ⟨error, rfl⟩
      · exact .json
      · exact .refused error
    · split at hparse
      · rcases failure_of_parsed hparse with rfl | ⟨error, rfl⟩
        · exact .yaml
        · exact .refused error
      · cases hparse
        exact .refused _

/-- A manifest that was loaded was read from the text of its file. -/
theorem exists_parse_of_loadedFrom (h : loadedFrom readers t path = .ok m) :
    ∃ body, t.textOf path = .ok body ∧ parseWith readers body (formatOf path) = .ok m := by
  unfold loadedFrom at h
  split at h
  · cases h
  · rename_i body hbody
    exact ⟨body, hbody, mapError_eq_ok_iff.1 h⟩

/-- A manifest that was loaded is well formed, and its inline listings are no longer than its file. -/
theorem fits_of_loadedFrom {n : Nat} (hreaders : readers.Bounded)
    (hfiles : ∀ path text, t.textOf path = .ok text → text.toList.length ≤ n)
    (h : loadedFrom readers t path = .ok m) : m.defect? = none ∧ ∀ s ∈ m.samples, s.Fits n := by
  obtain ⟨body, hbody, hparse⟩ := exists_parse_of_loadedFrom h
  refine ⟨(read_of_parseWith hparse).2, fun s hs code hcode => ?_⟩
  exact (fits_of_parseWith hreaders hparse s hs code hcode).trans (hfiles path body hbody)

/-! ## Validating -/

theorem wellFormed_of_parseWith {body format : String} (h : parseWith readers body format = .ok m) :
    m.WellFormed :=
  defect?_eq_none_iff.1 (read_of_parseWith h).2

/-- Validation accepts exactly the well-formed manifests.  Of any other manifest it tells the error of the
first condition violated, where the conditions are those on the name, the list of samples, and each
sample in turn: that on a sample comes behind well-formed ones and its message tells its place.  Whatever
is read from a text or loaded from a file is well formed, however the two formats are read. -/
theorem validate_by_conditions (m : Manifest) :
    (m.validate = .ok () ↔ m.WellFormed) ∧
    (∀ e, m.validate = .error e ↔ FirstViolated m.conditions e) ∧
    (∀ e, m.validate = .error e → e = .nameMissing ∨ e = .noSamples m.name ∨
      ∃ before s behind, m.samples = before ++ s :: behind ∧ (∀ b ∈ before, b.WellFormed) ∧
        FirstViolated (s.conditions m.name before.length) e ∧
        ∃ rest : String, e.message = s!"Sample #{before.length} {rest}") ∧
    ∀ readers : Readers, (∀ body format, parseWith readers body format = .ok m → m.WellFormed) ∧
      ∀ (t : FileTree) (path : String),
        (loadWith readers Files.ofTree path).result t = .ok m → m.WellFormed := by
  refine ⟨validate_eq_ok_iff, fun e => validate_eq_error_iff, fun e he => ?_,
    fun readers => ⟨fun body format h => wellFormed_of_parseWith h, fun t path h => ?_⟩⟩
  · rw [validate_eq_error_iff, conditions, firstViolated_cons, firstViolated_cons] at he
    rcases he with ⟨-, rfl⟩ | ⟨-, ⟨-, rfl⟩ | ⟨-, he⟩⟩
    · exact .inl rfl
    · exact .inr (.inl rfl)
    · obtain ⟨before, s, behind, hsplit, hbefore, hs⟩ := exists_of_firstViolated_sampleConditions he
      rw [Nat.zero_add] at hs
      exact .inr (.inr ⟨before, s, behind, hsplit, hbefore, hs, Sample.message_of_firstViolated hs⟩)
  · rw [(endsIn_loadWith readers t path).result_eq] at h
    obtain ⟨body, -, hparse⟩ := exists_parse_of_loadedFrom h
    exact wellFormed_of_parseWith hparse

/-- The second sample has two sources and is never repeated, and the third has no label. -/
example : validate ⟨"m", none, [⟨"c", none, some "mov", none⟩, ⟨"go", some "a.s", some "ret", some 0⟩,
    ⟨" ", none, some "mov", none⟩]⟩ = .error (.twoSources 1 "go") := by
  decide +kernel

end AsmOrigin.Manifest
