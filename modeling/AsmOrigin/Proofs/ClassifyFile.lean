import AsmOrigin.Commands
import AsmOrigin.Proofs.Manifest.Expansion
import AsmOrigin.Proofs.Training.Listings

/-!
Classifying a file with a classifier trained from a manifest.

The command ends in the first failure of loading the manifest, expanding it, or reading the file to be
classified; if there is none it succeeds (`endsIn_classifyFile`).  Neither training nor the query can
fail, since the listings of a well-formed manifest are a batch that is never refused.
-/

namespace AsmOrigin

open Work Classifier

variable {readers : Readers} {t : FileTree} {samples : List (String × String)}

/-- Training on listings and asking for one more is without failures, whatever is reported meanwhile. -/
theorem exists_endsIn_trained (hne : samples ≠ [])
    (hlen : ∀ s ∈ samples, s.2.toList.length < 2 ^ 64) :
    ∃ c, (∀ t : FileTree,
        EndsIn (trained ((untrained .substring).trainSamples samples)) t (.ok c)) ∧
      ∀ listing : String, listing.toList.length < 2 ^ 64 →
        ∃ p, c.classify listing = .ok p ∧ p.Ranks (samples.map (·.1)) := by
  obtain ⟨c, hc, hranks⟩ := classify_ranks Matcher.wordSized_substring hne hlen
  refine ⟨c, fun t => ?_, hranks⟩
  refine endsIn_bind_ok (endsIn_report _) (endsIn_ofExcept ?_)
  rw [hc]
  rfl

/-- The steps of the command once its manifest was loaded and expanded. -/
theorem endsIn_classifyFile (hash : List UInt8 → String) (now inputPath : String)
    {manifestPath : String} {manifest : Manifest}
    (hload : Manifest.loadedFrom readers t manifestPath = .ok manifest) (hdefect : manifest.defect? = none)
    (hresolve : Manifest.expandedIn t (Manifest.baseOf manifestPath) manifest.samples = .ok samples)
    (hne : samples ≠ []) (hlen : ∀ s ∈ samples, s.2.toList.length < 2 ^ 64) :
    (∀ error, t.textOf inputPath = .error error →
      EndsIn (classifyFileWith readers hash Files.ofTree now manifestPath inputPath) t
        (.error ⟨[.readingListing inputPath], .file error⟩)) ∧
    ∀ listing, t.textOf inputPath = .ok listing → listing.toList.length < 2 ^ 64 →
      ∃ report : ClassificationReport, report.prediction.Ranks (samples.map (·.1)) ∧
        EndsIn (classifyFileWith readers hash Files.ofTree now manifestPath inputPath) t
          (.ok report) := by
  obtain ⟨c, htrained, hranks⟩ := exists_endsIn_trained hne hlen
  have htrain := endsIn_within (htrained t) (.trainingFrom manifestPath)
  have hmanifest := Manifest.endsIn_loadWith readers t manifestPath
  rw [hload] at hmanifest
  have hsamples := Manifest.endsIn_resolve hdefect t (Manifest.baseOf manifestPath)
  rw [hresolve] at hsamples
  have hlisting := endsIn_readListing t inputPath
  refine ⟨fun error herror => ?_, fun listing htext hlength => ?_⟩
  · rw [herror] at hlisting
    exact endsIn_bind_ok hmanifest <| endsIn_bind_ok hsamples <|
      endsIn_bind_ok (endsIn_report _) <| endsIn_bind_ok htrain (endsIn_bind_error hlisting _)
  · rw [htext] at hlisting
    obtain ⟨p, hp, hp_ranks⟩ := hranks listing hlength
    have hclassify : EndsIn (within (.classifying inputPath) (ofModel (c.classify listing))) t
        (.ok p) := by
      rw [hp]
      exact endsIn_within (endsIn_ofExcept rfl) _
    exact ⟨_, hp_ranks, endsIn_bind_ok hmanifest <| endsIn_bind_ok hsamples <|
      endsIn_bind_ok (endsIn_report _) <| endsIn_bind_ok htrain <| endsIn_bind_ok hlisting <|
      endsIn_bind_ok hclassify (endsIn_pure _)⟩

/-- A failure neither of a classifier nor while one is trained or asked. -/
def Failure.OutsideModel (e : Failure) : Prop :=
  (∀ error, e.cause ≠ .model error) ∧ ∀ path, .trainingFrom path ∉ e.during ∧ .classifying path ∉ e.during

theorem Failure.outsideModel_of_file {activity : Activity} (error : FileError)
    (h : ∀ path, activity ≠ .trainingFrom path ∧ activity ≠ .classifying path) :
    Failure.OutsideModel ⟨[activity], .file error⟩ := by
  refine ⟨fun e => by simp, fun path => ?_⟩
  simpa [eq_comm] using h path

theorem Manifest.LoadFailure.outsideModel {path : String} {e : Failure} (h : LoadFailure path e) :
    e.OutsideModel := by
  cases h <;> simp [Failure.OutsideModel]

/-- What classifying a file ends in, for all contents of the files: the first failure of loading the
manifest, expanding it and reading the file, in this order, or else a report in which the confidences are
ranked over exactly the labels of the manifest.  No failure comes from the classifier. -/
theorem classifyFile_result (t : FileTree) (now manifestPath inputPath : String)
    (hsizes : ∀ path content, t.read path = .ok content → content.size < 2 ^ 64) :
    let result := (classifyFile Files.ofTree now manifestPath inputPath).result t
    (match (Manifest.load Files.ofTree manifestPath).result t with
      | .error e => result = .error e ∧ Manifest.LoadFailure manifestPath e
      | .ok manifest =>
        match (manifest.resolve Files.ofTree (Manifest.baseOf manifestPath)).result t with
        | .error e => result = .error e ∧ ∃ path error, e = ⟨[.readingSample path], .file error⟩
        | .ok _ =>
          match (readListing Files.ofTree inputPath).result t with
          | .error e => result = .error e ∧ ∃ error, e = ⟨[.readingListing inputPath], .file error⟩
          | .ok _ => ∃ report, result = .ok report ∧
              report.prediction.Ranks (manifest.samples.map (·.label))) ∧
    ∀ e, result = .error e → e.OutsideModel := by
  intro result
  have hfiles : ∀ path text, t.textOf path = .ok text → text.toList.length ≤ 2 ^ 64 - 1 := by
    intro path text htext
    obtain ⟨content, hcontent, hle⟩ := FileTree.length_textOf_le htext
    have := hsizes path content hcontent
    omega
  have hload := Manifest.endsIn_loadWith .standard t manifestPath
  unfold Manifest.load
  rw [hload.result_eq]
  have hfailed : ∀ {e : Failure}, result = .error e → e.OutsideModel →
      ∀ e', result = .error e' → e'.OutsideModel := by
    intro e he hmodel e' he'
    obtain rfl := Except.error.inj (he.symm.trans he')
    exact hmodel
  cases hm : Manifest.loadedFrom .standard t manifestPath with
  | error e =>
    rw [hm] at hload
    have hresult : result = .error e := (endsIn_bind_error hload _).result_eq
    have hfailure := Manifest.failure_of_loadedFrom hm
    exact ⟨⟨hresult, hfailure⟩, hfailed hresult hfailure.outsideModel⟩
  | ok manifest =>
    rw [hm] at hload
    obtain ⟨hdefect, hfits⟩ := Manifest.fits_of_loadedFrom Readers.bounded_standard hfiles hm
    obtain ⟨hne, htrainable⟩ := Manifest.trainable_of_defect? hdefect
    have hresolve := Manifest.endsIn_resolve hdefect t (Manifest.baseOf manifestPath)
    dsimp only
    rw [hresolve.result_eq]
    cases hs : Manifest.expandedIn t (Manifest.baseOf manifestPath) manifest.samples with
    | error e =>
      rw [hs] at hresolve
      have hresult : result = .error e :=
        (endsIn_bind_ok hload (endsIn_bind_error hresolve _)).result_eq
      obtain ⟨path, error, rfl⟩ := Manifest.failure_of_expandedIn htrainable hs
      exact ⟨⟨hresult, path, error, rfl⟩,
        hfailed hresult (Failure.outsideModel_of_file error (by simp))⟩
    | ok samples =>
      obtain ⟨hlabels, hlengths⟩ := Manifest.expandedIn_spec htrainable hfits hfiles hs
      obtain ⟨s, hmem⟩ := List.exists_mem_of_ne_nil _ hne
      have hsamples : samples ≠ [] := by
        rintro rfl
        exact absurd ((hlabels s.label).2 (List.mem_map_of_mem hmem)) List.not_mem_nil
      obtain ⟨hunread, hread⟩ := endsIn_classifyFile Sha256.hex now inputPath hm hdefect
        hs hsamples fun s hs => by have := hlengths s hs; omega
      dsimp only
      rw [(endsIn_readListing t inputPath).result_eq]
      cases htext : t.textOf inputPath with
      | error error =>
        have hresult := (hunread error htext).result_eq
        exact ⟨⟨hresult, error, rfl⟩,
          hfailed hresult (Failure.outsideModel_of_file error (by simp))⟩
      | ok listing =>
        obtain ⟨report, hranks, hends⟩ := hread listing htext (by have := hfiles _ _ htext; omega)
        have hresult : result = .ok report := hends.result_eq
        exact ⟨⟨report, hresult, hranks.congr hlabels⟩, fun e he => by
          rw [hresult] at he
          cases he⟩

/-- A manifest with an inline listing and a file, and the file classified by what it taught. -/
theorem classifyFile_of_two_samples :
    let manifest := "\x7b\"name\":\"m\",\"samples\":[\x7b\"label\":\"c\",\"code\":\"mov\"\x7d," ++
      "\x7b\"label\":\"go\",\"path\":\"a.s\",\"repeat\":2\x7d]\x7d"
    let t : FileTree := ⟨[(["tmp", "", "m.json"], .file manifest.toUTF8),
      (["tmp", "", "a.s"], .file "push rbp".toUTF8)], ["tmp", ""], [], none⟩
    (∀ path content, t.read path = .ok content → content.size < 2 ^ 64) ∧
      ∃ report, (classifyFile Files.ofTree "now" "m.json" "a.s").result t = .ok report ∧
        report.prediction.Ranks ["c", "go"] := by
  intro manifest t
  have hentries : ∀ e ∈ t.entries, ∀ content, e.2 = .file content → content.size < 2 ^ 64 := by
    intro e he content hcontent
    rcases List.mem_cons.1 he with rfl | he
    · cases hcontent
      decide +kernel
    · obtain rfl := List.mem_singleton.1 he
      cases hcontent
      decide +kernel
  have hsizes : ∀ path content, t.read path = .ok content → content.size < 2 ^ 64 := by
    intro path content h
    obtain ⟨place, hplace⟩ := FileTree.mem_entries_of_read h
    exact hentries _ hplace content rfl
  have hload : (Manifest.load Files.ofTree "m.json").result t =
      .ok ⟨"m", none, [⟨"c", none, some "mov", none⟩, ⟨"go", some "a.s", none, some 2⟩]⟩ := by
    decide +kernel
  have hlisting : (readListing Files.ofTree "a.s").result t = .ok "push rbp" := by decide +kernel
  obtain ⟨h, -⟩ := classifyFile_result t "now" "m.json" "a.s" hsizes
  rw [hload] at h
  dsimp only at h
  rw [show ((Manifest.resolve Files.ofTree (Manifest.baseOf "m.json")
    ⟨"m", none, [⟨"c", none, some "mov", none⟩, ⟨"go", some "a.s", none, some 2⟩]⟩).result t) =
      .ok [("c", "mov"), ("go", "push rbp"), ("go", "push rbp")] by decide +kernel, hlisting] at h
  exact ⟨hsizes, h⟩

end AsmOrigin
