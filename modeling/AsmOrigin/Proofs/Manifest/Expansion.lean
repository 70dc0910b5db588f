import AsmOrigin.Proofs.Manifest.Loading

/-!
Expanding the samples of a manifest.

Each sample of a well-formed manifest has a source and is trained on at least once
(`Manifest.trainable_of_defect?`).  Expanding such samples gives one block of copies for each
(`Manifest.expandedIn_eq_ok_iff`) or fails at the first file that cannot be read
(`Manifest.expandedIn_eq_error_iff`), and with that all results of `Manifest.resolve` are known
(`Manifest.resolve_result`).
-/

namespace AsmOrigin

/-! ## Samples to expand -/

/-- A sample with a source that is not to be repeated zero times. -/
structure Sample.Trainable (s : Sample) : Prop where
  sourced : s.path = none → ∃ code, s.code = some code
  count_ne_zero : s.count ≠ 0

theorem Sample.WellFormed.trainable {s : Sample} (h : s.WellFormed) : s.Trainable where
  sourced hpath := by
    refine Option.ne_none_iff_exists'.1 fun hcode => h.one_source ?_
    rw [hpath, hcode]
  count_ne_zero hzero := by
    refine h.repeated ?_
    unfold count at hzero
    cases hr : s.repetitions with
    | none => simp [hr] at hzero
    | some k => simpa [hr] using hzero

theorem Manifest.trainable_of_defect? {m : Manifest} (h : m.defect? = none) :
    m.samples ≠ [] ∧ ∀ s ∈ m.samples, s.Trainable := by
  have hm := defect?_eq_none_iff.1 h
  exact ⟨hm.samples_ne_nil, fun s hs => (hm.sample s hs).trainable⟩

/-- The file that a path in a manifest stands for: an absolute path is taken as it is, any other is sought
in the base directory. -/
def fileOf (base path : String) : String :=
  if Path.isAbsolute path then path else Path.join base path

theorem Path.join_eq_fileOf (base path : String) : Path.join base path = fileOf base path := by
  unfold fileOf
  split
  · rename_i h
    rw [join, if_pos (by rw [h, Bool.true_or])]
  · rfl

namespace Sample

variable (t : FileTree) (base : String)

/-- The listing of a sample: the text of its file, or what the manifest holds in its place. -/
inductive HasListing (s : Sample) : String → Prop
  | file {path text : String} (hpath : s.path = some path) (htext : t.textOf (fileOf base path) = .ok text) :
    HasListing s text
  | inline {code : String} (hpath : s.path = none) (hcode : s.code = some code) : HasListing s code

/-- The file of the sample, if it has a path, can be read as text. -/
def Readable (s : Sample) : Prop :=
  ∀ path, s.path = some path → ∃ text, t.textOf (fileOf base path) = .ok text

/-- The failure to read the file of the sample. -/
def Unreadable (s : Sample) (e : Failure) : Prop :=
  ∃ path error, s.path = some path ∧ t.textOf (fileOf base path) = .error error ∧
    e = ⟨[.readingSample (fileOf base path)], .file error⟩

/-- The failure to read the file of a sample while those of all samples before it can be read. -/
def FirstUnreadable (samples : List Sample) (e : Failure) : Prop :=
  Until (Readable t base) (Unreadable t base · e) samples

/-- What is trained on for one sample: its listing under its label, as often as it is to be repeated. -/
def block (s : Sample) (text : String) : List (String × String) := List.replicate s.count (s.label, text)

/-- The sample without a number of repetitions. -/
def once (s : Sample) : Sample := { s with repetitions := none }

end Sample

namespace Manifest

open Work

variable {t : FileTree}

/-! ## Expanding -/

/-- The listing of a sample, or the failure to read its file. -/
def listingIn (t : FileTree) (base : String) (s : Sample) : Except Failure String :=
  match s.path with
  | some path => (t.textOf (Path.join base path)).mapError fun e =>
      ⟨[.readingSample (Path.join base path)], .file e⟩
  | none =>
    match s.code with
    | some code => .ok code
    | none => .error ⟨[], .manifest (.unsourced s.label)⟩

/-- The labelled listings of the samples, or the first failure to read one. -/
def expandedIn (t : FileTree) (base : String) :
    List Sample → Except Failure (List (String × String))
  | [] => .ok []
  | s :: r =>
    match listingIn t base s with
    | .error e => .error e
    | .ok listing =>
      match expandedIn t base r with
      | .error e => .error e
      | .ok listings => .ok (List.replicate s.count (s.label, listing) ++ listings)

theorem endsIn_listingOf (t : FileTree) (base : String) (s : Sample) :
    EndsIn (listingOf Files.ofTree base s) t (listingIn t base s) := by
  unfold listingOf listingIn
  cases s.path with
  | some path => exact endsIn_within_readText t _ _
  | none =>
    cases s.code with
    | some code => exact endsIn_pure code
    | none => exact endsIn_throw _

theorem endsIn_expand (t : FileTree) (base : String) (samples : List Sample) :
    EndsIn (expand Files.ofTree base samples) t (expandedIn t base samples) := by
  induction samples with
  | nil => exact endsIn_pure []
  | cons s r ih =>
    have hs := endsIn_listingOf t base s
    unfold expandedIn
    cases hlisting : listingIn t base s with
    | error e =>
      rw [hlisting] at hs
      exact endsIn_bind_error hs _
    | ok listing =>
      rw [hlisting] at hs
      cases hr : expandedIn t base r with
      | error e =>
        rw [hr] at ih
        exact endsIn_bind_ok hs (endsIn_bind_error ih _)
      | ok listings =>
        rw [hr] at ih
        exact endsIn_bind_ok hs (endsIn_bind_ok ih (endsIn_pure _))

section

variable {base : String} {s : Sample} {r samples : List Sample} {listings : List (String × String)}
  {e : Failure}

theorem listingIn_eq_ok_iff {text : String} :
    listingIn t base s = .ok text ↔ s.HasListing t base text := by
  unfold listingIn
  constructor
  · intro h
    split at h
    · rename_i path hpath
      rw [Path.join_eq_fileOf] at h
      exact .file hpath (mapError_eq_ok_iff.1 h)
    · rename_i hpath
      split at h
      · rename_i code hcode
        cases h
        exact .inline hpath hcode
      · cases h
  · rintro (⟨hpath, htext⟩ | ⟨hpath, hcode⟩)
    · rw [hpath]
      dsimp only
      rw [Path.join_eq_fileOf]
      exact mapError_eq_ok_iff.2 htext
    · rw [hpath, hcode]

/-- A sample with a source has a listing unless its file cannot be read. -/
theorem exists_listingIn_iff (hs : s.Trainable) :
    (∃ text, listingIn t base s = .ok text) ↔ s.Readable t base := by
  constructor
  · rintro ⟨text, h⟩ path hpath
    rcases listingIn_eq_ok_iff.1 h with ⟨hpath', htext⟩ | ⟨hnone, -⟩
    · obtain rfl := Option.some.inj (hpath.symm.trans hpath')
      exact ⟨text, htext⟩
    · cases hpath.symm.trans hnone
  · intro h
    cases hpath : s.path with
    | some path =>
      obtain ⟨text, htext⟩ := h path hpath
      exact ⟨text, listingIn_eq_ok_iff.2 (.file hpath htext)⟩
    | none =>
      obtain ⟨code, hcode⟩ := hs.sourced hpath
      exact ⟨code, listingIn_eq_ok_iff.2 (.inline hpath hcode)⟩

/-- Only reading a file can fail. -/
theorem listingIn_eq_error_iff (hs : s.Trainable) :
    listingIn t base s = .error e ↔ s.Unreadable t base e := by
  unfold listingIn Sample.Unreadable
  cases hpath : s.path with
  | some path =>
    dsimp only
    rw [Path.join_eq_fileOf, mapError_eq_error_iff]
    simp
  | none =>
    obtain ⟨code, hcode⟩ := hs.sourced hpath
    simp [hcode]

theorem expandedIn_cons_eq_ok_iff : expandedIn t base (s :: r) = .ok listings ↔
    ∃ text rest, listingIn t base s = .ok text ∧ expandedIn t base r = .ok rest ∧
      s.block text ++ rest = listings := by
  conv_lhs => unfold expandedIn
  cases listingIn t base s with
  | error e => simp
  | ok text => cases expandedIn t base r <;> simp [Sample.block]

theorem expandedIn_cons_eq_error_iff : expandedIn t base (s :: r) = .error e ↔
    listingIn t base s = .error e ∨
      (∃ text, listingIn t base s = .ok text) ∧ expandedIn t base r = .error e := by
  conv_lhs => unfold expandedIn
  cases listingIn t base s with
  | error e => simp
  | ok text => cases expandedIn t base r <;> simp

/-- What is expanded is a block for each sample, in order. -/
theorem expandedIn_eq_ok_iff : expandedIn t base samples = .ok listings ↔
    ∃ texts, List.Forall₂ (Sample.HasListing t base) samples texts ∧
      listings = (List.zipWith Sample.block samples texts).flatten := by
  induction samples generalizing listings with
  | nil => simp [expandedIn, eq_comm]
  | cons s r ih =>
    rw [expandedIn_cons_eq_ok_iff]
    constructor
    · rintro ⟨text, rest, hs, hr, rfl⟩
      obtain ⟨texts, htexts, rfl⟩ := ih.1 hr
      exact ⟨text :: texts, .cons (listingIn_eq_ok_iff.1 hs) htexts, rfl⟩
    · rintro ⟨texts, htexts, rfl⟩
      cases htexts with
      | cons hs hr => exact ⟨_, _, listingIn_eq_ok_iff.2 hs, ih.2 ⟨_, hr, rfl⟩, rfl⟩

theorem exists_expandedIn_iff (h : ∀ s ∈ samples, s.Trainable) :
    (∃ listings, expandedIn t base samples = .ok listings) ↔ ∀ s ∈ samples, s.Readable t base := by
  induction samples with
  | nil => simp [expandedIn]
  | cons s r ih =>
    obtain ⟨hs, hr⟩ := List.forall_mem_cons.1 h
    rw [List.forall_mem_cons, ← exists_listingIn_iff hs, ← ih hr]
    simp only [expandedIn_cons_eq_ok_iff]
    constructor
    · rintro ⟨_, text, rest, hs, hr, -⟩
      exact ⟨⟨text, hs⟩, rest, hr⟩
    · rintro ⟨⟨text, hs⟩, rest, hr⟩
      exact ⟨_, text, rest, hs, hr, rfl⟩

theorem expandedIn_eq_error_iff (h : ∀ s ∈ samples, s.Trainable) :
    expandedIn t base samples = .error e ↔ Sample.FirstUnreadable t base samples e := by
  induction samples with
  | nil => exact iff_of_false (by rintro ⟨⟩) not_until_nil
  | cons s r ih =>
    obtain ⟨hs, hr⟩ := List.forall_mem_cons.1 h
    rw [expandedIn_cons_eq_error_iff, listingIn_eq_error_iff hs, exists_listingIn_iff hs, ih hr]
    unfold Sample.FirstUnreadable
    rw [until_cons]

theorem failure_of_expandedIn (h : ∀ s ∈ samples, s.Trainable)
    (he : expandedIn t base samples = .error e) :
    ∃ path error, e = ⟨[.readingSample path], .file error⟩ := by
  obtain ⟨-, -, -, -, -, path, error, -, -, rfl⟩ := (expandedIn_eq_error_iff h).1 he
  exact ⟨_, error, rfl⟩

theorem length_of_listingIn {listing : String} {n : Nat} (hfits : s.Fits n)
    (hfiles : ∀ path text, t.textOf path = .ok text → text.toList.length ≤ n)
    (hl : listingIn t base s = .ok listing) : listing.toList.length ≤ n := by
  rcases listingIn_eq_ok_iff.1 hl with ⟨-, htext⟩ | ⟨-, hcode⟩
  · exact hfiles _ _ htext
  · exact hfits _ hcode

/-- Expanding keeps every label and adds none, and the listings are as short as files and inline listings
are. -/
theorem expandedIn_spec {n : Nat} (h : ∀ s ∈ samples, s.Trainable) (hfits : ∀ s ∈ samples, s.Fits n)
    (hfiles : ∀ path text, t.textOf path = .ok text → text.toList.length ≤ n)
    (hl : expandedIn t base samples = .ok listings) :
    (∀ label, label ∈ listings.map (·.1) ↔ label ∈ samples.map (·.label)) ∧
      ∀ l ∈ listings, l.2.toList.length ≤ n := by
  induction samples generalizing listings with
  | nil =>
    cases hl
    exact ⟨fun label => Iff.rfl, fun l hl => absurd hl List.not_mem_nil⟩
  | cons s r ih =>
    obtain ⟨hs, hr⟩ := List.forall_mem_cons.1 h
    obtain ⟨hsfits, hrfits⟩ := List.forall_mem_cons.1 hfits
    obtain ⟨text, rest, htext, hrest, rfl⟩ := expandedIn_cons_eq_ok_iff.1 hl
    obtain ⟨hlabels, hlengths⟩ := ih hr hrfits hrest
    refine ⟨fun label => ?_, fun l hl => ?_⟩
    · rw [List.map_append, Sample.block, List.map_replicate, List.mem_append, List.map_cons,
        List.mem_cons, List.mem_replicate, hlabels]
      exact or_congr_left ⟨fun h => h.2, fun h => ⟨hs.count_ne_zero, h⟩⟩
    · rcases List.mem_append.1 hl with hl | hl
      · rw [(List.mem_replicate.1 hl).2]
        exact length_of_listingIn hsfits hfiles htext
      · exact hlengths l hl

theorem length_of_expandedIn (hl : expandedIn t base samples = .ok listings) :
    listings.length = (samples.map Sample.count).sum := by
  induction samples generalizing listings with
  | nil =>
    cases hl
    rfl
  | cons s r ih =>
    obtain ⟨text, rest, -, hrest, rfl⟩ := expandedIn_cons_eq_ok_iff.1 hl
    rw [List.length_append, Sample.block, List.length_replicate, ih hrest, List.map_cons, List.sum_cons]

end

/-! ## Copies in place of repetitions -/

theorem expandedIn_append (t : FileTree) (base : String) (xs ys : List Sample) :
    expandedIn t base (xs ++ ys) =
      (expandedIn t base xs).bind fun l => (expandedIn t base ys).map (l ++ ·) := by
  induction xs with
  | nil => cases h : expandedIn t base ys <;> simp [h, expandedIn, Except.bind, Except.map]
  | cons s xs ih =>
    rw [List.cons_append, expandedIn, expandedIn, ih]
    cases listingIn t base s with
    | error e => rfl
    | ok text =>
      cases expandedIn t base xs with
      | error e => rfl
      | ok l => cases expandedIn t base ys <;> simp [Except.bind, Except.map]

theorem expandedIn_singleton (t : FileTree) (base : String) (s : Sample) :
    expandedIn t base [s] = (listingIn t base s).map s.block := by
  unfold expandedIn
  cases listingIn t base s with
  | error e => rfl
  | ok text => exact congrArg Except.ok (List.append_nil _)

theorem expandedIn_replicate_once {t : FileTree} {base text : String} {s : Sample}
    (h : listingIn t base s = .ok text) (k : Nat) :
    expandedIn t base (List.replicate k s.once) = .ok (List.replicate k (s.label, text)) := by
  induction k with
  | zero => rfl
  | succ k ih =>
    rw [List.replicate_succ, List.replicate_succ]
    exact expandedIn_cons_eq_ok_iff.2 ⟨text, _, h, ih, rfl⟩

/-- A sample to be repeated expands like as many copies of it. -/
theorem expandedIn_copies (t : FileTree) (base : String) {s : Sample} {k : Nat}
    (hk : s.repetitions = some k) (hpos : k ≠ 0) (before behind : List Sample) :
    expandedIn t base (before ++ List.replicate k s.once ++ behind) =
      expandedIn t base (before ++ s :: behind) := by
  have hcopies : expandedIn t base (List.replicate k s.once) = expandedIn t base [s] := by
    rw [expandedIn_singleton]
    cases hs : listingIn t base s with
    | ok text =>
      rw [expandedIn_replicate_once hs, Except.map, Sample.block, Sample.count, hk]
      rfl
    | error e =>
      obtain ⟨j, rfl⟩ := Nat.exists_eq_succ_of_ne_zero hpos
      exact expandedIn_cons_eq_error_iff.2 (.inl hs)
  rw [List.append_cons, expandedIn_append, expandedIn_append, hcopies, ← expandedIn_append,
    ← expandedIn_append]

theorem WellFormed.copies {m : Manifest} (hm : m.WellFormed) {before behind : List Sample}
    {s : Sample} {k : Nat} (hsplit : m.samples = before ++ s :: behind)
    (hk : s.repetitions = some k) :
    k ≠ 0 ∧ { m with samples := before ++ List.replicate k s.once ++ behind }.WellFormed := by
  have hsamples : ∀ s' ∈ before ++ s :: behind, s'.WellFormed := hsplit ▸ hm.sample
  have hs : s.WellFormed := hsamples s (by simp)
  have hpos : k ≠ 0 := by
    rintro rfl
    exact hs.repeated hk
  refine ⟨hpos, hm.isName_name, by simp [hpos], fun s' hs' => ?_⟩
  rcases List.mem_append.1 hs' with hs' | hs'
  · rcases List.mem_append.1 hs' with hs' | hs'
    · exact hsamples s' (List.mem_append_left _ hs')
    · rw [(List.mem_replicate.1 hs').2]
      exact ⟨hs.isName_label, hs.one_source, by simp [Sample.once]⟩
  · exact hsamples s' (List.mem_append_right _ (List.mem_cons_of_mem _ hs'))

/-! ## Resolving -/

theorem endsIn_resolve {m : Manifest} (hm : m.defect? = none) (t : FileTree) (base : String) :
    EndsIn (m.resolve Files.ofTree base) t (expandedIn t base m.samples) :=
  endsIn_bind_ok (endsIn_ofExcept (checked_eq_ok_iff.2 ⟨hm, rfl⟩))
    (endsIn_expand t base m.samples)

theorem endsIn_resolve_error {m : Manifest} {e : ManifestError} (hm : m.validate = .error e)
    (t : FileTree) (base : String) :
    EndsIn (m.resolve Files.ofTree base) t (.error ⟨[], .manifest e⟩) :=
  endsIn_bind_error (endsIn_ofExcept (by rw [checked, hm])) _

/-- No condition on a manifest tells of a sample without a source in words meant for unchecked ones. -/
theorem ne_unsourced_of_firstViolated {m : Manifest} {e : ManifestError}
    (h : FirstViolated m.conditions e) (label : String) : e ≠ .unsourced label := by
  obtain ⟨c, hc, rfl⟩ := exists_error_of_firstViolated h
  rcases List.mem_cons.1 hc with rfl | hc
  · simp
  · rcases List.mem_cons.1 hc with rfl | hc
    · simp
    · obtain ⟨s, -, hs⟩ := List.mem_flatMap.1 hc
      simp only [Sample.conditions, List.mem_cons, List.not_mem_nil, or_false] at hs
      rcases hs with rfl | rfl | rfl | rfl <;> simp

/-- What resolving a manifest ends in, for all manifests, base directories and contents of the files.  It
succeeds exactly if the manifest is accepted and the file of each sample with a path can be read.  Then
each sample in turn gives a block of copies of its listing under its label, and a sample to be repeated
does the same as that many copies of it.  An accepted manifest fails at the first file that cannot be
read, and never for want of a source. -/
theorem resolve_result (m : Manifest) (t : FileTree) (base : String) :
    let result := (m.resolve Files.ofTree base).result t
    ((∃ listings, result = .ok listings) ↔
      m.validate = .ok () ∧ ∀ s ∈ m.samples, s.Readable t base) ∧
    (∀ listings, result = .ok listings →
      (∃ texts, List.Forall₂ (Sample.HasListing t base) m.samples texts ∧
        listings = (List.zipWith Sample.block m.samples texts).flatten) ∧
      listings.length = m.counts.sum ∧ m.samples.length ≤ listings.length ∧ 1 ≤ listings.length) ∧
    (m.validate = .ok () → ∀ before s behind k, m.samples = before ++ s :: behind →
      s.repetitions = some k →
      let copied := { m with samples := before ++ List.replicate k s.once ++ behind }
      (copied.resolve Files.ofTree base).result t = result) ∧
    (m.validate = .ok () → ∀ e, result = .error e ↔ Sample.FirstUnreadable t base m.samples e) ∧
    (∀ e, m.validate = .error e → result = .error ⟨[], .manifest e⟩) ∧
    ∀ e label, result = .error e → e.cause ≠ .manifest (.unsourced label) := by
  intro result
  cases hv : m.validate with
  | error e =>
    have hresult : result = .error ⟨[], .manifest e⟩ := (endsIn_resolve_error hv t base).result_eq
    rw [hresult]
    refine ⟨by simp, by simp, by simp, by simp, by simp, ?_⟩
    rintro _ label ⟨⟩ hcause
    exact ne_unsourced_of_firstViolated (validate_eq_error_iff.1 hv) label (Cause.manifest.inj hcause)
  | ok =>
    have hm : m.WellFormed := validate_eq_ok_iff.1 hv
    have hresolve : ∀ {m' : Manifest}, m'.WellFormed →
        (m'.resolve Files.ofTree base).result t = expandedIn t base m'.samples :=
      fun h => (endsIn_resolve (defect?_eq_none_iff.2 h) t base).result_eq
    have hresult : result = expandedIn t base m.samples := hresolve hm
    have htrainable : ∀ s ∈ m.samples, s.Trainable := fun s hs => (hm.sample s hs).trainable
    rw [hresult]
    refine ⟨by simp [exists_expandedIn_iff htrainable], fun listings hl => ?_,
      fun _ before s behind k hsplit hk => ?_, fun _ e => expandedIn_eq_error_iff htrainable,
      by simp, fun e label he => ?_⟩
    · have hlength := length_of_expandedIn hl
      have hle : m.samples.length ≤ m.counts.sum := by
        rw [← List.length_map Sample.count]
        refine List.length_le_sum_of_one_le _ fun n hn => ?_
        obtain ⟨s, hs, rfl⟩ := List.mem_map.1 hn
        exact Nat.one_le_iff_ne_zero.2 (htrainable s hs).count_ne_zero
      have hpos : 1 ≤ m.samples.length := List.length_pos_iff.2 hm.samples_ne_nil
      exact ⟨expandedIn_eq_ok_iff.1 hl, hlength, hlength ▸ hle, hpos.trans (hlength ▸ hle)⟩
    · obtain ⟨hpos, hcopied⟩ := hm.copies hsplit hk
      refine (hresolve hcopied).trans ?_
      rw [hsplit]
      exact expandedIn_copies t base hk hpos before behind
    · obtain ⟨path, error, rfl⟩ := failure_of_expandedIn htrainable he
      simp

/-- Of two missing files the first one is told. -/
example : (resolve Files.ofTree "d" ⟨"m", none, [⟨"c", none, some "mov", some 2⟩,
    ⟨"go", some "a.s", none, none⟩, ⟨"rust", some "/b.s", none, none⟩]⟩).result FileTree.empty =
      .error ⟨[.readingSample "d/a.s"], .file .notFound⟩ := by
  decide +kernel

end Manifest

end AsmOrigin
