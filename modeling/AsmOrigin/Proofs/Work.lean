import AsmOrigin.Proofs.ByteOrder
import AsmOrigin.Proofs.Files
import AsmOrigin.Work

/-!
What operations that only read files end in.

Such an operation ends in one result, whatever was reported before, and leaves the files as they are
(`Work.EndsIn`).  A sequence ends in the first failure, or in what its last step ends in.
-/

namespace AsmOrigin

/-! ## Texts of files -/

theorem toUTF8_of_fromUTF8? {content : ByteArray} {text : String}
    (h : String.fromUTF8? content = some text) : text.toUTF8 = content := by
  unfold String.fromUTF8? at h
  split at h
  · cases h
    rfl
  · cases h

/-- The text of a file, or why there is none. -/
def Files.textOf {σ : Type} (files : Files (StateM σ)) (s : σ) (path : String) :
    Except FileError String :=
  match (files.read path s).1 with
  | .error e => .error e
  | .ok content =>
    match String.fromUTF8? content with
    | some text => .ok text
    | none => .error .notText

def FileTree.textOf (t : FileTree) (path : String) : Except FileError String :=
  Files.ofTree.textOf t path

theorem Files.read_of_textOf {σ : Type} {files : Files (StateM σ)} {s : σ} {path text : String}
    (h : files.textOf s path = .ok text) : (files.read path s).1 = .ok text.toUTF8 := by
  unfold textOf at h
  cases hread : (files.read path s).1 with
  | error e =>
    rw [hread] at h
    cases h
  | ok content =>
    rw [hread] at h
    dsimp only at h
    split at h
    · rename_i text' htext
      cases h
      rw [toUTF8_of_fromUTF8? htext]
    · cases h

/-- Reading changes nothing. -/
def Files.ReadKeeps {σ : Type} (files : Files (StateM σ)) : Prop :=
  ∀ path s, (files.read path s).2 = s

theorem Files.readKeeps_ofTree : Files.ofTree.ReadKeeps := fun _ _ => rfl

/-- What can be read is the content of an entry. -/
theorem FileTree.mem_entries_of_read {t : FileTree} {path : String} {content : ByteArray}
    (h : t.read path = .ok content) : ∃ place, (place, .file content) ∈ t.entries := by
  obtain ⟨place, -, hfile⟩ := read_eq_ok_iff.1 h
  unfold lookup at hfile
  split at hfile
  · cases hfile
  · obtain ⟨⟨place', entry⟩, hfind, heq⟩ := Option.map_eq_some_iff.1 hfile
    obtain rfl : entry = .file content := heq
    exact ⟨place', List.mem_of_find?_eq_some hfind⟩

/-- A text has no more characters than its file has bytes. -/
theorem FileTree.length_textOf_le {t : FileTree} {path text : String}
    (h : t.textOf path = .ok text) :
    ∃ content, t.read path = .ok content ∧ text.toList.length ≤ content.size := by
  unfold textOf Files.textOf at h
  split at h
  · cases h
  · rename_i content hcontent
    split at h
    · rename_i text' htext
      cases h
      refine ⟨content, hcontent, ?_⟩
      rw [← toUTF8_of_fromUTF8? htext]
      exact length_toList_le_utf8 text
    · cases h

/-! ## Errors in other words -/

theorem mapError_eq_ok_iff {ε ε' α : Type} {x : Except ε α} {f : ε → ε'} {a : α} :
    x.mapError f = .ok a ↔ x = .ok a := by
  cases x <;> simp [Except.mapError]

theorem mapError_eq_error_iff {ε ε' α : Type} {x : Except ε α} {f : ε → ε'} {e' : ε'} :
    x.mapError f = .error e' ↔ ∃ e, x = .error e ∧ e' = f e := by
  cases x <;> simp [Except.mapError, eq_comm]

namespace Work

variable {σ α β : Type} {t : σ}

/-- What the operation ends in on files in some state. -/
def result (w : Work (StateM σ) α) (t : σ) : Except Failure α := (w.run t).1.1

/-- The operation ends in the result, whatever was reported before, and leaves the files as they are. -/
def EndsIn (w : Work (StateM σ) α) (t : σ) (r : Except Failure α) : Prop :=
  ∀ log, ∃ log', w log t = ((r, log'), t)

variable {w : Work (StateM σ) α} {r : Except Failure α}

theorem EndsIn.result_eq (h : EndsIn w t r) : w.result t = r := by
  obtain ⟨log, hlog⟩ := h Transcript.empty
  exact congrArg (·.1.1) hlog

theorem endsIn_pure (a : α) : EndsIn (pure a) t (.ok a) := fun log => ⟨log, rfl⟩

theorem endsIn_throw (e : Failure) : EndsIn (throw e : Work (StateM σ) α) t (.error e) :=
  fun log => ⟨log, rfl⟩

theorem endsIn_ofExcept {r' : Except Failure α} (h : r = r') : EndsIn (ofExcept r) t r' :=
  fun log => ⟨log, h ▸ rfl⟩

theorem endsIn_report (lines : List LogLine) : EndsIn (report lines) t (.ok ()) :=
  fun log => ⟨{ log with log := log.log ++ lines }, rfl⟩

/-- One step of a sequence, and then either its failure or the rest. -/
theorem bind_apply (w : Work (StateM σ) α) (f : α → Work (StateM σ) β) (log : Transcript) (t : σ) :
    (w >>= f) log t = match w log t with
      | ((.ok a, log'), t') => f a log' t'
      | ((.error e, log'), t') => ((.error e, log'), t') := by
  show ExceptT.bindCont f (w log t).1.1 (w log t).1.2 (w log t).2 = _
  rcases w log t with ⟨⟨e | a, log'⟩, t'⟩ <;> rfl

theorem endsIn_bind_error {e : Failure} (h : EndsIn w t (.error e))
    (f : α → Work (StateM σ) β) : EndsIn (w >>= f) t (.error e) := by
  intro log
  obtain ⟨log', hlog⟩ := h log
  refine ⟨log', ?_⟩
  rw [bind_apply, hlog]

theorem endsIn_bind_ok {a : α} (h : EndsIn w t (.ok a)) {f : α → Work (StateM σ) β}
    {r : Except Failure β} (hf : EndsIn (f a) t r) : EndsIn (w >>= f) t r := by
  intro log
  obtain ⟨log', hlog⟩ := h log
  obtain ⟨log'', hlog'⟩ := hf log'
  refine ⟨log'', ?_⟩
  rw [bind_apply, hlog]
  exact hlog'

theorem within_apply (activity : Activity) (w : Work (StateM σ) α) (log : Transcript)
    (t : σ) : within activity w log t =
      (((w log t).1.1.mapError (Failure.within activity), (w log t).1.2), (w log t).2) := rfl

theorem endsIn_within (h : EndsIn w t r) (activity : Activity) :
    EndsIn (within activity w) t (r.mapError (Failure.within activity)) := by
  intro log
  obtain ⟨log', hlog⟩ := h log
  refine ⟨log', ?_⟩
  rw [within_apply, hlog]

/-- A file is read as part of one activity. -/
theorem within_readText_apply {files : Files (StateM σ)} (hkeeps : files.ReadKeeps)
    (activity : Activity) (path : String) (log : Transcript) (t : σ) :
    within activity (readText files path) log t =
      (((files.textOf t path).mapError fun e => ⟨[activity], .file e⟩, log), t) := by
  have hread : ofFile (files.read path) log t =
      (((files.read path t).1.mapError fun e => ⟨[], .file e⟩, log), t) :=
    congrArg (Prod.mk _) (hkeeps path t)
  have htext : readText files path log t =
      (((files.textOf t path).mapError fun e => ⟨[], .file e⟩, log), t) := by
    unfold readText Files.textOf
    rw [bind_apply, hread]
    cases (files.read path t).1 with
    | error e => rfl
    | ok content =>
      dsimp only [Except.mapError]
      cases String.fromUTF8? content <;> rfl
  rw [within_apply, htext]
  cases files.textOf t path <;> rfl

theorem endsIn_within_readText (t : FileTree) (path : String) (activity : Activity) :
    EndsIn (within activity (readText Files.ofTree path)) t
      ((t.textOf path).mapError fun e => ⟨[activity], .file e⟩) :=
  fun log => ⟨log, within_readText_apply Files.readKeeps_ofTree activity path log t⟩

theorem endsIn_readListing (t : FileTree) (path : String) :
    EndsIn (readListing Files.ofTree path) t
      ((t.textOf path).mapError fun e => ⟨[.readingListing path], .file e⟩) :=
  endsIn_within_readText t path (.readingListing path)

end Work

end AsmOrigin
