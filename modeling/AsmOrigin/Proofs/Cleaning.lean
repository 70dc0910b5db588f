import AsmOrigin.Commands
import AsmOrigin.Proofs.FileLaws
import AsmOrigin.Proofs.Listing.Stripping

/-!
Cleaning a file.

The whole listing is read before the output is opened, so the output may take the place of the input, and
until then a failure leaves all files as they are.  Opening the output loses what it held, and writing to
it may still fail: then it holds a beginning of the stripped listing, and nothing else has changed
(`cleanCommand_result`).
-/

namespace AsmOrigin

open Work Listing

variable {σ : Type} {files : Files (StateM σ)} {s : σ} {input raw : String}

theorem length_lines_strip (raw : String) : (Text.lines (strip raw).toList).length =
    (Profile.ofListing .substring raw).instructions := by
  rw [lines_strip, List.length_map, Profile.instructions_ofListing]

/-! ## Steps of the command -/

theorem Files.write_apply (files : Files (StateM σ)) (path : String) (content : ByteArray) (s : σ) :
    files.write path content s =
      match files.create path s with
      | (.error e, s') => (.error e, s')
      | (.ok file, s') => files.fill file content s' := by
  unfold write
  show StateT.bind _ _ s = _
  unfold StateT.bind
  rcases files.create path s with ⟨e | file, s'⟩ <;> rfl

/-- A file is written as part of one activity: it is opened, and then its content follows. -/
theorem Work.within_writeText_apply (files : Files (StateM σ)) (activity : Activity)
    (path text : String) (log : Transcript) (s : σ) :
    within activity (writeText files path text) log s =
      match files.create path s with
      | (.error e, s') => ((.error ⟨[activity], .file e⟩, log), s')
      | (.ok file, s') =>
        match files.fill file text.toUTF8 s' with
        | (.error e, s'') => ((.error ⟨[activity], .file e⟩, log), s'')
        | (.ok (), s'') => ((.ok (), log), s'') := by
  have hwrite : writeText files path text log s =
      (((files.write path text.toUTF8 s).1.mapError fun e => ⟨[], .file e⟩, log),
        (files.write path text.toUTF8 s).2) := rfl
  rw [within_apply, hwrite, Files.write_apply]
  rcases files.create path s with ⟨e | file, s'⟩
  · rfl
  · dsimp only
    rcases files.fill file text.toUTF8 s' with ⟨e | done, s''⟩ <;> rfl

theorem cleanCommand_of_error (hkeeps : files.ReadKeeps) {e : FileError}
    (h : files.textOf s input = .error e) (output : Option String) (log : Transcript) :
    cleanCommand files input output log s = ((.error ⟨[.readingListing input], .file e⟩, log), s) := by
  unfold cleanCommand readListing
  rw [bind_apply, within_readText_apply hkeeps, h]
  rfl

theorem cleanCommand_to_output (hkeeps : files.ReadKeeps) (h : files.textOf s input = .ok raw)
    (log : Transcript) : cleanCommand files input none log s =
      ((.ok (), { log with output := log.output ++ strip raw }), s) := by
  unfold cleanCommand readListing
  rw [bind_apply, within_readText_apply hkeeps, h]
  rfl

theorem cleanCommand_to_file (hkeeps : files.ReadKeeps) (h : files.textOf s input = .ok raw)
    (out : String) (log : Transcript) :
    let n := (Profile.ofListing .substring raw).instructions
    cleanCommand files input (some out) log s =
      match files.create out s with
      | (.error e, s') => ((.error ⟨[.writingListing out], .file e⟩, log), s')
      | (.ok file, s') =>
        match files.fill file (strip raw).toUTF8 s' with
        | (.error e, s'') => ((.error ⟨[.writingListing out], .file e⟩, log), s'')
        | (.ok (), s'') =>
          ((.ok (), { log with output := log.output ++ s!"Wrote {n} instruction lines to {out}\n" }),
            s'') := by
  unfold cleanCommand readListing
  rw [bind_apply, within_readText_apply hkeeps, h]
  dsimp only [Except.mapError]
  rw [bind_apply, within_writeText_apply, length_lines_strip]
  rcases files.create out s with ⟨e | file, s'⟩
  · rfl
  · dsimp only
    rcases files.fill file (strip raw).toUTF8 s' with ⟨e | done, s''⟩ <;> rfl

/-! ## The whole command -/

/-- What cleaning a file ends in, on all files that keep to the laws.  If the listing cannot be read as
text, or the output cannot be opened for writing, the command fails, prints nothing and leaves all files as
they are.  Without an output it prints the stripped listing and changes no file.  With one it puts the
stripped listing there, as it was read before, prints the number of its instructions, and leaves every
other file as it was.  If that breaks off, it fails and prints nothing, and the output holds what was
written by then: the command has no way back to what was there before. -/
theorem cleanCommand_result {view : files.View} (laws : files.Laws view) (s : σ) (input : String)
    (output : Option String) :
    let done : (Except Failure Unit × Transcript) × σ := (cleanCommand files input output).run s
    match files.textOf s input, output with
    | .error e, _ => done = ((.error ⟨[.readingListing input], .file e⟩, .empty), s)
    | .ok raw, none => view.Holds s input raw.toUTF8 ∧ done = ((.ok (), ⟨strip raw, []⟩), s)
    | .ok raw, some out => view.Holds s input raw.toUTF8 ∧
      match files.create out s with
      | (.error e, _) => done = ((.error ⟨[.writingListing out], .file e⟩, .empty), s)
      | (.ok file, s') =>
        let new := view.opened file
        let n := (Profile.ofListing .substring raw).instructions
        view.SameBut new s done.2 ∧ view.locate done.2 out = some new ∧
        match (files.fill file (strip raw).toUTF8 s').1 with
        | .error e => done.1 = (.error ⟨[.writingListing out], .file e⟩, .empty) ∧
          ∃ size, view.content done.2 new = some ((strip raw).toUTF8.extract 0 size)
        | .ok () => done.1 = (.ok (), ⟨s!"Wrote {n} instruction lines to {out}\n", []⟩) ∧
          view.content done.2 new = some (strip raw).toUTF8 := by
  intro done
  have hdone : done = cleanCommand files input output Transcript.empty s := rfl
  have hkeeps := laws.read_keeps
  cases hraw : files.textOf s input with
  | error e => exact cleanCommand_of_error hkeeps hraw output Transcript.empty
  | ok raw =>
    have hholds := laws.read_holds input s raw.toUTF8 (Files.read_of_textOf hraw)
    cases output with
    | none =>
      refine ⟨hholds, ?_⟩
      rw [hdone, cleanCommand_to_output hkeeps hraw, Transcript.empty, String.empty_append]
    | some out =>
      refine ⟨hholds, ?_⟩
      rw [cleanCommand_to_file hkeeps hraw, Transcript.empty] at hdone
      simp only [String.empty_append] at hdone
      cases hcreate : files.create out s with
      | mk opened s' =>
        rw [hcreate] at hdone
        cases opened with
        | error e =>
          have hsame := laws.create_refused out s e (by rw [hcreate])
          rw [hcreate] at hsame
          rw [hdone, ← hsame]
          rfl
        | ok file =>
          obtain ⟨hopens, hlocate⟩ := laws.create_opens hcreate
          obtain ⟨hkeep, hpath⟩ := laws.fill_keeps hcreate (strip raw).toUTF8
          have hall := laws.fill_done hcreate (strip raw).toUTF8
          have hpart := laws.fill_breaks hcreate (strip raw).toUTF8
          dsimp only at hdone ⊢
          cases hfill : files.fill file (strip raw).toUTF8 s' with
          | mk written s'' =>
            rw [hfill] at hdone hkeep hpath hall hpart
            cases written with
            | error e =>
              rw [hdone]
              exact ⟨hopens.trans hkeep, hpath.trans hlocate, rfl, hpart e rfl⟩
            | ok =>
              rw [hdone]
              exact ⟨hopens.trans hkeep, hpath.trans hlocate, rfl, hall rfl⟩

/-- In place, by another path to the same file. -/
theorem cleanCommand_result_in_place :
    let place : Place := ["tmp", "", "a.s"]
    let t : FileTree := ⟨[(place, .file "# f\n\tret\r\n".toUTF8)], ["tmp", ""], [], none⟩
    let done := (cleanCommand Files.ofTree "a.s" (some "./a.s")).run t
    done.1 = (.ok (), ⟨"Wrote 1 instruction lines to ./a.s\n", []⟩) ∧
      done.2.contentAt place = some "\tret\n".toUTF8 := by
  intro place t done
  have htext : Files.ofTree.textOf t "a.s" = .ok "# f\n\tret\r\n" := by decide +kernel
  let opened : FileTree := { t.set place (.file .empty) with room := none }
  have htarget : t.target "./a.s" = .ok place := by decide +kernel
  have hcreate : t.create "./a.s" = .ok (place, opened) := by
    unfold FileTree.create
    rw [htarget]
    rfl
  have hfill : (Files.ofTree.fill place "\tret\n".toUTF8 opened).1 = .ok () :=
    FileTree.fill_eq_ok_iff.2 rfl
  have hstrip : strip "# f\n\tret\r\n" = "\tret\n" := by decide +kernel
  have hcount : (Profile.ofListing .substring "# f\n\tret\r\n").instructions = 1 := by decide +kernel
  have h := cleanCommand_result FileTree.laws t "a.s" (some "./a.s")
  rw [htext] at h
  dsimp only at h
  rw [FileTree.create_eq_ok_iff.2 hcreate, hstrip, hcount] at h
  dsimp only at h
  rw [hfill] at h
  obtain ⟨-, -, -, hdone, hcontent⟩ := h
  exact ⟨hdone, hcontent⟩

/-- The output is a file that is there and the disc runs full: the command fails, and what the file held
is lost. -/
theorem cleanCommand_on_a_full_disc :
    let t : FileTree := ⟨[(["tmp", "", "a.s"], .file "\tmov rax, rbx\n".toUTF8),
      (["tmp", "", "o.s"], .file "\tret\n".toUTF8)], ["tmp", ""], [], some 2⟩
    let done := (cleanCommand Files.ofTree "a.s" (some "o.s")).run t
    done.1 = (.error ⟨[.writingListing "o.s"], .file .discFull⟩, .empty) ∧
      t.textOf "o.s" = .ok "\tret\n" ∧ done.2.textOf "o.s" = .ok "\tmov ra" := by
  decide +kernel

end AsmOrigin
