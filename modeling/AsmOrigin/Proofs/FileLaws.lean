import AsmOrigin.Proofs.Work

/-!
What a program can rely on when it works on files.

The laws are those of reading a file, of opening one for writing, and of writing to it: a file that cannot
be opened is left as it is, one that can is emptied, and what follows may break off (`Files.Laws`).  They
speak of a file system by what can be seen of it (`Files.View`), and a tree of files keeps to them
(`FileTree.laws`).
-/

namespace AsmOrigin

variable {σ : Type} {files : Files (StateM σ)}

/-- What can be seen of a file system: which file a path leads to, and what the file holds. -/
structure Files.View (files : Files (StateM σ)) where
  Node : Type
  /-- The file that is open. -/
  opened : files.Handle → Node
  locate : σ → String → Option Node
  content : σ → Node → Option ByteArray

namespace Files.View

variable (view : files.View)

/-- The path leads to a file with the content. -/
def Holds (s : σ) (path : String) (content : ByteArray) : Prop :=
  ∃ node, view.locate s path = some node ∧ view.content s node = some content

/-- Two states of the files agree but for one file, which may be new. -/
structure SameBut (node : view.Node) (s s' : σ) : Prop where
  content_eq : ∀ other, other ≠ node → view.content s' other = view.content s other
  locate_iff : ∀ path other, other ≠ node →
    (view.locate s' path = some other ↔ view.locate s path = some other)

variable {view} {node : view.Node} {s s' s'' : σ}

theorem SameBut.trans (h : view.SameBut node s s') (h' : view.SameBut node s' s'') :
    view.SameBut node s s'' where
  content_eq other hne := (h'.content_eq other hne).trans (h.content_eq other hne)
  locate_iff path other hne := (h'.locate_iff path other hne).trans (h.locate_iff path other hne)

end Files.View

/-- How files answer a program that reads and writes them. -/
structure Files.Laws (files : Files (StateM σ)) (view : files.View) : Prop where
  /-- Reading changes nothing. -/
  read_keeps : files.ReadKeeps
  /-- What is read is the content of the file that the path leads to. -/
  read_holds : ∀ path s content, (files.read path s).1 = .ok content → view.Holds s path content
  /-- Where no file can be opened for writing, none is made and none is changed. -/
  create_refused : ∀ path s e, (files.create path s).1 = .error e → (files.create path s).2 = s
  /-- Where one can, it is made or loses what it held, and the path leads to it. -/
  create_opens : ∀ {path s file s'}, files.create path s = (.ok file, s') →
    view.SameBut (view.opened file) s s' ∧ view.locate s' path = some (view.opened file)
  /-- Writing to a file that was just opened changes that file only, and no path. -/
  fill_keeps : ∀ {path s file s'}, files.create path s = (.ok file, s') → ∀ content,
    view.SameBut (view.opened file) s' (files.fill file content s').2 ∧
      view.locate (files.fill file content s').2 path = view.locate s' path
  /-- If all was written, the file holds the content. -/
  fill_done : ∀ {path s file s'}, files.create path s = (.ok file, s') → ∀ content,
    (files.fill file content s').1 = .ok () →
      view.content (files.fill file content s').2 (view.opened file) = some content
  /-- If writing broke off, the file holds what was written by then. -/
  fill_breaks : ∀ {path s file s'}, files.create path s = (.ok file, s') → ∀ content e,
    (files.fill file content s').1 = .error e →
      ∃ n, view.content (files.fill file content s').2 (view.opened file) = some (content.extract 0 n)

/-! ## Trees of files -/

namespace FileTree

/-- Places are what paths lead to. -/
def view : Files.ofTree.View where
  Node := Place
  opened place := place
  locate t path := (t.locate path).toOption
  content := contentAt

variable {t t' : FileTree} {place : Place} {path : String} {content : ByteArray}

theorem toOption_eq_some_iff {ε α : Type} {x : Except ε α} {a : α} :
    x.toOption = some a ↔ x = .ok a := by
  cases x <;> simp [Except.toOption]

theorem contentAt_of_file (h : t.lookup place = some (.file content)) :
    t.contentAt place = some content := by
  unfold contentAt
  rw [h]

theorem Replaces.sameBut (h : t.Replaces place content t') : view.SameBut place t t' where
  content_eq other hne := by
    show contentAt t' other = contentAt t other
    unfold contentAt
    rw [h.lookup_of_ne other hne]
  locate_iff path other hne := by
    exact toOption_eq_some_iff.trans ((h.locate_eq_ok_iff hne).trans toOption_eq_some_iff.symm)

theorem create_eq_ok_iff :
    Files.ofTree.create path t = (.ok place, t') ↔ t.create path = .ok (place, t') := by
  unfold Files.ofTree
  dsimp only
  cases t.create path with
  | error e => exact ⟨fun h => (nomatch h), fun h => (nomatch h)⟩
  | ok opened =>
    constructor
    · rintro ⟨⟩
      rfl
    · rintro ⟨⟩
      rfl

theorem create_refused {e : FileError} (h : (Files.ofTree.create path t).1 = .error e) :
    (Files.ofTree.create path t).2 = t := by
  unfold Files.ofTree at h ⊢
  dsimp only at h ⊢
  cases hcreate : t.create path with
  | error e => rfl
  | ok opened =>
    rw [hcreate] at h
    cases h

theorem replaces_of_create_of_fill (h : t.create path = .ok (place, t')) (content : ByteArray) :
    t'.Replaces place (content.extract 0 (t'.accepted content.size)) (t'.fill place content).2 :=
  replaces_fill (isDirectory_of_file (replaces_of_create h).1.lookup_self) content

/-- A tree of files keeps to the laws. -/
theorem laws : Files.ofTree.Laws view where
  read_keeps := Files.readKeeps_ofTree
  read_holds path t content h := by
    obtain ⟨place, hlocate, hfile⟩ := read_eq_ok_iff.1 h
    exact ⟨place, toOption_eq_some_iff.2 hlocate, contentAt_of_file hfile⟩
  create_refused path t e h := FileTree.create_refused h
  create_opens h := by
    obtain ⟨hreplaces, hlocate⟩ := replaces_of_create (create_eq_ok_iff.1 h)
    exact ⟨hreplaces.sameBut, toOption_eq_some_iff.2 hlocate⟩
  fill_keeps {path t place t'} h content := by
    have hcreate := create_eq_ok_iff.1 h
    have hfill := replaces_of_create_of_fill hcreate content
    refine ⟨hfill.sameBut, ?_⟩
    have hlocate := (replaces_of_create hcreate).2
    show (FileTree.locate _ path).toOption = (t'.locate path).toOption
    rw [hlocate]
    exact congrArg Except.toOption (hfill.locate_eq_ok hlocate)
  fill_done {path t place t'} h content hdone := by
    have hfill := replaces_of_create_of_fill (create_eq_ok_iff.1 h) content
    rw [fill_eq_ok_iff.1 hdone, ByteArray.extract_zero_size] at hfill
    exact contentAt_of_file hfill.lookup_self
  fill_breaks h content e _ :=
    ⟨_, contentAt_of_file (replaces_of_create_of_fill (create_eq_ok_iff.1 h) content).lookup_self⟩

end FileTree

end AsmOrigin
