import AsmOrigin.Files.Tree
import Mathlib.Tactic

/-!
What writing a file changes in a tree of files.

Each name of a path takes a walk from a directory to the next place (`Step`), so walks pass through
directories only.  Opening a file for writing puts an empty file where no directory is, and writing to it
puts another one there (`Replaces`).  Then every walk still leads where it led before, and a new one can
only end at that file (`Replaces.locate_eq_ok_iff`).
-/

namespace AsmOrigin.FileTree

variable {t t' : FileTree} {p q place : Place} {path name : String} {names : List String}
  {content : ByteArray}

/-! ## Directories -/

theorem isDirectory_iff : t.isDirectory p = true ↔ t.lookup p = some .directory := by
  unfold isDirectory
  split <;> simp_all

theorem isDirectory_of_file (h : t.lookup p = some (.file content)) : t.isDirectory p = false := by
  rw [← Bool.not_eq_true, isDirectory_iff, h]
  simp

theorem isDirectory_of_isPrefix (h : p <+: t.workingDirectory) : t.isDirectory p = true :=
  isDirectory_iff.2 (if_pos (List.isPrefixOf_iff_prefix.2 h))

/-! ## Walks -/

/-- A name by which a walk can go down. -/
structure IsName (name : String) : Prop where
  ne_empty : name ≠ ""
  ne_dot : name ≠ "."
  ne_dots : name ≠ ".."
  size_le : name.utf8ByteSize ≤ nameLimit

/-- What one name does to a walk that is in the directory `p`. -/
inductive Step (t : FileTree) (p : Place) : String → Place → Prop
  | stay {name : String} (h : name = "" ∨ name = ".") : Step t p name p
  | up : Step t p ".." p.dropLast
  | down {name : String} (hname : IsName name) (hthere : (t.lookup (p ++ [name])).isSome = true) :
      Step t p name (p ++ [name])

theorem walk_cons_eq_ok_iff : t.walk p (name :: names) = .ok q ↔
    t.isDirectory p = true ∧ ∃ p', Step t p name p' ∧ t.walk p' names = .ok q := by
  rw [walk]
  constructor
  · intro h
    split_ifs at h with hdir hstay hup hlong
    · exact ⟨by simpa using hdir, p, .stay hstay, h⟩
    · subst hup
      exact ⟨by simpa using hdir, _, .up, h⟩
    · split at h
      · cases h
      · rename_i entry hentry
        rw [not_or] at hstay
        exact ⟨by simpa using hdir, _,
          .down ⟨hstay.1, hstay.2, hup, Nat.le_of_not_lt hlong⟩ (by rw [hentry]; rfl), h⟩
  · rintro ⟨hdir, p', hstep, h⟩
    rw [hdir]
    cases hstep with
    | stay hstay => simpa [hstay] using h
    | up => simpa using h
    | down hname hthere =>
      obtain ⟨entry, hentry⟩ := Option.isSome_iff_exists.1 hthere
      have hlong := Nat.not_lt.2 hname.size_le
      simpa [hname.ne_empty, hname.ne_dot, hname.ne_dots, hlong, hentry] using h

theorem walk_append_eq_ok_iff {names' : List String} : t.walk p (names ++ names') = .ok q ↔
    ∃ m, t.walk p names = .ok m ∧ t.walk m names' = .ok q := by
  induction names generalizing p with
  | nil => simp [walk]
  | cons name names ih =>
    simp only [List.cons_append, walk_cons_eq_ok_iff, ih]
    constructor
    · rintro ⟨hdir, p', hstep, m, hm, hq⟩
      exact ⟨m, ⟨hdir, p', hstep, hm⟩, hq⟩
    · rintro ⟨m, ⟨hdir, p', hstep, hm⟩, hq⟩
      exact ⟨hdir, p', hstep, m, hm, hq⟩

/-- A walk goes on from directories only. -/
theorem eq_of_walk (hp : t.isDirectory p = false) (h : t.walk p names = .ok q) : q = p := by
  cases names with
  | nil => exact (Except.ok.inj h).symm
  | cons name names =>
    obtain ⟨hdir, -⟩ := walk_cons_eq_ok_iff.1 h
    rw [hp] at hdir
    cases hdir

/-! ## Places of files -/

theorem locate_eq_ok_iff : t.locate path = .ok q ↔
    pathError? path = none ∧ t.walk (t.origin path) (Path.components path) = .ok q := by
  unfold locate
  cases pathError? path <;> simp

theorem read_eq_ok_iff : t.read path = .ok content ↔
    ∃ p, t.locate path = .ok p ∧ t.lookup p = some (.file content) := by
  unfold read
  cases t.locate path with
  | error e => simp [bind, Except.bind]
  | ok p =>
    simp only [bind, Except.bind, Except.ok.injEq, exists_eq_left']
    split <;> simp_all

theorem splitLast_of_components (h : Path.components path = names ++ [name]) (hne : name ≠ "") :
    splitLast path = (names, name, false) := by
  unfold splitLast
  dsimp only
  rw [h, List.reverse_concat, List.dropWhile_cons_of_neg (by simpa using hne)]
  simp

theorem components_of_splitLast (h : splitLast path = (names, name, false)) (hne : name ≠ "") :
    Path.components path = names ++ [name] := by
  unfold splitLast at h
  dsimp only at h
  rw [Prod.mk.injEq, Prod.mk.injEq, decide_eq_false_iff_not, not_lt] at h
  obtain ⟨hnames, hname, hlength⟩ := h
  -- nothing was dropped behind the last name
  have hall := (List.dropWhile_suffix _).eq_of_length_le hlength
  rw [hall] at hnames hname
  cases hreversed : (Path.components path).reverse with
  | nil =>
    rw [hreversed] at hname
    exact absurd hname.symm hne
  | cons last rest =>
    rw [hreversed] at hnames hname
    rw [← List.reverse_reverse (Path.components path), hreversed, List.reverse_cons, ← hnames,
      ← hname]
    rfl

/-- Where a path leads that a file can be written to. -/
theorem target_eq_ok_iff : t.target path = .ok place ↔ pathError? path = none ∧
    ∃ names name p, Path.components path = names ++ [name] ∧ t.walk (t.origin path) names = .ok p ∧
      t.isDirectory p = true ∧ IsName name ∧ t.isDirectory (p ++ [name]) = false ∧
      place = p ++ [name] := by
  unfold target
  cases pathError? path with
  | some e => simp
  | none =>
    rcases hsplit : splitLast path with ⟨names, name, slashed⟩
    simp only [true_and]
    constructor
    · intro h
      cases hwalk : t.walk (t.origin path) names with
      | error e =>
        rw [hwalk] at h
        cases h
      | ok p =>
        rw [hwalk] at h
        simp only [bind, Except.bind] at h
        split_ifs at h with hdir hlast hlong hover
        simp only [not_or] at hlast
        obtain ⟨hslashed, hempty, hdot, hdots⟩ := hlast
        rw [Bool.not_eq_true] at hslashed
        rw [hslashed] at hsplit
        exact ⟨names, name, p, components_of_splitLast hsplit hempty, hwalk, by simpa using hdir,
          ⟨hempty, hdot, hdots, Nat.le_of_not_lt hlong⟩, by simpa using hover, (Except.ok.inj h).symm⟩
    · rintro ⟨names', name', p, hcomponents, hwalk, hdir, hname, hover, rfl⟩
      rw [splitLast_of_components hcomponents hname.ne_empty] at hsplit
      cases hsplit
      rw [hwalk]
      simp [bind, Except.bind, hdir, hname.ne_empty, hname.ne_dot, hname.ne_dots,
        Nat.not_lt.2 hname.size_le, hover]

/-! ## Writing -/

/-- The second tree is the first one with a file new or replaced. -/
structure Replaces (t : FileTree) (place : Place) (content : ByteArray) (t' : FileTree) : Prop where
  isDirectory_self : t.isDirectory place = false
  lookup_self : t'.lookup place = some (.file content)
  lookup_of_ne : ∀ other, other ≠ place → t'.lookup other = t.lookup other
  workingDirectory_eq : t'.workingDirectory = t.workingDirectory

theorem replaces_set (h : t.isDirectory place = false) (content : ByteArray) (room : Option Nat) :
    t.Replaces place content { t.set place (.file content) with room := room } := by
  have hnot : ¬ place <+: t.workingDirectory := fun hp => by
    rw [isDirectory_of_isPrefix hp] at h
    cases h
  refine ⟨h, ?_, fun other hne => ?_, rfl⟩
  · unfold lookup set
    rw [if_neg (mt List.isPrefixOf_iff_prefix.1 hnot)]
    simp
  · have hfind : (t.set place (.file content)).entries.find? (·.1 = other) =
        t.entries.find? (·.1 = other) := by
      unfold set
      rw [List.find?_cons_of_neg (by simpa using hne.symm), List.find?_filter]
      refine congrArg (List.find? · t.entries) (funext fun e => ?_)
      by_cases he : e.1 = other <;> simp [he, hne]
    unfold lookup
    rw [hfind]
    rfl

namespace Replaces

theorem isDirectory_eq (h : t.Replaces place content t') (p : Place) :
    t'.isDirectory p = t.isDirectory p := by
  by_cases hp : p = place
  · subst hp
    rw [isDirectory_of_file h.lookup_self, h.isDirectory_self]
  · rw [Bool.eq_iff_iff, isDirectory_iff, isDirectory_iff, h.lookup_of_ne p hp]

theorem step_of_step (h : t.Replaces place content t') (hstep : Step t p name q) : Step t' p name q := by
  cases hstep with
  | stay hstay => exact .stay hstay
  | up => exact .up
  | down hname hthere =>
    refine .down hname ?_
    by_cases hp : p ++ [name] = place
    · rw [hp, h.lookup_self]
      rfl
    · rwa [h.lookup_of_ne _ hp]

theorem eq_or_step (h : t.Replaces place content t') (hstep : Step t' p name q) :
    q = place ∨ Step t p name q := by
  cases hstep with
  | stay hstay => exact .inr (.stay hstay)
  | up => exact .inr .up
  | down hname hthere =>
    by_cases hp : p ++ [name] = place
    · exact .inl hp
    · rw [h.lookup_of_ne _ hp] at hthere
      exact .inr (.down hname hthere)

theorem walk_eq_ok (h : t.Replaces place content t') (hwalk : t.walk p names = .ok q) :
    t'.walk p names = .ok q := by
  induction names generalizing p with
  | nil => exact hwalk
  | cons name names ih =>
    obtain ⟨hdir, p', hstep, hrest⟩ := walk_cons_eq_ok_iff.1 hwalk
    exact walk_cons_eq_ok_iff.2 ⟨(h.isDirectory_eq p).trans hdir, p', h.step_of_step hstep, ih hrest⟩

/-- A walk that comes by the file ends there. -/
theorem eq_or_walk_eq_ok (h : t.Replaces place content t') (hwalk : t'.walk p names = .ok q) :
    q = place ∨ t.walk p names = .ok q := by
  induction names generalizing p with
  | nil => exact .inr hwalk
  | cons name names ih =>
    obtain ⟨hdir, p', hstep, hrest⟩ := walk_cons_eq_ok_iff.1 hwalk
    rcases h.eq_or_step hstep with rfl | hstep
    · exact .inl (eq_of_walk (isDirectory_of_file h.lookup_self) hrest)
    · refine (ih hrest).imp_right fun hrest => walk_cons_eq_ok_iff.2 ⟨?_, p', hstep, hrest⟩
      rwa [← h.isDirectory_eq]

theorem origin_eq (h : t.Replaces place content t') (path : String) :
    t'.origin path = t.origin path := by
  unfold origin
  rw [h.workingDirectory_eq]

theorem locate_eq_ok (h : t.Replaces place content t') (hlocate : t.locate path = .ok q) :
    t'.locate path = .ok q := by
  rw [locate_eq_ok_iff] at hlocate ⊢
  exact ⟨hlocate.1, h.walk_eq_ok (by rw [h.origin_eq]; exact hlocate.2)⟩

theorem eq_or_locate_eq_ok (h : t.Replaces place content t') (hlocate : t'.locate path = .ok q) :
    q = place ∨ t.locate path = .ok q := by
  rw [locate_eq_ok_iff] at hlocate ⊢
  rw [← h.origin_eq]
  exact (h.eq_or_walk_eq_ok hlocate.2).imp_right (⟨hlocate.1, ·⟩)

/-- The paths that lead elsewhere are the same as before. -/
theorem locate_eq_ok_iff (h : t.Replaces place content t') (hne : q ≠ place) :
    t'.locate path = .ok q ↔ t.locate path = .ok q :=
  ⟨fun hq => (h.eq_or_locate_eq_ok hq).resolve_left hne, h.locate_eq_ok⟩

end Replaces

/-- A file that is open is empty and stands at the place that the path then leads to. -/
theorem replaces_of_create (h : t.create path = .ok (place, t')) :
    t.Replaces place .empty t' ∧ t'.locate path = .ok place := by
  unfold create at h
  cases htarget : t.target path with
  | error e =>
    rw [htarget] at h
    cases h
  | ok place' =>
    rw [htarget] at h
    simp only [bind, Except.bind] at h
    split_ifs at h
    cases h
    obtain ⟨herror, names, name, p, hcomponents, hwalk, hdir, hname, hover, rfl⟩ :=
      target_eq_ok_iff.1 htarget
    have hreplaces := replaces_set hover .empty (t.room.map (· + t.sizeAt (p ++ [name])))
    refine ⟨hreplaces, FileTree.locate_eq_ok_iff.2 ⟨herror, ?_⟩⟩
    rw [hcomponents, hreplaces.origin_eq, walk_append_eq_ok_iff]
    refine ⟨p, hreplaces.walk_eq_ok hwalk, walk_cons_eq_ok_iff.2 ⟨?_, _, .down hname ?_, rfl⟩⟩
    · rwa [hreplaces.isDirectory_eq]
    · rw [hreplaces.lookup_self]
      rfl

/-- Writing leaves a beginning of the content at the place, all of it if the disc takes it. -/
theorem replaces_fill (h : t.isDirectory place = false) (content : ByteArray) :
    t.Replaces place (content.extract 0 (t.accepted content.size)) (t.fill place content).2 :=
  replaces_set h _ _

theorem accepted_le (t : FileTree) (size : Nat) : t.accepted size ≤ size := by
  unfold accepted
  split
  · exact le_rfl
  · exact min_le_right _ _

theorem fill_eq_ok_iff : (t.fill place content).1 = .ok () ↔ t.accepted content.size = content.size := by
  have hle := t.accepted_le content.size
  unfold fill
  dsimp only
  split
  · simp only [reduceCtorEq, false_iff]
    omega
  · simp only [true_iff]
    omega

end AsmOrigin.FileTree
