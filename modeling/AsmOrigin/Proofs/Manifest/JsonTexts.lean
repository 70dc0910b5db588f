import AsmOrigin.Json.Reader
import AsmOrigin.Manifest.Json
import Mathlib.Tactic

/-!
The texts of a JSON value are no longer than the text it is read from.

Escapes only shorten, so neither what a string holds nor what follows it is longer than the place where it
was read (`readText?_length`).  The readers of values, items and members keep that, by induction on the
fuel they share (`reads_of_fuel`), and an inline listing is one of the texts of its manifest.
-/

namespace AsmOrigin

namespace Json

/-! ## Strings -/

theorem length_skipSpace_le (cs : List Char) : (skipSpace cs).length ≤ cs.length :=
  (List.dropWhile_suffix _).length_le

/-- A closing quote is read behind the units. -/
theorem textUnits_length {cs : List Char} {us : List TextUnit} {r : List Char}
    (h : textUnits cs = some (us, r)) : us.length + r.length < cs.length := by
  fun_induction textUnits cs generalizing us r with
  | case1 => cases h
  | case2 r =>
    cases h
    simp
  | case3 a b c d s n us' t ht hu ih =>
    cases h
    have := ih ht
    simp only [List.length_cons]
    omega
  | case4 => cases h
  | case5 c s _ e us' t ht he ih =>
    cases h
    have := ih ht
    simp only [List.length_cons]
    omega
  | case6 => cases h
  | case7 => cases h
  | case8 c s _ _ _ hc us' t ht ih =>
    cases h
    have := ih ht
    simp only [List.length_cons]
    omega
  | case9 => cases h

theorem characters?_length {us : List TextUnit} {cs : List Char} (h : characters? us = some cs) :
    cs.length ≤ us.length := by
  fun_induction characters? us generalizing cs with
  | case1 =>
    cases h
    exact le_rfl
  | case2 c r ih =>
    obtain ⟨ds, hds, rfl⟩ := Option.map_eq_some_iff.1 h
    exact Nat.succ_le_succ (ih hds)
  | case3 n m r hn hm ih =>
    obtain ⟨ds, hds, rfl⟩ := Option.map_eq_some_iff.1 h
    exact (Nat.succ_le_succ (ih hds)).trans (Nat.le_succ _)
  | case4 => cases h
  | case5 => cases h
  | case6 n m r hn hm ih =>
    obtain ⟨ds, hds, rfl⟩ := Option.map_eq_some_iff.1 h
    exact Nat.succ_le_succ (ih hds)
  | case7 => cases h
  | case8 n r hr hn ih =>
    obtain ⟨ds, hds, rfl⟩ := Option.map_eq_some_iff.1 h
    exact Nat.succ_le_succ (ih hds)

theorem readText?_length {cs r : List Char} {content : Option String}
    (h : readText? cs = some (content, r)) :
    r.length ≤ cs.length ∧ ∀ s, content = some s → s.toList.length ≤ cs.length := by
  obtain ⟨⟨us, r'⟩, hus, heq⟩ := Option.map_eq_some_iff.1 h
  have hlen := textUnits_length hus
  cases heq
  refine ⟨by omega, fun s hs => ?_⟩
  obtain ⟨ds, hds, rfl⟩ := Option.map_eq_some_iff.1 hs
  have := characters?_length hds
  rw [String.toList_ofList]
  omega

/-! ## Numerals -/

namespace Numeral

theorem digits?_length {cs ds r : List Char} (h : digits? cs = some (ds, r)) :
    r.length ≤ cs.length := by
  unfold digits? at h
  rw [List.span_eq_takeWhile_dropWhile] at h
  split at h
  · cases h
  · rename_i heq
    cases h
    cases heq
    exact (List.dropWhile_suffix _).length_le

theorem whole?_length {cs ds r : List Char} (h : whole? cs = some (ds, r)) :
    r.length ≤ cs.length := by
  unfold whole? at h
  split at h
  · cases h
    exact Nat.le_succ _
  · exact digits?_length h

theorem decimals?_length {cs ds r : List Char} (h : decimals? cs = some (ds, r)) :
    r.length ≤ cs.length := by
  unfold decimals? at h
  split at h
  · exact (digits?_length h).trans (Nat.le_succ _)
  · cases h
    exact le_rfl

theorem power?_length {cs r : List Char} {p : Option (Bool × List Char)}
    (h : power? cs = some (p, r)) : r.length ≤ cs.length := by
  have hdigits : ∀ {s : List Char} {g : List Char × List Char → Option (Bool × List Char) × List Char},
      (∀ q, (g q).2 = q.2) → (digits? s).map g = some (p, r) → r.length ≤ s.length := by
    intro s g hg h
    obtain ⟨⟨ds, t⟩, ht, heq⟩ := Option.map_eq_some_iff.1 h
    obtain rfl : t = r := (hg (ds, t)).symm.trans (congrArg Prod.snd heq)
    exact digits?_length ht
  unfold power? at h
  split at h
  · split at h
    · split at h
      · exact (hdigits (fun _ => rfl) h).trans (by simp only [List.length_cons]; omega)
      · exact (hdigits (fun _ => rfl) h).trans (by simp only [List.length_cons]; omega)
      · exact (hdigits (fun _ => rfl) h).trans (Nat.le_succ _)
    · cases h
      exact le_rfl
  · cases h
    exact le_rfl

theorem read?_length {cs r : List Char} {n : Numeral} (h : read? cs = some (n, r)) :
    r.length ≤ cs.length := by
  simp only [read?, Option.bind_eq_bind, Option.bind_eq_some_iff, Option.pure_def,
    Option.some.injEq, Prod.mk.injEq, Prod.exists] at h
  obtain ⟨ds, s, hs, es, t, ht, p, u, hu, -, rfl⟩ := h
  refine (power?_length hu).trans ((decimals?_length ht).trans ((whole?_length hs).trans ?_))
  split
  · exact Nat.le_succ _
  · exact le_rfl

end Numeral

/-! ## Values -/

/-- The text stands somewhere in the value, other than as a key. -/
inductive Holds (s : String) : Json → Prop
  | text : Holds s (text (some s))
  | item {items : List Json} {v : Json} : v ∈ items → Holds s v → Holds s (list items)
  | member {members : List (Option String × Json)} {m : Option String × Json} :
    m ∈ members → Holds s m.2 → Holds s (object members)

/-- No text of the value is longer than `n`. -/
def Fits (n : Nat) (v : Json) : Prop := ∀ s, v.Holds s → s.toList.length ≤ n

theorem Fits.mono {n k : Nat} {v : Json} (h : v.Fits n) (hnk : n ≤ k) : v.Fits k :=
  fun s hs => (h s hs).trans hnk

/-- A reader leaves no more than it was given, and what it answers fits there. -/
def Reads {α : Type} (fits : Nat → α → Prop) (read : List Char → Option (α × List Char)) : Prop :=
  ∀ cs a r, read cs = some (a, r) → r.length ≤ cs.length ∧ fits cs.length a

def FitItems (n : Nat) (vs : List Json) : Prop := ∀ v ∈ vs, v.Fits n

def FitMembers (n : Nat) (ms : List (Option String × Json)) : Prop := ∀ m ∈ ms, m.2.Fits n

theorem fits_text {n : Nat} {content : Option String}
    (h : ∀ s, content = some s → s.toList.length ≤ n) : (text content).Fits n := by
  intro s hs
  cases hs
  exact h s rfl

theorem fits_list {n : Nat} {vs : List Json} (h : FitItems n vs) : (list vs).Fits n := by
  intro s hs
  cases hs with
  | item hv hs => exact h _ hv s hs

theorem fits_object {n : Nat} {ms : List (Option String × Json)} (h : FitMembers n ms) :
    (object ms).Fits n := by
  intro s hs
  cases hs with
  | member hm hs => exact h _ hm s hs

theorem reads_readValue? {fuel : Nat} (hitems : Reads FitItems (readItems? fuel))
    (hmembers : Reads FitMembers (readMembers? fuel)) : Reads Fits (readValue? (fuel + 1)) := by
  intro cs v r h
  have hskip := length_skipSpace_le cs
  unfold readValue? at h
  split at h
  case h_1 s hs =>
    obtain ⟨⟨content, t⟩, ht, heq⟩ := Option.map_eq_some_iff.1 h
    obtain ⟨hr, hc⟩ := readText?_length ht
    cases heq
    rw [hs, List.length_cons] at hskip
    exact ⟨by omega, (fits_text hc).mono (by omega)⟩
  case h_2 s hs =>
    rw [hs, List.length_cons] at hskip
    have hskip' := length_skipSpace_le s
    split at h
    · rename_i t ht
      cases h
      rw [ht, List.length_cons] at hskip'
      exact ⟨by omega, fits_list fun v hv => absurd hv List.not_mem_nil⟩
    · obtain ⟨⟨vs, u⟩, hu, heq⟩ := Option.map_eq_some_iff.1 h
      obtain ⟨hr, hvs⟩ := hitems _ _ _ hu
      cases heq
      exact ⟨by omega, (fits_list hvs).mono (by omega)⟩
  case h_3 s hs =>
    rw [hs, List.length_cons] at hskip
    have hskip' := length_skipSpace_le s
    split at h
    · rename_i t ht
      cases h
      rw [ht, List.length_cons] at hskip'
      exact ⟨by omega, fits_object fun m hm => absurd hm List.not_mem_nil⟩
    · obtain ⟨⟨ms, u⟩, hu, heq⟩ := Option.map_eq_some_iff.1 h
      obtain ⟨hr, hms⟩ := hmembers _ _ _ hu
      cases heq
      exact ⟨by omega, (fits_object hms).mono (by omega)⟩
  case h_4 s hs | h_5 s hs | h_6 s hs =>
    cases h
    rw [hs] at hskip
    simp only [List.length_cons] at hskip
    exact ⟨by omega, by rintro s ⟨⟩⟩
  case h_7 =>
    obtain ⟨⟨n, t⟩, ht, heq⟩ := Option.map_eq_some_iff.1 h
    have := Numeral.read?_length ht
    cases heq
    exact ⟨by omega, by rintro s ⟨⟩⟩

theorem reads_readItems? {fuel : Nat} (hvalue : Reads Fits (readValue? fuel))
    (hitems : Reads FitItems (readItems? fuel)) : Reads FitItems (readItems? (fuel + 1)) := by
  intro cs vs r h
  unfold readItems? at h
  split at h
  · cases h
  · rename_i v s hv
    obtain ⟨hs, hfits⟩ := hvalue _ _ _ hv
    have hskip := length_skipSpace_le s
    split at h
    · rename_i t ht
      cases h
      rw [ht, List.length_cons] at hskip
      exact ⟨by omega, List.forall_mem_singleton.2 hfits⟩
    · rename_i t ht
      obtain ⟨⟨ws, u⟩, hu, heq⟩ := Option.map_eq_some_iff.1 h
      obtain ⟨hr, hws⟩ := hitems _ _ _ hu
      cases heq
      rw [ht, List.length_cons] at hskip
      exact ⟨by omega, List.forall_mem_cons.2 ⟨hfits, fun w hw => (hws w hw).mono (by omega)⟩⟩
    · cases h

theorem reads_readMembers? {fuel : Nat} (hvalue : Reads Fits (readValue? fuel))
    (hmembers : Reads FitMembers (readMembers? fuel)) :
    Reads FitMembers (readMembers? (fuel + 1)) := by
  intro cs ms r h
  have hskip := length_skipSpace_le cs
  unfold readMembers? at h
  split at h
  · rename_i s hs
    rw [hs, List.length_cons] at hskip
    split at h
    · cases h
    · rename_i k s' hk
      have hk := (readText?_length hk).1
      have hcolon := length_skipSpace_le s'
      split at h
      · rename_i t ht
        rw [ht, List.length_cons] at hcolon
        split at h
        · cases h
        · rename_i v u hv
          obtain ⟨hu, hfits⟩ := hvalue _ _ _ hv
          have hfits : v.Fits cs.length := hfits.mono (by omega)
          have hskip' := length_skipSpace_le u
          split at h
          · rename_i w hw
            cases h
            rw [hw, List.length_cons] at hskip'
            exact ⟨by omega, List.forall_mem_singleton.2 hfits⟩
          · rename_i w hw
            obtain ⟨⟨ns, x⟩, hx, heq⟩ := Option.map_eq_some_iff.1 h
            obtain ⟨hr, hns⟩ := hmembers _ _ _ hx
            cases heq
            rw [hw, List.length_cons] at hskip'
            exact ⟨by omega, List.forall_mem_cons.2 ⟨hfits, fun n hn => (hns n hn).mono (by omega)⟩⟩
          · cases h
      · cases h
  · cases h

theorem reads_of_fuel (fuel : Nat) : Reads Fits (readValue? fuel) ∧
    Reads FitItems (readItems? fuel) ∧ Reads FitMembers (readMembers? fuel) := by
  induction fuel with
  | zero => exact ⟨fun cs v r h => (nomatch h), fun cs v r h => (nomatch h), fun cs v r h => (nomatch h)⟩
  | succ fuel ih =>
    obtain ⟨hvalue, hitems, hmembers⟩ := ih
    exact ⟨reads_readValue? hitems hmembers, reads_readItems? hvalue hitems,
      reads_readMembers? hvalue hmembers⟩

theorem fits_of_parse? {s : String} {v : Json} (h : parse? s = some v) :
    v.Fits s.toList.length := by
  simp only [parse?] at h
  split at h
  · rename_i w r hw
    split at h
    · cases h
      exact ((reads_of_fuel _).1 _ _ _ hw).2
    · cases h
  · cases h

/-! ## Inline listings -/

theorem mapM_eq_some_iff {α β : Type} {f : α → Option β} {xs : List α} {ys : List β} :
    xs.mapM f = some ys ↔ List.Forall₂ (fun x y => f x = some y) xs ys := by
  induction xs generalizing ys with
  | nil => cases ys <;> simp
  | cons x r ih =>
    simp only [List.mapM_cons, Option.bind_eq_bind, Option.bind_eq_some_iff, Option.pure_def,
      Option.some.injEq]
    constructor
    · rintro ⟨z, hz, zs, hzs, rfl⟩
      exact .cons hz (ih.1 hzs)
    · rintro (_ | ⟨hz, hzs⟩)
      exact ⟨_, hz, _, ih.2 hzs, rfl⟩

theorem exists_of_mapM_eq_some {α β : Type} {f : α → Option β} {xs : List α} {ys : List β}
    (h : xs.mapM f = some ys) : ∀ y ∈ ys, ∃ x ∈ xs, f x = some y := by
  have hpairs := mapM_eq_some_iff.1 h
  clear h
  induction hpairs with
  | nil => exact fun y hy => absurd hy List.not_mem_nil
  | @cons x y r s hxy _ ih =>
    refine List.forall_mem_cons.2 ⟨⟨x, List.mem_cons_self, hxy⟩, fun z hz => ?_⟩
    obtain ⟨x', hx', hz⟩ := ih z hz
    exact ⟨x', List.mem_cons_of_mem x hx', hz⟩

variable {n : Nat} {j : Json}

theorem fits_of_fields? {names : List String} {vs : List (Option Json)} (hj : j.Fits n)
    (h : fields? names j = some vs) : ∀ v, some v ∈ vs → v.Fits n := by
  intro v hv
  unfold fields? at h
  split at h
  · rename_i members
    split at h
    · obtain ⟨name, -, hname⟩ := exists_of_mapM_eq_some h _ hv
      split at hname
      · cases hname
      · rename_i m hm
        cases hname
        have hmem : m ∈ members := List.mem_of_mem_filter (hm ▸ List.mem_singleton_self m)
        exact fun s hs => hj s (.member hmem hs)
      · cases hname
    · cases h
  · rename_i items
    split at h
    · cases h
      rcases List.mem_append.1 hv with hv | hv
      · obtain ⟨w, hw, heq⟩ := List.mem_map.1 hv
        cases heq
        exact fun s hs => hj s (.item hw hs)
      · exact absurd (List.eq_of_mem_replicate hv) (by simp)
    · cases h
  · cases h

theorem length_of_optional? {v : Option Json} {s : String} (hv : ∀ w, v = some w → w.Fits n)
    (h : optional? toText? v = some (some s)) : s.toList.length ≤ n := by
  unfold optional? at h
  split at h
  · cases h
  · cases h
  · rename_i w _
    obtain ⟨s', hs', heq⟩ := Option.map_eq_some_iff.1 h
    cases heq
    unfold toText? at hs'
    split at hs'
    · subst hs'
      exact hv _ rfl s .text
    · cases hs'

end Json

/-- The inline listing, if there is one, is no longer than `n`. -/
def Sample.Fits (n : Nat) (s : Sample) : Prop := ∀ code, s.code = some code → code.toList.length ≤ n

theorem Sample.fits_of_ofJson? {n : Nat} {j : Json} {s : Sample} (hj : j.Fits n)
    (h : Sample.ofJson? j = some s) : s.Fits n := by
  unfold Sample.ofJson? at h
  obtain ⟨vs, hvs, h⟩ := Option.bind_eq_some_iff.1 h
  split at h
  · rename_i label path text repetitions
    simp only [Option.bind_eq_bind, Option.bind_eq_some_iff, Option.pure_def,
      Option.some.injEq] at h
    obtain ⟨_, _, _, _, code', hcode', _, _, rfl⟩ := h
    intro code hcode
    obtain rfl : code' = some code := hcode
    exact Json.length_of_optional? (fun w hw => Json.fits_of_fields? hj hvs w (by simp [hw])) hcode'
  · cases h

theorem Manifest.fits_of_ofJson? {n : Nat} {j : Json} {m : Manifest} (hj : j.Fits n)
    (h : Manifest.ofJson? j = some m) : ∀ s ∈ m.samples, s.Fits n := by
  intro s hs
  unfold Manifest.ofJson? at h
  obtain ⟨vs, hvs, h⟩ := Option.bind_eq_some_iff.1 h
  split at h
  · rename_i name description samples
    simp only [Option.bind_eq_bind, Option.bind_eq_some_iff, Option.pure_def,
      Option.some.injEq] at h
    obtain ⟨_, _, _, _, ss, hss, rfl⟩ := h
    unfold samplesOfJson? at hss
    split at hss
    · cases hss
      exact absurd hs List.not_mem_nil
    · rename_i list
      have hlist := Json.fits_of_fields? hj hvs list (by simp)
      unfold Json.toList? at hss
      split at hss
      · obtain ⟨v, hv, hs⟩ := Json.exists_of_mapM_eq_some hss s hs
        exact Sample.fits_of_ofJson? (fun t ht => hlist t (.item hv ht)) hs
      · cases hss
  · cases h

end AsmOrigin
