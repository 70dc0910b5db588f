import AsmOrigin.Manifest.Parse
import AsmOrigin.Proofs.Manifest.JsonTexts
import AsmOrigin.Proofs.Manifest.YamlTrees

/-!
Inline listings of a manifest are no longer than the manifest, in JSON as in YAML.

What a reading of a YAML document may answer is followed through its steps (`Yields`); it fails or it
answers with texts of the document.
-/

namespace AsmOrigin

open Yaml Document

/-! ## Readings of YAML documents -/

/-- Whatever the reading answers has the property. -/
def Yields {α : Type} (p : α → Prop) (r : Reading α) : Prop :=
  ∀ (left left' : Nat) (a : α), r left = some (a, left') → p a

section

variable {α β : Type} {p : α → Prop} {q : β → Prop}

theorem yields_pure {a : α} (h : p a) : Yields p (pure a : Reading α) := by
  intro left left' a' ha
  cases ha
  exact h

theorem yields_failure : Yields p (failure : Reading α) := by
  rintro left left' a ⟨⟩

theorem yields_true (r : Reading α) : Yields (fun _ => True) r := fun _ _ _ _ => trivial

theorem yields_bind {r : Reading α} {f : α → Reading β} (hr : Yields p r)
    (hf : ∀ a, p a → Yields q (f a)) : Yields q (r >>= f) := by
  intro left left' b hb
  obtain ⟨⟨a, left₁⟩, ha, hb⟩ := Option.bind_eq_some_iff.1 hb
  exact hf a (hr _ _ _ ha) _ _ _ hb

theorem yields_mapM {f : α → Reading β} {xs : List α} (h : ∀ x ∈ xs, Yields q (f x)) :
    Yields (fun ys => ∀ y ∈ ys, q y) (xs.mapM f) := by
  induction xs with
  | nil => exact yields_pure fun y hy => absurd hy List.not_mem_nil
  | cons x r ih =>
    obtain ⟨hx, hr⟩ := List.forall_mem_cons.1 h
    rw [List.mapM_cons]
    refine yields_bind hx fun y hy => yields_bind (ih hr) fun ys hys => ?_
    exact yields_pure (List.forall_mem_cons.2 ⟨hy, hys⟩)

end

namespace Manifest

variable {n : Nat} {d : Document} {m : Node.Numbered}

theorem yields_follow (hd : d.Fits n) (hm : m.Fits n) : Yields (Node.Fits n) (d.follow m) := by
  cases m with
  | reference i =>
    intro left left' k hk
    change (if left = 0 then none else (d.target? i).map (·, left - 1)) = some (k, left') at hk
    split at hk
    · cases hk
    · obtain ⟨k', hk', heq⟩ := Option.map_eq_some_iff.1 hk
      cases heq
      exact fits_target? hd hk'
  | _ => exact yields_pure hm

theorem yields_textOfYaml (hd : d.Fits n) (hm : m.Fits n) :
    Yields (fun s : String => s.toList.length ≤ n) (textOfYaml d m) := by
  refine yields_bind (yields_follow hd hm) fun k hk => ?_
  split
  · refine yields_pure ?_
    rw [String.toList_ofList]
    exact hk.text_le
  · exact yields_failure

theorem yields_optionalOfYaml {α : Type} {p : α → Prop} {item : Node.Numbered → Reading α}
    (hitem : ∀ k, k.Fits n → Yields p (item k)) (hd : d.Fits n) {v : Option Node.Numbered}
    (hv : ∀ k, v = some k → k.Fits n) :
    Yields (fun o => ∀ a, o = some a → p a) (optionalOfYaml item d v) := by
  have hnone : Yields (fun o => ∀ a, o = some a → p a) (pure none) :=
    yields_pure fun a ha => (nomatch ha)
  have hsome : ∀ k, k.Fits n →
      Yields (fun o => ∀ a, o = some a → p a) (do return some (← item k)) := by
    intro k hk
    refine yields_bind (hitem k hk) fun a ha => yields_pure fun b hb => ?_
    cases hb
    exact ha
  unfold optionalOfYaml
  split
  · exact hnone
  · rename_i k
    refine yields_bind (yields_follow hd (hv k rfl)) fun l hl => ?_
    split
    · split
      · split
        · exact hnone
        · exact hsome _ hl
      · split
        · split
          · exact hnone
          · exact yields_failure
        · exact hsome _ hl
    · exact hsome _ hl

theorem yields_fieldsOfYaml (hd : d.Fits n) (hm : m.Fits n) (names : List String) :
    Yields (fun vs => ∀ v ∈ vs, ∀ k, v = some k → k.Fits n) (fieldsOfYaml names d m) := by
  refine yields_bind (yields_follow hd hm) fun k hk => ?_
  split
  · rename_i entries
    have hmember : ∀ e ∈ entries, Yields (fun member => member.2.Fits n)
        (do return (← textOfYaml d e.1, e.2)) := fun e he =>
      yields_bind (yields_true _) fun s _ => yields_pure (hk.entries e he).2
    refine yields_bind (yields_mapM hmember) fun members hmembers => ?_
    refine yields_mapM fun name _ => ?_
    split
    · exact yields_pure fun k hk => (nomatch hk)
    · rename_i member hfilter
      have hmem : member ∈ members := List.mem_of_mem_filter (hfilter ▸ List.mem_singleton_self member)
      refine yields_pure fun k hk => ?_
      cases hk
      exact hmembers member hmem
    · exact yields_failure
  · exact yields_failure

theorem yields_sampleOfYaml (hd : d.Fits n) (hm : m.Fits n) :
    Yields (Sample.Fits n) (sampleOfYaml d m) := by
  refine yields_bind (yields_fieldsOfYaml hd hm _) fun vs hvs => ?_
  split
  · rename_i label path code repetitions
    have hcode : ∀ k, code = some k → k.Fits n := hvs code (by simp)
    refine yields_bind (yields_true _) fun label' _ => ?_
    refine yields_bind (yields_true _) fun path' _ => ?_
    refine yields_bind (yields_optionalOfYaml (fun k hk => yields_textOfYaml hd hk) hd hcode)
      fun code' hcode' => ?_
    refine yields_bind (yields_true _) fun repetitions' _ => ?_
    exact yields_pure hcode'
  · exact yields_failure

theorem yields_samplesOfYaml (hd : d.Fits n) {v : Option Node.Numbered}
    (hv : ∀ k, v = some k → k.Fits n) :
    Yields (fun ss => ∀ s ∈ ss, Sample.Fits n s) (samplesOfYaml d v) := by
  unfold samplesOfYaml
  split
  · exact yields_pure fun s hs => absurd hs List.not_mem_nil
  · rename_i k
    refine yields_bind (yields_follow hd (hv k rfl)) fun l hl => ?_
    split
    · exact yields_mapM fun item hitem => yields_sampleOfYaml hd (hl.items item hitem)
    · exact yields_pure fun s hs => absurd hs List.not_mem_nil
    · exact yields_failure

theorem yields_manifestOfYaml (hd : d.Fits n) :
    Yields (fun m => ∀ s ∈ m.samples, Sample.Fits n s) (manifestOfYaml d) := by
  refine yields_bind (yields_fieldsOfYaml hd hd.root _) fun vs hvs => ?_
  split
  · rename_i name description samples
    refine yields_bind (yields_true _) fun name' _ => ?_
    refine yields_bind (yields_true _) fun description' _ => ?_
    exact yields_bind (yields_samplesOfYaml hd (hvs samples (by simp))) fun ss hss => yields_pure hss
  · exact yields_failure

theorem fits_of_ofYaml? (hd : d.Fits n) {m : Manifest} (h : ofYaml? d = some m) :
    ∀ s ∈ m.samples, Sample.Fits n s := by
  obtain ⟨⟨m', left⟩, hm, rfl⟩ := Option.map_eq_some_iff.1 h
  exact yields_manifestOfYaml hd _ _ _ hm

/-! ## Both formats -/

theorem checked_eq_ok_iff {m m' : Manifest} : checked m = .ok m' ↔ m.defect? = none ∧ m = m' := by
  unfold checked validate
  cases m.defect? with
  | some e => exact ⟨fun h => (nomatch h), fun h => (nomatch h.1)⟩
  | none => simp

theorem parsed_eq_ok_iff {activity : Activity} {v : Option Manifest} {m : Manifest} :
    parsed activity v = .ok m ↔ v = some m ∧ m.defect? = none := by
  cases v with
  | none => exact ⟨fun h => (nomatch h), fun h => (nomatch h.1)⟩
  | some m' =>
    show checked m' = .ok m ↔ _
    rw [checked_eq_ok_iff, Option.some.injEq]
    exact ⟨fun ⟨h, hm⟩ => ⟨hm, hm ▸ h⟩, fun ⟨hm, h⟩ => ⟨hm ▸ h, hm⟩⟩

end Manifest

/-- No inline listing that is read is longer than its text. -/
structure Readers.Bounded (readers : Readers) : Prop where
  json : ∀ body m, readers.json? body = some m → ∀ s ∈ m.samples, s.Fits body.toList.length
  yaml : ∀ body m, readers.yaml? body = some m → ∀ s ∈ m.samples, s.Fits body.toList.length

theorem Readers.bounded_standard : standard.Bounded where
  json body m h := by
    obtain ⟨j, hj, hm⟩ := Option.bind_eq_some_iff.1 h
    exact Manifest.fits_of_ofJson? (Json.fits_of_parse? hj) hm
  yaml body m h := by
    obtain ⟨d, hd, hm⟩ := Option.bind_eq_some_iff.1 h
    exact Manifest.fits_of_ofYaml? (fits_parse? hd) hm

namespace Manifest

variable {readers : Readers} {body format : String} {m : Manifest}

/-- A manifest comes from one of the readers and has no defect. -/
theorem read_of_parseWith (h : parseWith readers body format = .ok m) :
    (readers.json? body = some m ∨ readers.yaml? body = some m) ∧ m.defect? = none := by
  unfold parseWith at h
  split at h
  · obtain ⟨h, hdefect⟩ := parsed_eq_ok_iff.1 h
    exact ⟨.inl h, hdefect⟩
  · split at h
    · obtain ⟨h, hdefect⟩ := parsed_eq_ok_iff.1 h
      exact ⟨.inr h, hdefect⟩
    · cases h

theorem fits_of_parseWith (hreaders : readers.Bounded) (h : parseWith readers body format = .ok m) :
    ∀ s ∈ m.samples, s.Fits body.toList.length := by
  rcases (read_of_parseWith h).1 with hread | hread
  · exact hreaders.json body m hread
  · exact hreaders.yaml body m hread

end Manifest

end AsmOrigin
