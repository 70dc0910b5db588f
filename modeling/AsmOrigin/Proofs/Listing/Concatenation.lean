import AsmOrigin.Proofs.Listing.Occurrences

/-!
Profiles of concatenated listings.

Behind a line feed a listing goes on as if it started there, so every counter of a concatenation is the
sum of those of its parts (`isSum_ofListing_append`).  A sum does not depend on the order, and so the
lines of a listing may stand in any order (`ofListing_flatten_perm`).
-/

namespace AsmOrigin

open Text

/-! ## Sums of profiles -/

namespace Profile

/-- Every counter of `r` is the sum of those of `p` and `q`, and an opcode or a register has an entry in
`r` if it has one in `p` or in `q`. -/
structure IsSum (p q r : Profile) : Prop where
  count_eq : ∀ slot : Slot, slot.count r = slot.count p + slot.count q
  opcode_seen : ∀ name, (r.opcodes.get? name).isSome =
    ((p.opcodes.get? name).isSome || (q.opcodes.get? name).isSome)
  register_seen : ∀ name, (r.registers.get? name).isSome =
    ((p.registers.get? name).isSome || (q.registers.get? name).isSome)

theorem ext_getD_get? {m n : OrderedMap Nat}
    (hcount : ∀ k, (m.get? k).getD 0 = (n.get? k).getD 0)
    (hseen : ∀ k, (m.get? k).isSome = (n.get? k).isSome) : m = n := by
  refine OrderedMap.ext_get? fun k => ?_
  have hc := hcount k
  have hs := hseen k
  cases hm : m.get? k with
  | none =>
    rw [hm] at hs
    exact (Option.isNone_iff_eq_none.1 (Option.isSome_eq_false_iff.1 hs.symm)).symm
  | some x =>
    rw [hm] at hc hs
    obtain ⟨y, hn⟩ := Option.isSome_iff_exists.1 hs.symm
    rw [hn] at hc ⊢
    exact congrArg some hc

/-- A profile is what its counters and entries are. -/
theorem ext_count {p q : Profile} (hcount : ∀ slot : Slot, slot.count p = slot.count q)
    (hopcode : ∀ name, (p.opcodes.get? name).isSome = (q.opcodes.get? name).isSome)
    (hregister : ∀ name, (p.registers.get? name).isSome = (q.registers.get? name).isSome) :
    p = q := by
  have hinstructions : p.instructions = q.instructions := hcount .instructions
  have hjumps : p.jumpLines = q.jumpLines := hcount .jumpLines
  have hcalls : p.callLines = q.callLines := hcount .callLines
  have hopcodes : p.opcodes = q.opcodes :=
    ext_getD_get? (fun name => hcount (.opcode name)) hopcode
  have hregisters : p.registers = q.registers :=
    ext_getD_get? (fun name => hcount (.register name)) hregister
  have hsignatures : p.signatures = q.signatures := by
    ext i hi
    exact hcount (.signature ⟨i, hi⟩)
  obtain ⟨⟩ := p
  obtain ⟨⟩ := q
  simp_all

theorem IsSum.unique {p q r s : Profile} (hr : IsSum p q r) (hs : IsSum p q s) : r = s :=
  ext_count (fun slot => (hr.count_eq slot).trans (hs.count_eq slot).symm)
    (fun name => (hr.opcode_seen name).trans (hs.opcode_seen name).symm)
    fun name => (hr.register_seen name).trans (hs.register_seen name).symm

/-- Of three summands the first two change places. -/
theorem IsSum.left_comm {p q r qr pr s t : Profile} (hqr : IsSum q r qr) (hpr : IsSum p r pr)
    (hs : IsSum p qr s) (ht : IsSum q pr t) : s = t := by
  apply ext_count
  · intro slot
    have h₁ := hs.count_eq slot
    have h₂ := ht.count_eq slot
    have h₃ := hqr.count_eq slot
    have h₄ := hpr.count_eq slot
    omega
  · intro name
    rw [hs.opcode_seen, ht.opcode_seen, hqr.opcode_seen, hpr.opcode_seen, Bool.or_left_comm]
  · intro name
    rw [hs.register_seen, ht.register_seen, hqr.register_seen, hpr.register_seen, Bool.or_left_comm]

/-! ## Counters of a concatenation -/

variable {a : List Char}

theorem instructions_append (ha : Terminated a) (b : List Char) :
    Listing.instructions (a ++ b) = Listing.instructions a ++ Listing.instructions b := by
  unfold Listing.instructions
  rw [lines_append ha, List.filter_append]

theorem countLines_append (m : Matcher) (names : List String) (ha : Terminated a) (b : List Char) :
    countLines m names (a ++ b) = countLines m names a + countLines m names b := by
  unfold countLines
  rw [lines_append ha, List.map_append, List.countP_append]

theorem isSum_ofListing_append {a : String} (ha : Terminated a.toList) (b : String) :
    IsSum (ofListing .substring a) (ofListing .substring b) (ofListing .substring (a ++ b)) := by
  have hinstructions := instructions_append ha b.toList
  refine ⟨fun slot => ?_, fun name => ?_, fun name => ?_⟩
  · cases slot with
    | instructions =>
      simp only [Slot.count, instructions_ofListing, String.toList_append, hinstructions,
        List.length_append]
    | opcode name =>
      simp only [Slot.count, opcodeCount, opcodes_ofListing, getD_get?_tally, String.toList_append,
        hinstructions, List.filterMap_append, List.count_append]
    | jumpLines =>
      simp only [Slot.count, jumpLines_ofListing, String.toList_append, countLines_append _ _ ha]
    | callLines =>
      simp only [Slot.count, callLines_ofListing, String.toList_append, countLines_append _ _ ha]
    | signature i =>
      simp only [count_signature_ofListing, String.toList_append]
      exact count_append (isOneLine_signaturePatterns _ (Vector.getElem_mem _)).1 ha b.toList
    | register name =>
      simp only [Slot.count, registerCount, registers_ofListing, getD_get?_tally, String.toList_append,
        hinstructions, List.flatMap_append, List.count_append]
  · rw [opcodes_ofListing, opcodes_ofListing, opcodes_ofListing, String.toList_append, hinstructions,
      List.filterMap_append]
    simp only [isSome_get?_tally, List.mem_append, Bool.decide_or]
  · rw [registers_ofListing, registers_ofListing, registers_ofListing, String.toList_append,
      hinstructions, List.flatMap_append]
    simp only [isSome_get?_tally, List.mem_append, Bool.decide_or]

/-! ## Lines in another order -/

theorem isSum_ofListing_flatten {s : List Char} (hs : Terminated s) (ss : List (List Char)) :
    IsSum (ofListing .substring (.ofList s)) (ofListing .substring (.ofList ss.flatten))
      (ofListing .substring (.ofList (s :: ss).flatten)) := by
  rw [List.flatten_cons, String.ofList_append]
  exact isSum_ofListing_append (by rwa [String.toList_ofList]) _

/-- Pieces that each end with a line may stand in any order. -/
theorem ofListing_flatten_perm {ss ts : List (List Char)} (h : ss.Perm ts)
    (hss : ∀ s ∈ ss, Terminated s) :
    ofListing .substring (.ofList ss.flatten) = ofListing .substring (.ofList ts.flatten) := by
  induction h with
  | nil => rfl
  | cons s h ih =>
    obtain ⟨hs, hrest⟩ := List.forall_mem_cons.1 hss
    have hsum := isSum_ofListing_flatten hs
    apply IsSum.unique (hsum _)
    rw [ih hrest]
    exact hsum _
  | swap s t rest =>
    obtain ⟨ht, hrest⟩ := List.forall_mem_cons.1 hss
    obtain ⟨hs, -⟩ := List.forall_mem_cons.1 hrest
    exact IsSum.left_comm (isSum_ofListing_flatten hs rest) (isSum_ofListing_flatten ht rest)
      (isSum_ofListing_flatten ht _) (isSum_ofListing_flatten hs _)
  | trans h₁ h₂ ih₁ ih₂ =>
    exact (ih₁ hss).trans (ih₂ fun s hs => hss s (h₁.mem_iff.2 hs))

/-- Behind a line feed every counter adds up.  So a listing all of whose lines are ended by a line feed has
the same profile and the same fingerprint with its lines in any other order. -/
theorem ofListing_adds_up_over_lines :
    (∀ a b : String, Terminated a.toList →
      IsSum (ofListing .substring a) (ofListing .substring b) (ofListing .substring (a ++ b))) ∧
    ∀ (listing : String) (reordered : List (List Char)), Terminated listing.toList →
      (segments listing.toList).Perm reordered →
      ofListing .substring (.ofList reordered.flatten) = ofListing .substring listing ∧
      Fingerprint.ofListing .substring (.ofList reordered.flatten) =
        Fingerprint.ofListing .substring listing := by
  refine ⟨fun a b ha => isSum_ofListing_append ha b, fun listing reordered hl h => ?_⟩
  have hprofile : ofListing .substring (.ofList reordered.flatten) = ofListing .substring listing := by
    rw [← ofListing_flatten_perm h fun s hs => terminated_of_mem_segments hl hs, flatten_segments,
      String.ofList_toList]
  exact ⟨hprofile, congrArg fingerprint hprofile⟩

/-- Two lines, one of them ended by a carriage return and a line feed. -/
theorem ofListing_adds_up_over_two_lines :
    Terminated "push rbp\n".toList ∧
      IsSum (ofListing .substring "push rbp\n") (ofListing .substring "call free\r\n")
        (ofListing .substring ("push rbp\n" ++ "call free\r\n")) ∧
      Terminated "push rbp\ncall free\r\n".toList ∧
      (segments "push rbp\ncall free\r\n".toList).Perm ["call free\r\n".toList, "push rbp\n".toList] ∧
      ofListing .substring (.ofList ["call free\r\n".toList, "push rbp\n".toList].flatten) =
        ofListing .substring "push rbp\ncall free\r\n" := by
  have hfirst : Terminated "push rbp\n".toList := .inr (by decide +kernel)
  have hlisting : Terminated "push rbp\ncall free\r\n".toList := .inr (by decide +kernel)
  have hperm : (segments "push rbp\ncall free\r\n".toList).Perm
      ["call free\r\n".toList, "push rbp\n".toList] := by decide +kernel
  obtain ⟨hsum, hreorder⟩ := ofListing_adds_up_over_lines
  exact ⟨hfirst, hsum _ _ hfirst, hlisting, hperm, (hreorder _ _ hlisting hperm).1⟩

end Profile

end AsmOrigin
