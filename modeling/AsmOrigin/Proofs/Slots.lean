import AsmOrigin.Proofs.Binary64.Values
import AsmOrigin.Report

/-!
What a fingerprint shows of a profile.

`Profile.named` lists each slot's name beside the counter that the name denotes, on its own and not from
`Slot.all`; a fingerprint is that list (`slots_ofProfile`).  Counters up to 2⁵³ are kept apart by their
floats (`beq_ofCount_iff`), so of such profiles a fingerprint tells the tracked counters and nothing else
(`Profile.fingerprint_eq_iff`).
-/

namespace AsmOrigin

open Binary64

/-! ## Counts as floats -/

theorem beq_ofCount_iff {m n : Nat} (hm : m ≤ 2 ^ 53) (hn : n ≤ 2 ^ 53) :
    (ofCount m == ofCount n) = true ↔ m = n := by
  rw [beq_iff_eq (denotes_ofCount_of_le hm) (denotes_ofCount_of_le hn), EReal.coe_eq_coe_iff, Nat.cast_inj]

theorem Slot.forall_mem_all_iff {P : Slot → Prop} : (∀ slot ∈ all, P slot) ↔
    P instructions ∧ (∀ name ∈ trackedOpcodes, P (opcode name)) ∧ P jumpLines ∧ P callLines ∧
      (∀ i, P (signature i)) ∧ ∀ name ∈ trackedRegisters, P (register name) := by
  unfold all
  simp only [List.forall_mem_append, List.forall_mem_cons, List.forall_mem_map, List.mem_finRange,
    List.not_mem_nil, false_implies, implies_true, forall_const, and_true, and_assoc]

namespace Profile

variable {p q : Profile} {s t : String}

/-! ## Named counters -/

/-- Occurrences of one of the signature patterns. -/
def signatureCount (p : Profile) (pattern : String) : Nat :=
  (((List.finRange 8).find? fun i => signaturePatterns.get i = pattern).map p.signatures.get).getD 0

/-- The names of the slots in order, each beside the counter that it denotes. -/
def named (p : Profile) : List (String × Nat) :=
  [("instructions", p.instructions),
   ("op_mov", p.opcodeCount "mov"),
   ("op_push", p.opcodeCount "push"),
   ("op_pop", p.opcodeCount "pop"),
   ("op_add", p.opcodeCount "add"),
   ("op_sub", p.opcodeCount "sub"),
   ("op_call", p.opcodeCount "call"),
   ("jump_lines", p.jumpLines),
   ("call_lines", p.callLines),
   ("sig_malloc", p.signatureCount "malloc"),
   ("sig_free", p.signatureCount "free"),
   ("sig_cxx_mangled", p.signatureCount "_Z"),
   ("sig_std_namespace", p.signatureCount "std::"),
   ("sig_pyobject", p.signatureCount "PyObject"),
   ("sig_py_api", p.signatureCount "Py_"),
   ("sig_go_runtime", p.signatureCount "runtime."),
   ("sig_go_fmt", p.signatureCount "fmt."),
   ("reg_rax", p.registerCount "rax"),
   ("reg_rbx", p.registerCount "rbx"),
   ("reg_rcx", p.registerCount "rcx")]

theorem named_eq (p : Profile) : p.named = Slot.all.map fun slot => (slot.name, slot.count p) := by
  rfl

theorem size_fingerprint (p : Profile) : p.fingerprint.size = 20 := by
  rw [fingerprint_eq]
  exact List.length_map _

/-- Each name stands beside the float of its counter, and none is left out. -/
theorem slots_ofProfile (input : String) (p : Profile) :
    (FingerprintReport.ofProfile input p).slots = p.named.map fun e => (e.1, ofCount e.2) := by
  show slotNames.zip p.fingerprint.slots = _
  rw [slotNames_eq, fingerprint_eq, List.zip_map', named_eq, List.map_map]
  rfl

/-! ## Profiles that differ only in what no slot counts -/

/-- Two profiles with one value of each counter that has a slot. -/
structure SameTracked (p q : Profile) : Prop where
  instructions : p.instructions = q.instructions
  opcodes : ∀ opcode ∈ trackedOpcodes, p.opcodeCount opcode = q.opcodeCount opcode
  jumpLines : p.jumpLines = q.jumpLines
  callLines : p.callLines = q.callLines
  signatures : p.signatures = q.signatures
  registers : ∀ register ∈ trackedRegisters, p.registerCount register = q.registerCount register

theorem sameTracked_iff : p.SameTracked q ↔ ∀ slot ∈ Slot.all, slot.count p = slot.count q := by
  rw [Slot.forall_mem_all_iff]
  constructor
  · intro h
    refine ⟨h.instructions, h.opcodes, h.jumpLines, h.callLines, ?_, h.registers⟩
    intro i
    show p.signatures[i] = q.signatures[i]
    rw [h.signatures]
  · rintro ⟨hinstructions, hopcodes, hjumps, hcalls, hsignatures, hregisters⟩
    refine ⟨hinstructions, hopcodes, hjumps, hcalls, ?_, hregisters⟩
    apply Vector.ext
    intro i hi
    exact hsignatures ⟨i, hi⟩

theorem fingerprint_eq_of_sameTracked (h : p.SameTracked q) : p.fingerprint = q.fingerprint := by
  rw [sameTracked_iff] at h
  rw [fingerprint_eq, fingerprint_eq, Fingerprint.mk.injEq, List.map_inj_left]
  intro slot hslot
  rw [h slot hslot]

/-- Every counter that has a slot is at most `n`. -/
def TrackedUpTo (n : Nat) (p : Profile) : Prop := ∀ e ∈ p.named, e.2 ≤ n

instance (n : Nat) (p : Profile) : Decidable (p.TrackedUpTo n) :=
  inferInstanceAs (Decidable (∀ e ∈ p.named, e.2 ≤ n))

theorem count_le_of_trackedUpTo {n : Nat} (h : p.TrackedUpTo n) {slot : Slot} (hslot : slot ∈ Slot.all) :
    slot.count p ≤ n := by
  apply h (slot.name, slot.count p)
  rw [named_eq]
  exact List.mem_map_of_mem hslot

/-- Fingerprints of counters up to 2⁵³ are equal only if the counters are. -/
theorem equalSlots_iff (hp : p.TrackedUpTo (2 ^ 53)) (hq : q.TrackedUpTo (2 ^ 53)) :
    p.fingerprint.EqualSlots q.fingerprint ↔ p.SameTracked q := by
  unfold Fingerprint.EqualSlots
  rw [fingerprint_eq, fingerprint_eq, sameTracked_iff, List.forall₂_map_left_iff,
    List.forall₂_map_right_iff, List.forall₂_same]
  apply forall₂_congr
  intro slot hslot
  exact beq_ofCount_iff (count_le_of_trackedUpTo hp hslot) (count_le_of_trackedUpTo hq hslot)

theorem fingerprint_eq_iff (hp : p.TrackedUpTo (2 ^ 53)) (hq : q.TrackedUpTo (2 ^ 53)) :
    p.fingerprint = q.fingerprint ↔ p.SameTracked q := by
  constructor
  · intro h
    rw [← equalSlots_iff hp hq, h, equalSlots_iff hq hq, sameTracked_iff]
    intro slot hslot
    rfl
  · exact fingerprint_eq_of_sameTracked

/-! ## Counters without a slot -/

theorem sameTracked_insert_opcode {opcode : String} (n : Nat) (h : opcode ∉ trackedOpcodes) :
    p.SameTracked { p with opcodes := p.opcodes.insert opcode n } := by
  refine ⟨rfl, ?_, rfl, rfl, rfl, fun _ _ => rfl⟩
  intro name hname
  have hne : opcode ≠ name := by
    rintro rfl
    exact h hname
  unfold opcodeCount
  rw [OrderedMap.get?_insert, if_neg hne]

theorem sameTracked_insert_register {register : String} (n : Nat) (h : register ∉ trackedRegisters) :
    p.SameTracked { p with registers := p.registers.insert register n } := by
  refine ⟨rfl, fun _ _ => rfl, rfl, rfl, rfl, ?_⟩
  intro name hname
  have hne : register ≠ name := by
    rintro rfl
    exact h hname
  unfold registerCount
  rw [OrderedMap.get?_insert, if_neg hne]

end Profile

/-! ## Classifiers -/

/-- A batch of labelled profiles. -/
def TrainingSet.ofProfiles (samples : List (String × Profile)) : TrainingSet :=
  .ofPairs (samples.map fun e => (e.1, e.2.fingerprint))

theorem TrainingSet.ofProfiles_eq {samples twins : List (String × Profile)}
    (h : List.Forall₂ (fun e f => e.1 = f.1 ∧ e.2.SameTracked f.2) samples twins) :
    ofProfiles samples = ofProfiles twins := by
  unfold ofProfiles
  congr 1
  induction h with
  | nil => rfl
  | cons hef _ ih =>
    rw [List.map_cons, List.map_cons, ih, hef.1, Profile.fingerprint_eq_of_sameTracked hef.2]

namespace Classifier

theorem extract_eq_of_sameTracked (c : Classifier) {s t : String}
    (h : (Profile.ofListing c.matcher s).SameTracked (.ofListing c.matcher t)) :
    c.extract s = c.extract t :=
  Profile.fingerprint_eq_of_sameTracked h

end Classifier

open Classifier

/-- A fingerprint has twenty slots, and a report shows each name beside the counter that it denotes.
Between profiles whose tracked counters are at most 2⁵³ the fingerprints are equal exactly if all tracked
counters are.  Nothing else that a profile counts has an influence: not on an answer to a fingerprint or a
listing, and not on what a classifier learns from a batch of profiles. -/
theorem fingerprint_by_named_counters :
    (∀ (input : String) (p : Profile), p.fingerprint.size = 20 ∧
      (FingerprintReport.ofProfile input p).slots = p.named.map fun e => (e.1, ofCount e.2)) ∧
    (∀ p q : Profile, p.TrackedUpTo (2 ^ 53) → q.TrackedUpTo (2 ^ 53) →
      (p.fingerprint = q.fingerprint ↔ p.SameTracked q) ∧
      (p.fingerprint.EqualSlots q.fingerprint ↔ p.SameTracked q)) ∧
    (∀ (p : Profile) (name : String) (n : Nat),
      (name ∉ trackedOpcodes → p.SameTracked { p with opcodes := p.opcodes.insert name n }) ∧
      (name ∉ trackedRegisters → p.SameTracked { p with registers := p.registers.insert name n })) ∧
    (∀ (c : Classifier) (p q : Profile), p.SameTracked q →
      c.predictFingerprint p.fingerprint = c.predictFingerprint q.fingerprint ∧
      c.confidencesFor p.fingerprint = c.confidencesFor q.fingerprint) ∧
    (∀ (c : Classifier) (s t : String),
      (Profile.ofListing c.matcher s).SameTracked (.ofListing c.matcher t) →
      c.predict s = c.predict t ∧ c.confidences s = c.confidences t ∧ c.classify s = c.classify t) ∧
    (∀ (c : Classifier) (samples twins : List (String × Profile)),
      List.Forall₂ (fun e f => e.1 = f.1 ∧ e.2.SameTracked f.2) samples twins →
      answer (trainInPlace (.ofProfiles samples)) c = answer (trainInPlace (.ofProfiles twins)) c ∧
      after (trainInPlace (.ofProfiles samples)) c = after (trainInPlace (.ofProfiles twins)) c) := by
  refine ⟨?_, ?_, ?_, ?_, ?_, ?_⟩
  · intro input p
    exact ⟨p.size_fingerprint, p.slots_ofProfile input⟩
  · intro p q hp hq
    exact ⟨Profile.fingerprint_eq_iff hp hq, Profile.equalSlots_iff hp hq⟩
  · intro p name n
    exact ⟨Profile.sameTracked_insert_opcode n, Profile.sameTracked_insert_register n⟩
  · intro c p q h
    rw [Profile.fingerprint_eq_of_sameTracked h]
    exact ⟨rfl, rfl⟩
  · intro c s t h
    unfold predict confidences classify
    rw [c.extract_eq_of_sameTracked h]
    exact ⟨rfl, rfl, rfl⟩
  · intro c samples twins h
    rw [TrainingSet.ofProfiles_eq h]
    exact ⟨rfl, rfl⟩

/-- The greatest counters that are kept apart, beside an opcode without a slot. -/
theorem fingerprint_by_named_counters_with_untracked_opcode :
    let p : Profile := ⟨2 ^ 53, .ofList [("mov", 2 ^ 53 - 1)], ∅, 0, 3, #v[1, 0, 0, 0, 0, 0, 0, 0]⟩
    let q : Profile := { p with opcodes := p.opcodes.insert "nop" 7 }
    p.TrackedUpTo (2 ^ 53) ∧ q.TrackedUpTo (2 ^ 53) ∧ p ≠ q ∧ p.fingerprint = q.fingerprint ∧
      after (trainInPlace (.ofProfiles [("C", p)])) (untrained .substring) =
        after (trainInPlace (.ofProfiles [("C", q)])) (untrained .substring) := by
  intro p q
  obtain ⟨-, hiff, hinsert, -, -, htrain⟩ := fingerprint_by_named_counters
  have hp : p.TrackedUpTo (2 ^ 53) := by decide +kernel
  have hq : q.TrackedUpTo (2 ^ 53) := by decide +kernel
  have hpq : p.SameTracked q := (hinsert p "nop" 7).1 (by decide)
  have hbatch := htrain (untrained .substring) [("C", p)] [("C", q)] (.cons ⟨rfl, hpq⟩ .nil)
  exact ⟨hp, hq, by decide +kernel, (hiff p q hp hq).1.2 hpq, hbatch.2⟩

/-- Above 2⁵³ there are counts that no fingerprint keeps apart. -/
example : ofCount (2 ^ 53) = ofCount (2 ^ 53 + 1) := by decide +kernel

end AsmOrigin
