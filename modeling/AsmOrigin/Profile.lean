import AsmOrigin.Fingerprint
import AsmOrigin.Listing
import AsmOrigin.Matcher
import AsmOrigin.OrderedMap

/-!
Profiles: every counter taken from one listing, and their projection onto the fingerprint.

Opcodes and registers are counted over the instructions of the listing.  Jump and call lines are
counted over all its lines in lower case, the ignored ones included, and runtime signatures over the
listing as it stands.  The fingerprint holds some of the counters in a fixed order, and `slotNames` names
them; `Slot.all` says which they are, and names and counters agree with it (`slotNames_eq`,
`Profile.fingerprint_eq`).
-/

namespace AsmOrigin

/-- Opcodes that have a slot. -/
def trackedOpcodes : List String := ["mov", "push", "pop", "add", "sub", "call"]

/-- Marks of a jump; a line that has several counts once. -/
def jumpMnemonics : List String := ["jmp", "je", "jne", "jg", "jl"]

/-- Names by which a language's library or runtime shows. -/
def signaturePatterns : Vector String 8 :=
  #v["malloc", "free", "_Z", "std::", "PyObject", "Py_", "runtime.", "fmt."]

/-- General-purpose registers. -/
def registers : List String :=
  ["rax", "rbx", "rcx", "rdx", "rsi", "rdi", "rbp", "rsp",
   "eax", "ebx", "ecx", "edx", "esi", "edi", "ebp", "esp"]

/-- Registers that have a slot. -/
def trackedRegisters : List String := ["rax", "rbx", "rcx"]

/-- How often each text occurs in the list. -/
def tally (names : List String) : OrderedMap Nat :=
  names.foldl (fun m name => m.update name (fun n => n.getD 0 + 1)) ∅

theorem get?_foldl_tally (names : List String) (m : OrderedMap Nat) (k : String) :
    (names.foldl (fun m name => m.update name (fun n => n.getD 0 + 1)) m).get? k =
      if k ∈ names then some ((m.get? k).getD 0 + names.count k) else m.get? k := by
  induction names generalizing m with
  | nil => simp
  | cons a r ih =>
    rw [List.foldl_cons, ih, OrderedMap.get?_update]
    by_cases ha : a = k
    · subst ha
      by_cases hr : a ∈ r
      · simp [hr]
        omega
      · simp [hr, List.count_eq_zero.2 hr]
    · by_cases hr : k ∈ r <;> simp [hr, ha, Ne.symm ha]

/-- A text that occurs has an entry, which is the number of its occurrences. -/
theorem get?_tally (names : List String) (k : String) :
    (tally names).get? k = if k ∈ names then some (names.count k) else none := by
  rw [tally, get?_foldl_tally]
  simp [EmptyCollection.emptyCollection]

/-- A text that does not occur counts zero. -/
theorem getD_get?_tally (names : List String) (k : String) :
    ((tally names).get? k).getD 0 = names.count k := by
  rw [get?_tally]
  split
  · rfl
  · rename_i h
    exact (List.count_eq_zero.2 h).symm

theorem isSome_get?_tally (names : List String) (k : String) :
    ((tally names).get? k).isSome = decide (k ∈ names) := by
  rw [get?_tally]
  by_cases h : k ∈ names <;> simp [h]

structure Profile where
  /-- Instruction lines. -/
  instructions : Nat
  /-- Instruction lines by mnemonic. -/
  opcodes : OrderedMap Nat
  /-- Instruction lines by mentioned register. -/
  registers : OrderedMap Nat
  jumpLines : Nat
  callLines : Nat
  /-- Occurrences of each signature pattern. -/
  signatures : Vector Nat 8
  deriving DecidableEq

namespace Profile

/-- Registers that a line mentions, each once. -/
def mentionedRegisters (m : Matcher) (line : List Char) : List String :=
  AsmOrigin.registers.filter (fun r => m.mentions line r.toList)

/-- Lines that mention one of the names, in any case of their letters. -/
def countLines (m : Matcher) (names : List String) (listing : List Char) : Nat :=
  ((Text.lines listing).map Text.lower).countP
    (fun line => names.any (fun name => m.mentions line name.toList))

def countJumpLines (m : Matcher) (listing : List Char) : Nat := countLines m jumpMnemonics listing

def countCallLines (m : Matcher) (listing : List Char) : Nat := countLines m ["call"] listing

/-- Occurrences of a library or runtime name in the whole listing. -/
def countSignature (m : Matcher) (listing : List Char) (pattern : String) : Nat :=
  m.occurrences listing pattern.toList

/-- Every counter of one listing. -/
def ofListing (m : Matcher) (listing : String) : Profile :=
  let text := listing.toList
  let lines := Listing.instructions text
  { instructions := lines.length
    opcodes := tally (lines.filterMap Listing.mnemonic)
    registers := tally (lines.flatMap (mentionedRegisters m))
    jumpLines := countJumpLines m text
    callLines := countCallLines m text
    signatures := signaturePatterns.map (countSignature m text) }

section

variable (m : Matcher) (listing : String)

theorem instructions_ofListing :
    (ofListing m listing).instructions = (Listing.instructions listing.toList).length := rfl

theorem opcodes_ofListing : (ofListing m listing).opcodes =
    tally ((Listing.instructions listing.toList).filterMap Listing.mnemonic) := rfl

theorem registers_ofListing : (ofListing m listing).registers =
    tally ((Listing.instructions listing.toList).flatMap (mentionedRegisters m)) := rfl

theorem jumpLines_ofListing :
    (ofListing m listing).jumpLines = countLines m jumpMnemonics listing.toList := rfl

theorem callLines_ofListing :
    (ofListing m listing).callLines = countLines m ["call"] listing.toList := rfl

end

/-- An opcode that was not seen counts zero. -/
def opcodeCount (p : Profile) (opcode : String) : Nat := (p.opcodes.get? opcode).getD 0

/-- A register that was not seen counts zero. -/
def registerCount (p : Profile) (register : String) : Nat := (p.registers.get? register).getD 0

end Profile

/-! ## Slots -/

/-- What one slot of a fingerprint counts. -/
inductive Slot where
  | instructions
  | opcode (name : String)
  | jumpLines
  | callLines
  | signature (index : Fin 8)
  | register (name : String)
  deriving DecidableEq

namespace Slot

/-- The slots of a fingerprint in order. -/
def all : List Slot :=
  [instructions] ++ trackedOpcodes.map opcode ++ [jumpLines, callLines] ++
    (List.finRange 8).map signature ++ trackedRegisters.map register

def signatureNames : Vector String 8 :=
  #v["sig_malloc", "sig_free", "sig_cxx_mangled", "sig_std_namespace", "sig_pyobject", "sig_py_api",
     "sig_go_runtime", "sig_go_fmt"]

def name : Slot → String
  | instructions => "instructions"
  | opcode op => "op_" ++ op
  | jumpLines => "jump_lines"
  | callLines => "call_lines"
  | signature i => signatureNames[i]
  | register r => "reg_" ++ r

/-- The counter that the slot shows. -/
def count (p : Profile) : Slot → Nat
  | instructions => p.instructions
  | opcode op => p.opcodeCount op
  | jumpLines => p.jumpLines
  | callLines => p.callLines
  | signature i => p.signatures[i]
  | register r => p.registerCount r

end Slot

theorem Profile.count_signature_ofListing (m : Matcher) (listing : String) (i : Fin 8) :
    (Slot.signature i).count (ofListing m listing) =
      countSignature m listing.toList signaturePatterns[i] :=
  Vector.getElem_map _ _

/-- The name of each slot of a fingerprint, in order. -/
def slotNames : List String :=
  ["instructions", "op_mov", "op_push", "op_pop", "op_add", "op_sub", "op_call", "jump_lines",
   "call_lines", "sig_malloc", "sig_free", "sig_cxx_mangled", "sig_std_namespace", "sig_pyobject",
   "sig_py_api", "sig_go_runtime", "sig_go_fmt", "reg_rax", "reg_rbx", "reg_rcx"]

/-- The counters that have a slot as floats, group by group. -/
def Profile.fingerprint (p : Profile) : Fingerprint :=
  ⟨[ofCount p.instructions] ++ trackedOpcodes.map (fun op => ofCount (p.opcodeCount op)) ++
    [ofCount p.jumpLines, ofCount p.callLines] ++ p.signatures.toList.map ofCount ++
    trackedRegisters.map (fun r => ofCount (p.registerCount r))⟩

/-- Names and counters stand in one order: that of the slots. -/
theorem slotNames_eq : slotNames = Slot.all.map Slot.name := by decide

theorem toList_eq_map_finRange {α : Type} {n : Nat} (v : Vector α n) :
    v.toList = (List.finRange n).map (fun i => v[i]) := by
  apply List.ext_getElem
  · simp
  · intro i h h'
    simp

theorem Profile.fingerprint_eq (p : Profile) :
    p.fingerprint = ⟨Slot.all.map (fun slot => ofCount (slot.count p))⟩ := by
  unfold fingerprint Slot.all
  rw [toList_eq_map_finRange]
  simp only [List.map_append, List.map_map, List.map_cons, List.map_nil]
  rfl

/-- Fingerprint of one listing. -/
def Fingerprint.ofListing (m : Matcher) (listing : String) : Fingerprint :=
  (Profile.ofListing m listing).fingerprint

end AsmOrigin
