import AsmOrigin.Proofs.Listing.LowerCase
import AsmOrigin.Proofs.Listing.Occurrences

/-!
Stripping a listing.

The lines of a stripped listing are the instructions of the listing, each without the carriage return
that may stand at its end (`lines_strip`).  There it is a blank and part of no name, so every line is
read as before, and only what the ignored lines had to say is lost.  A second pass takes away one more
carriage return, if there is one (`strip_strip_eq_strip_iff`).
-/

namespace AsmOrigin

/-! ## A carriage return at the end of a line -/

namespace Text

theorem firstWord_concat {c : Char} (hc : isBlank c = true) (cs : List Char) :
    firstWord (cs ++ [c]) = firstWord cs := by
  unfold firstWord dropBlanks
  rw [List.dropWhile_append]
  cases cs.dropWhile isBlank with
  | nil => simp [hc]
  | cons d r =>
    have hword : (r ++ [c]).takeWhile (!isBlank ·) = r.takeWhile (!isBlank ·) := by
      rw [List.takeWhile_append]
      split
      · rename_i h
        rw [(List.takeWhile_prefix _).eq_of_length h]
        simp [hc]
      · rfl
    show some (d :: (r ++ [c]).takeWhile (!isBlank ·)) = some (d :: r.takeWhile (!isBlank ·))
    rw [hword]

end Text

namespace Listing

open Text

theorem isIgnored_dropReturn (line : List Char) : isIgnored (dropReturn line) = isIgnored line := by
  refine apply_dropReturn (fun line => ?_) line
  unfold isIgnored dropBlanks
  rw [List.dropWhile_append]
  cases line.dropWhile isBlank <;> rfl

theorem mnemonic_dropReturn (line : List Char) : mnemonic (dropReturn line) = mnemonic line := by
  refine apply_dropReturn (fun line => ?_) line
  unfold mnemonic
  rw [firstWord_concat (by decide)]

/-! ## What is left of a listing -/

theorem newline_notMem_of_mem_instructions {line cs : List Char} (h : line ∈ instructions cs) :
    '\n' ∉ line :=
  newline_notMem_of_mem_lines (List.mem_of_mem_filter h)

theorem lines_strip (raw : String) :
    lines (strip raw).toList = (instructions raw.toList).map dropReturn := by
  unfold strip
  rw [String.toList_ofList]
  exact lines_unlines fun line h => newline_notMem_of_mem_instructions h

theorem isIgnored_of_mem_lines_strip {raw : String} {line : List Char}
    (h : line ∈ lines (strip raw).toList) : isIgnored line = false := by
  rw [lines_strip] at h
  obtain ⟨kept, hkept, rfl⟩ := List.mem_map.1 h
  rw [isIgnored_dropReturn]
  simpa using (List.mem_filter.1 hkept).2

/-- Stripping again ignores no line any more. -/
theorem instructions_strip (raw : String) :
    instructions (strip raw).toList = (instructions raw.toList).map dropReturn := by
  rw [← lines_strip]
  unfold instructions
  rw [List.filter_eq_self]
  intro line h
  rw [isIgnored_of_mem_lines_strip h]
  rfl

theorem strip_eq_strip_iff {raw raw' : String} :
    strip raw = strip raw' ↔ instructions raw.toList = instructions raw'.toList := by
  unfold strip
  rw [String.ofList_inj]
  exact unlines_inj (fun line h => newline_notMem_of_mem_instructions h)
    fun line h => newline_notMem_of_mem_instructions h

/-! ## Passes -/

theorem strip_strip_iff {raw : String} : strip (strip raw) = strip raw ↔
    ∀ line ∈ instructions raw.toList, line.getLast? ≠ some '\r' := by
  rw [strip_eq_strip_iff, instructions_strip]
  exact map_dropReturn_eq_self_iff

theorem instructions_iterate_strip (raw : String) (n : Nat) :
    instructions (strip^[n] raw).toList = (instructions raw.toList).map dropReturn^[n] := by
  induction n with
  | zero => exact (List.map_id _).symm
  | succ n ih =>
    rw [Function.iterate_succ_apply', instructions_strip, ih, List.map_map, Function.iterate_succ']

/-- Stripping a second time changes nothing exactly if no instruction ends in a carriage return, which is
what a line has left of several before its line feed, or of one that no line feed follows.  A second pass
changes line endings alone: each line loses the carriage return at its end, if there is one.  So `n + 1`
passes are enough exactly if no instruction ends in more than `n` carriage returns. -/
theorem strip_strip_eq_strip_iff (raw : String) :
    (strip (strip raw) = strip raw ↔
      ∀ line ∈ instructions raw.toList, line.getLast? ≠ some '\r') ∧
    lines (strip (strip raw)).toList = (lines (strip raw).toList).map dropReturn ∧
    ∀ n : Nat, strip^[n + 2] raw = strip^[n + 1] raw ↔
      ∀ line ∈ instructions raw.toList, ¬ List.replicate (n + 1) '\r' <:+ line := by
  refine ⟨strip_strip_iff, ?_, fun n => ?_⟩
  · rw [lines_strip, instructions_strip, lines_strip]
  · rw [Function.iterate_succ_apply', Function.iterate_succ_apply', strip_strip_iff,
      instructions_iterate_strip, List.forall_mem_map]
    exact forall₂_congr fun line _ => not_congr (getLast?_iterate_dropReturn_iff n)

/-- Two carriage returns before a line feed: each pass takes one of them away. -/
theorem strip_strip_ne_strip :
    strip (strip "mov rax, rbx\r\r\n") ≠ strip "mov rax, rbx\r\r\n" := by
  decide +kernel

/-! ## What the extractor reads of it -/

open Profile

theorem mentionedRegisters_dropReturn (line : List Char) :
    mentionedRegisters .substring (dropReturn line) = mentionedRegisters .substring line := by
  refine List.filter_congr fun r hr => ?_
  exact apply_dropReturn (contains_concat (isOneLine_registers r hr).2) line

/-- A line in which one of the names stands, in any case of its letters. -/
def mentionsAny (names : List String) (line : List Char) : Bool :=
  names.any fun name => contains name.toList (lower line)

theorem countLines_eq (names : List String) (cs : List Char) :
    countLines .substring names cs = (lines cs).countP (mentionsAny names) :=
  List.countP_map

theorem mentionsAny_dropReturn {names : List String} (h : ∀ name ∈ names, IsOneLine name)
    (line : List Char) : mentionsAny names (dropReturn line) = mentionsAny names line := by
  refine apply_dropReturn (f := mentionsAny names) (fun line => ?_) line
  unfold mentionsAny
  rw [Bool.eq_iff_iff, List.any_eq_true, List.any_eq_true]
  refine exists_congr fun name => and_congr_right fun hname => ?_
  rw [lower_concat_return, contains_concat (h name hname).2]

/-- Lines that mention a name are among those of the listing. -/
theorem countLines_strip_le {names : List String} (h : ∀ name ∈ names, IsOneLine name)
    (raw : String) :
    countLines .substring names (strip raw).toList ≤ countLines .substring names raw.toList := by
  rw [countLines_eq, countLines_eq, lines_strip, List.countP_map]
  calc (instructions raw.toList).countP (mentionsAny names ∘ dropReturn)
      = (instructions raw.toList).countP (mentionsAny names) := List.countP_congr fun line _ => by
        rw [Function.comp_apply, mentionsAny_dropReturn h]
    _ ≤ (lines raw.toList).countP (mentionsAny names) := List.filter_sublist.countP_le

theorem countSignature_strip_le {pattern : String} (h : IsOneLine pattern) (raw : String) :
    countSignature .substring (strip raw).toList pattern ≤ countSignature .substring raw.toList pattern := by
  show count pattern.toList (strip raw).toList ≤ count pattern.toList raw.toList
  rw [count_eq_sum_lines h.1 h.2, count_eq_sum_lines h.1 h.2, lines_strip, List.map_map]
  calc ((instructions raw.toList).map (count pattern.toList ∘ dropReturn)).sum
      = ((instructions raw.toList).map (count pattern.toList)).sum := by
        refine congrArg List.sum (List.map_congr_left fun line _ => ?_)
        exact count_dropReturn h.2 line
    _ ≤ ((lines raw.toList).map (count pattern.toList)).sum :=
        (List.filter_sublist.map _).sum_le_sum fun _ _ => Nat.zero_le _

/-- No line of a stripped listing is ignored, and there is one for each instruction of the listing.  The
stripped listing has the instructions, opcodes and registers of the listing, and no more of anything that
is counted in ignored lines as well. -/
theorem profile_strip (raw : String) :
    (∀ line ∈ lines (strip raw).toList, isIgnored line = false) ∧
    let p := Profile.ofListing .substring raw
    let q := Profile.ofListing .substring (strip raw)
    (lines (strip raw).toList).length = p.instructions ∧
      q.instructions = p.instructions ∧ q.opcodes = p.opcodes ∧ q.registers = p.registers ∧
      q.jumpLines ≤ p.jumpLines ∧ q.callLines ≤ p.callLines ∧
      ∀ i : Fin 8, (Slot.signature i).count q ≤ (Slot.signature i).count p := by
  have hcall : ∀ name ∈ ["call"], IsOneLine name := by decide +kernel
  refine ⟨fun line h => isIgnored_of_mem_lines_strip h, ?_⟩
  intro p q
  refine ⟨?_, ?_, ?_, ?_, ?_, ?_, fun i => ?_⟩
  · rw [lines_strip, List.length_map, instructions_ofListing]
  · rw [instructions_ofListing, instructions_ofListing, instructions_strip, List.length_map]
  · rw [opcodes_ofListing, opcodes_ofListing, instructions_strip, List.filterMap_map]
    exact congrArg tally (List.filterMap_congr fun line _ => mnemonic_dropReturn line)
  · rw [registers_ofListing, registers_ofListing, instructions_strip, List.flatMap_map]
    exact congrArg tally (List.flatMap_congr fun line _ => mentionedRegisters_dropReturn line)
  · rw [jumpLines_ofListing, jumpLines_ofListing]
    exact countLines_strip_le isOneLine_jumpMnemonics raw
  · rw [callLines_ofListing, callLines_ofListing]
    exact countLines_strip_le hcall raw
  · rw [count_signature_ofListing, count_signature_ofListing]
    exact countSignature_strip_le (isOneLine_signaturePatterns _ (Vector.getElem_mem _)) raw

end Listing

end AsmOrigin
