import AsmOrigin.Proofs.Counts
import AsmOrigin.Proofs.Listing.Stripping

/-!
How the counters of one profile hang together.

Instructions, opcodes and registers are counted in one pass over the instructions, jump and call lines in
two more over all lines in lower case.  Each instruction has one opcode (`length_filterMap_mnemonic`) and
mentions a register once or not at all (`count_mentionedRegisters_le`).  Where the opcode itself is the
mark of a jump or a call, the line in lower case shows it too, so the passes over all lines meet
at least these instructions (`sum_opcodeCount_le_countLines`).
-/

namespace AsmOrigin

open Text Listing

/-! ## Sums of a tally -/

theorem sum_map_count_cons (x : String) (names keys : List String) :
    (keys.map (x :: names).count).sum = (keys.map names.count).sum + keys.count x := by
  induction keys with
  | nil => rfl
  | cons k r ih =>
    rw [List.map_cons, List.sum_cons, ih, List.map_cons, List.sum_cons, List.count_cons,
      List.count_cons, Bool.beq_comm (a := k)]
    omega

/-- Different texts together occur as often as one of them does. -/
theorem sum_map_count {keys : List String} (h : keys.Nodup) (names : List String) :
    (keys.map names.count).sum = names.countP (· ∈ keys) := by
  induction names with
  | nil => simp
  | cons x r ih =>
    rw [sum_map_count_cons, ih, List.countP_cons, h.count]
    simp only [decide_eq_true_eq]

theorem values_tally (names : List String) :
    (tally names).values = (tally names).keys.map names.count := by
  unfold OrderedMap.values OrderedMap.keys
  rw [List.map_map]
  refine List.map_congr_left fun e he => ?_
  have hget := (OrderedMap.mem_entries_iff _ e.1 e.2).1 he
  have hcount := getD_get?_tally names e.1
  rw [hget] at hcount
  exact hcount

/-- A tally counts every text of the list once. -/
theorem sum_values_tally (names : List String) : (tally names).values.sum = names.length := by
  rw [values_tally, sum_map_count (OrderedMap.nodup_keys _), List.countP_eq_length]
  intro name h
  rw [decide_eq_true_eq, OrderedMap.mem_keys_iff, isSome_get?_tally, decide_eq_true_eq]
  exact h

theorem get?_tally_eq_some_iff {names : List String} {name : String} {n : Nat} :
    (tally names).get? name = some n ↔ name ∈ names ∧ names.count name = n := by
  rw [get?_tally]
  split
  · rename_i h
    rw [Option.some.injEq]
    exact (and_iff_right h).symm
  · rename_i h
    exact iff_of_false nofun fun hn => h hn.1

theorem pos_of_get?_tally {names : List String} {name : String} {n : Nat}
    (h : (tally names).get? name = some n) : 1 ≤ n := by
  obtain ⟨hmem, rfl⟩ := get?_tally_eq_some_iff.1 h
  exact List.count_pos_iff.2 hmem

namespace Listing

/-! ## Opcodes -/

theorem exists_mnemonic {line : List Char} (h : isIgnored line = false) :
    ∃ name, mnemonic line = some name := by
  obtain ⟨w, hw⟩ := Option.isSome_iff_exists.1 (firstWord_isSome_of_not_isIgnored h)
  exact ⟨_, congrArg (Option.map _) hw⟩

theorem length_filterMap_mnemonic (cs : List Char) :
    ((instructions cs).filterMap mnemonic).length = (instructions cs).length := by
  rw [List.length_filterMap_eq_countP, List.countP_eq_length]
  intro line h
  obtain ⟨name, hname⟩ := exists_mnemonic (by simpa using (List.mem_filter.1 h).2)
  rw [hname]
  rfl

theorem isInfix_firstWord {line w : List Char} (h : firstWord line = some w) : w <:+: line := by
  unfold firstWord at h
  split at h
  · cases h
  · rename_i c r hdrop
    obtain rfl := Option.some.inj h
    have hword : c :: r.takeWhile (!isBlank ·) <:+: dropBlanks line := by
      rw [hdrop]
      exact (List.prefix_cons_inj c |>.2 (List.takeWhile_prefix _)).isInfix
    exact hword.trans (List.dropWhile_suffix _).isInfix

/-- A name of ASCII characters only. -/
def isAscii (name : String) : Bool := name.toList.all (·.toNat < 0x80)

/-- The lower case of a line shows the mnemonic of the line. -/
theorem mentionsAny_of_mnemonic {names : List String} (hnames : ∀ name ∈ names, isAscii name = true)
    {line : List Char} {name : String} (hname : name ∈ names) (h : mnemonic line = some name) :
    mentionsAny names line = true := by
  obtain ⟨w, hw, rfl⟩ := Option.map_eq_some_iff.1 h
  have hascii := hnames _ hname
  unfold isAscii at hascii
  rw [String.toList_ofList, List.all_eq_true] at hascii
  refine List.any_eq_true.2 ⟨_, hname, ?_⟩
  rw [String.toList_ofList, contains_iff_infix]
  exact lower_infix_of_ascii (fun c hc => of_decide_eq_true (hascii c hc)) (isInfix_firstWord hw)

end Listing

namespace Profile

/-- Instructions by these opcodes are among the lines that mention the opcodes' names. -/
theorem sum_opcodeCount_le_countLines {names : List String} (hnodup : names.Nodup)
    (hnames : ∀ name ∈ names, isAscii name = true) (listing : String) :
    (names.map (ofListing .substring listing).opcodeCount).sum ≤
      countLines .substring names listing.toList := by
  have hcount : (ofListing .substring listing).opcodeCount =
      ((Listing.instructions listing.toList).filterMap mnemonic).count := by
    funext name
    unfold opcodeCount
    rw [opcodes_ofListing, getD_get?_tally]
  rw [hcount, sum_map_count hnodup, List.countP_filterMap, countLines_eq]
  calc (Listing.instructions listing.toList).countP
        (fun line => ((mnemonic line).map (fun name => decide (name ∈ names))).getD false)
      ≤ (Listing.instructions listing.toList).countP (mentionsAny names) := by
        refine List.countP_mono_left fun line _ h => ?_
        cases hm : mnemonic line with
        | none =>
          rw [hm] at h
          cases h
        | some name =>
          rw [hm] at h
          exact mentionsAny_of_mnemonic hnames (of_decide_eq_true h) hm
    _ ≤ (lines listing.toList).countP (mentionsAny names) := List.filter_sublist.countP_le

/-! ## Registers -/

theorem register_bounds {m : Matcher} {listing name : String} {n : Nat}
    (h : (ofListing m listing).registers.get? name = some n) :
    name ∈ AsmOrigin.registers ∧ 1 ≤ n ∧ n ≤ (ofListing m listing).instructions := by
  rw [registers_ofListing] at h
  have hpos := pos_of_get?_tally h
  obtain ⟨hmem, rfl⟩ := get?_tally_eq_some_iff.1 h
  obtain ⟨line, -, hline⟩ := List.mem_flatMap.1 hmem
  exact ⟨List.mem_of_mem_filter hline, hpos, count_mentionedRegisters_le m _ name⟩

/-! ## All counters -/

/-- What the counters of a text's profile have to do with each other and with its lines. -/
structure Coherent (text : List Char) (p : Profile) : Prop where
  instructions_eq : p.instructions = (lines text).countP (!isIgnored ·)
  sum_opcodes : p.opcodes.values.sum = p.instructions
  opcode_pos : ∀ name n, p.opcodes.get? name = some n → 1 ≤ n
  register_bounds : ∀ name n, p.registers.get? name = some n →
    name ∈ AsmOrigin.registers ∧ 1 ≤ n ∧ n ≤ p.instructions
  jumps_le : (jumpMnemonics.map p.opcodeCount).sum ≤ p.jumpLines
  calls_le : p.opcodeCount "call" ≤ p.callLines
  jumpLines_le : p.jumpLines ≤ (lines text).length
  callLines_le : p.callLines ≤ (lines text).length

/-- The counters of every listing's profile are coherent. -/
theorem coherent_ofListing (listing : String) :
    Coherent listing.toList (ofListing .substring listing) where
  instructions_eq := List.countP_eq_length_filter.symm
  sum_opcodes := by
    rw [opcodes_ofListing, sum_values_tally, length_filterMap_mnemonic, instructions_ofListing]
  opcode_pos name n h := pos_of_get?_tally h
  register_bounds name n h := Profile.register_bounds h
  jumps_le := sum_opcodeCount_le_countLines (by decide +kernel) (by decide +kernel) listing
  calls_le := by
    have hascii : ∀ name ∈ ["call"], isAscii name = true := by decide +kernel
    have h := sum_opcodeCount_le_countLines (List.nodup_singleton _) hascii listing
    rwa [List.map_singleton, List.sum_singleton] at h
  jumpLines_le := countLines_le_length_lines _ _ _
  callLines_le := countLines_le_length_lines _ _ _

end Profile

end AsmOrigin
