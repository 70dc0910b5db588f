import AsmOrigin.Proofs.Manifest.YamlTokens
import AsmOrigin.Yaml.Document

/-!
Texts in the tree of a YAML document are no longer than the document.

The text of every node is the text of a token or is empty, by induction on the fuel that the readers of
nodes, items and entries share (`builds_of_fuel`).  Numbering the anchors keeps the texts, and what an
alias stands for is a part of the same tree.
-/

namespace AsmOrigin.Yaml

/-- No token holds a scalar that is longer than `n`. -/
def FitTokens (n : Nat) (ts : List Token) : Prop := ∀ token ∈ ts, token.Fits n

theorem FitTokens.tail {n : Nat} {token : Token} {ts : List Token} (h : FitTokens n (token :: ts)) :
    FitTokens n ts := fun s hs => h s (List.mem_cons_of_mem token hs)

theorem FitTokens.head {n : Nat} {token : Token} {ts : List Token} (h : FitTokens n (token :: ts)) :
    token.Fits n := h token List.mem_cons_self

namespace Node

/-! ## Texts -/

section

variable {ρ : Type}

/-- The text is that of a scalar of the tree. -/
inductive Holds (text : List Char) : Node ρ → Prop
  | scalar (props : Properties ρ) (style : Style) : Holds text (scalar props style text)
  | item {props : Properties ρ} {items : List (Node ρ)} {m : Node ρ} :
    m ∈ items → Holds text m → Holds text (sequence props items)
  | key {props : Properties ρ} {entries : List (Node ρ × Node ρ)} {e : Node ρ × Node ρ} :
    e ∈ entries → Holds text e.1 → Holds text (mapping props entries)
  | value {props : Properties ρ} {entries : List (Node ρ × Node ρ)} {e : Node ρ × Node ρ} :
    e ∈ entries → Holds text e.2 → Holds text (mapping props entries)

/-- No text of the tree is longer than `n`. -/
def Fits (n : Nat) (m : Node ρ) : Prop := ∀ text, m.Holds text → text.length ≤ n

def FitItems (n : Nat) (items : List (Node ρ)) : Prop := ∀ m ∈ items, m.Fits n

def FitEntries (n : Nat) (entries : List (Node ρ × Node ρ)) : Prop :=
  ∀ e ∈ entries, e.1.Fits n ∧ e.2.Fits n

variable {n : Nat}

theorem fits_reference (target : ρ) : (reference target).Fits n := by
  rintro text ⟨⟩

theorem fits_scalar {props : Properties ρ} {style : Style} {text : List Char}
    (h : text.length ≤ n) : (scalar props style text).Fits n := by
  rintro text ⟨⟩
  exact h

theorem fits_sequence {props : Properties ρ} {items : List (Node ρ)} (h : FitItems n items) :
    (sequence props items).Fits n := by
  intro text ht
  cases ht with
  | item hm ht => exact h _ hm text ht

theorem fits_mapping {props : Properties ρ} {entries : List (Node ρ × Node ρ)}
    (h : FitEntries n entries) : (mapping props entries).Fits n := by
  intro text ht
  cases ht with
  | key he ht => exact (h _ he).1 text ht
  | value he ht => exact (h _ he).2 text ht

theorem Fits.text_le {props : Properties ρ} {style : Style} {text : List Char}
    (h : (scalar props style text).Fits n) : text.length ≤ n := h text (.scalar props style)

theorem Fits.items {props : Properties ρ} {items : List (Node ρ)}
    (h : (sequence props items).Fits n) : FitItems n items := fun _ hm text ht => h text (.item hm ht)

theorem Fits.entries {props : Properties ρ} {entries : List (Node ρ × Node ρ)}
    (h : (mapping props entries).Fits n) : FitEntries n entries :=
  fun _ he => ⟨fun text ht => h text (.key he ht), fun text ht => h text (.value he ht)⟩

end

theorem fits_absent (n : Nat) : absent.Fits n := fits_scalar (Nat.zero_le n)

/-! ## Trees from tokens -/

/-- A reader keeps to the texts of its tokens. -/
def Builds {α : Type} (n : Nat) (fits : α → Prop) (read : List Token → Option (α × List Token)) :
    Prop :=
  ∀ ⦃ts r : List Token⦄ ⦃a : α⦄, FitTokens n ts → read ts = some (a, r) → FitTokens n r ∧ fits a

/-- What a reader gives may be wrapped, as long as that adds no texts. -/
theorem Builds.map {α β : Type} {n : Nat} {fits : α → Prop} {fits' : β → Prop}
    {read : List Token → Option (α × List Token)} (h : Builds n fits read)
    {wrap : α × List Token → β × List Token}
    (hwrap : ∀ a s, fits a → (wrap (a, s)).2 = s ∧ fits' (wrap (a, s)).1) {ts r : List Token} {b : β}
    (hts : FitTokens n ts) (hb : (read ts).map wrap = some (b, r)) : FitTokens n r ∧ fits' b := by
  obtain ⟨⟨a, s⟩, ha, heq⟩ := Option.map_eq_some_iff.1 hb
  obtain ⟨hs, hfits⟩ := h hts ha
  obtain ⟨hrest, hb⟩ := hwrap a s hfits
  rw [heq] at hrest hb
  dsimp only at hrest hb
  rw [hrest]
  exact ⟨hs, hb⟩

/-- All readers with so much fuel keep to the texts of their tokens. -/
structure BuildsWith (handles : Handles) (n fuel : Nat) : Prop where
  node (inBlock unindented : Bool) :
    Builds n (Fits n) (ofTokens? handles inBlock unindented fuel)
  blockItems : Builds n (FitItems n) (blockItems? handles fuel)
  unindentedItems : Builds n (FitItems n) (unindentedItems? handles fuel)
  blockEntries : Builds n (FitEntries n) (blockEntries? handles fuel)
  blockValue : Builds n (Fits n) (blockValue? handles fuel)
  flowItems (first : Bool) : Builds n (FitItems n) (flowItems? handles fuel first)
  flowPair : Builds n (fun e => e.1.Fits n ∧ e.2.Fits n) (flowPair? handles fuel)
  flowValue (closing : Token) : Builds n (Fits n) (flowValue? handles closing fuel)
  flowEntries (first : Bool) : Builds n (FitEntries n) (flowEntries? handles fuel first)

variable {handles : Handles} {n fuel : Nat}

theorem fitTokens_properties? {ts r : List Token} {props : Properties (List Char)}
    (hts : FitTokens n ts) (h : properties? handles ts = some (props, r)) : FitTokens n r := by
  unfold properties? at h
  split at h
  · obtain ⟨name, -, heq⟩ := Option.map_eq_some_iff.1 h
    cases heq
    exact hts.tail.tail
  · obtain ⟨name, -, heq⟩ := Option.map_eq_some_iff.1 h
    cases heq
    exact hts.tail.tail
  · cases h
    exact hts.tail
  · obtain ⟨name, -, heq⟩ := Option.map_eq_some_iff.1 h
    cases heq
    exact hts.tail
  · cases h
    exact hts

theorem builds_ofTokens? (h : BuildsWith handles n fuel) (inBlock unindented : Bool) :
    Builds n (Fits n) (ofTokens? handles inBlock unindented (fuel + 1)) := by
  intro ts r m hts hm
  have hempty : ∀ {props : Properties (List Char)} {s : List Token}, FitTokens n s →
      (if props.anchor.isSome || props.tag.isSome then some (scalar props .plain [], s) else none) =
        some (m, r) → FitTokens n r ∧ m.Fits n := by
    intro props s hs h
    split at h
    · cases h
      exact ⟨hs, fits_scalar (Nat.zero_le n)⟩
    · cases h
  unfold ofTokens? at hm
  split at hm
  case h_1 => cases hm
  case h_2 heq =>
    cases heq
    cases hm
    exact ⟨hts.tail, fits_reference _⟩
  case h_3 heq _ =>
    cases heq
    split at hm
    · cases hm
    rename_i props s hprops
    have hs := fitTokens_properties? hts hprops
    split at hm
    · -- a scalar
      cases hm
      exact ⟨hs.tail, fits_scalar hs.head⟩
    · -- a flow sequence
      exact (h.flowItems true).map (fun ms s hms => ⟨rfl, fits_sequence hms⟩) hs.tail hm
    · -- a flow mapping
      exact (h.flowEntries true).map (fun es s hes => ⟨rfl, fits_mapping hes⟩) hs.tail hm
    · -- a sequence that is not indented
      split at hm
      · exact h.unindentedItems.map (fun ms s hms => ⟨rfl, fits_sequence hms⟩) hs hm
      · exact hempty hs hm
    · -- a block sequence
      split at hm
      · exact h.blockItems.map (fun ms s hms => ⟨rfl, fits_sequence hms⟩) hs.tail hm
      · exact hempty hs hm
    · -- a block mapping
      split at hm
      · exact h.blockEntries.map (fun es s hes => ⟨rfl, fits_mapping hes⟩) hs.tail hm
      · exact hempty hs hm
    · exact hempty hs hm

/-- One more item in front. -/
theorem fitItems_cons {m : Named} {ms : List Named} (hm : m.Fits n) (hms : FitItems n ms) :
    FitItems n (m :: ms) := List.forall_mem_cons.2 ⟨hm, hms⟩

theorem fitEntries_cons {k v : Named} {es : List (Named × Named)} (hk : k.Fits n) (hv : v.Fits n)
    (hes : FitEntries n es) : FitEntries n ((k, v) :: es) :=
  List.forall_mem_cons.2 ⟨⟨hk, hv⟩, hes⟩

theorem builds_blockItems? (h : BuildsWith handles n fuel) :
    Builds n (FitItems n) (blockItems? handles (fuel + 1)) := by
  intro ts r ms hts hms
  unfold blockItems? at hms
  split at hms
  case h_1 => cases hms
  case h_2 heq =>
    cases heq
    extract_lets empty at hms
    split at hms
    · exact h.blockItems.map (fun ks s hks => ⟨rfl, fitItems_cons (fits_absent n) hks⟩) hts.tail hms
    · split at hms
      · cases hms
      · rename_i k s hk
        obtain ⟨hs, hk⟩ := h.node _ _ hts.tail hk
        exact h.blockItems.map (fun ks s hks => ⟨rfl, fitItems_cons hk hks⟩) hs hms
  case h_3 heq =>
    cases heq
    cases hms
    exact ⟨hts.tail, fun m hm => absurd hm List.not_mem_nil⟩
  case h_4 => cases hms

theorem builds_unindentedItems? (h : BuildsWith handles n fuel) :
    Builds n (FitItems n) (unindentedItems? handles (fuel + 1)) := by
  intro ts r ms hts hms
  unfold unindentedItems? at hms
  split at hms
  case h_1 => cases hms
  case h_2 heq =>
    cases heq
    extract_lets empty at hms
    split at hms
    · exact h.unindentedItems.map (fun ks s hks => ⟨rfl, fitItems_cons (fits_absent n) hks⟩) hts.tail hms
    · split at hms
      · cases hms
      · rename_i k s hk
        obtain ⟨hs, hk⟩ := h.node _ _ hts.tail hk
        exact h.unindentedItems.map (fun ks s hks => ⟨rfl, fitItems_cons hk hks⟩) hs hms
  case h_3 =>
    cases hms
    exact ⟨hts, fun m hm => absurd hm List.not_mem_nil⟩

/-- A node that may be left out. -/
theorem fits_optional {missing : Bool} {inBlock unindented : Bool} {ts s r : List Token}
    {m : Named} (h : BuildsWith handles n fuel) (hts : FitTokens n ts) (hs : FitTokens n s)
    (hm : (if missing then some (absent, s) else ofTokens? handles inBlock unindented fuel ts) =
      some (m, r)) : FitTokens n r ∧ m.Fits n := by
  split at hm
  · cases hm
    exact ⟨hs, fits_absent n⟩
  · exact h.node _ _ hts hm

theorem builds_blockEntries? (h : BuildsWith handles n fuel) :
    Builds n (FitEntries n) (blockEntries? handles (fuel + 1)) := by
  intro ts r es hts hes
  unfold blockEntries? at hes
  split at hes
  case h_1 => cases hes
  case h_2 heq =>
    cases heq
    split at hes
    · cases hes
    rename_i k s hk
    obtain ⟨hs, hk⟩ := fits_optional h hts.tail hts.tail hk
    split at hes
    · cases hes
    rename_i v u hv
    obtain ⟨hu, hv⟩ := h.blockValue hs hv
    exact h.blockEntries.map (fun fs s hfs => ⟨rfl, fitEntries_cons hk hv hfs⟩) hu hes
  case h_3 heq =>
    cases heq
    cases hes
    exact ⟨hts.tail, fun e he => absurd he List.not_mem_nil⟩
  case h_4 => cases hes

theorem builds_blockValue? (h : BuildsWith handles n fuel) :
    Builds n (Fits n) (blockValue? handles (fuel + 1)) := by
  intro ts r m hts hm
  unfold blockValue? at hm
  split at hm
  case h_1 => cases hm
  case h_2 heq =>
    cases heq
    exact fits_optional h hts.tail hts.tail hm
  case h_3 =>
    cases hm
    exact ⟨hts, fits_absent n⟩

theorem builds_flowValue? (h : BuildsWith handles n fuel) (closing : Token) :
    Builds n (Fits n) (flowValue? handles closing (fuel + 1)) := by
  intro ts r m hts hm
  unfold flowValue? at hm
  split at hm
  case h_1 => cases hm
  case h_2 heq =>
    cases heq
    exact fits_optional h hts.tail hts.tail hm
  case h_3 =>
    cases hm
    exact ⟨hts, fits_absent n⟩

theorem builds_flowPair? (h : BuildsWith handles n fuel) :
    Builds n (fun e => e.1.Fits n ∧ e.2.Fits n) (flowPair? handles (fuel + 1)) := by
  intro ts r e hts he
  unfold flowPair? at he
  extract_lets missing at he
  split at he
  · cases he
  rename_i k s hk
  have hk : FitTokens n s ∧ k.Fits n := by
    split at hk
    · split at hk
      · cases hk
      · cases hk
        exact ⟨fun t ht => hts t (List.mem_of_mem_drop ht), fits_absent n⟩
    · exact h.node _ _ hts hk
  split at he
  · cases he
  rename_i v u hv
  have hfits := h.flowValue _ hk.1 hv
  cases he
  exact ⟨hfits.1, hk.2, hfits.2⟩

/-- Behind the first entry of a flow collection an entry begins with a comma. -/
theorem fitTokens_flowEntry {first : Bool} {ts s : List Token}
    (h : (if first then some ts else match ts with
      | .flowEntry :: r => some r
      | _ => none) = some s) (hts : FitTokens n ts) : FitTokens n s := by
  split at h
  · cases h
    exact hts
  · cases ts with
    | nil => cases h
    | cons token r =>
      cases token with
      | flowEntry =>
        cases h
        exact hts.tail
      | _ => cases h

theorem builds_flowItems? (h : BuildsWith handles n fuel) (first : Bool) :
    Builds n (FitItems n) (flowItems? handles (fuel + 1) first) := by
  intro ts r ms hts hms
  unfold flowItems? at hms
  split at hms
  case h_1 => cases hms
  case h_2 heq =>
    cases heq
    cases hms
    exact ⟨hts.tail, fun m hm => absurd hm List.not_mem_nil⟩
  case h_3 heq _ =>
    cases heq
    split at hms
    case h_1 => cases hms
    case h_2 hs =>
      cases hms
      exact ⟨(fitTokens_flowEntry hs hts).tail, fun m hm => absurd hm List.not_mem_nil⟩
    case h_3 hs =>
      have hs := (fitTokens_flowEntry hs hts).tail
      split at hms
      · cases hms
      rename_i e u he
      obtain ⟨hu, he⟩ := h.flowPair hs he
      have hpair : Fits n (mapping unnamed [e]) := fits_mapping (List.forall_mem_singleton.2 he)
      exact (h.flowItems false).map (fun ks s hks => ⟨rfl, fitItems_cons hpair hks⟩) hu hms
    case h_4 hs =>
      have hs := fitTokens_flowEntry hs hts
      split at hms
      · cases hms
      rename_i k u hk
      obtain ⟨hu, hk⟩ := h.node _ _ hs hk
      exact (h.flowItems false).map (fun ks s hks => ⟨rfl, fitItems_cons hk hks⟩) hu hms

theorem builds_flowEntries? (h : BuildsWith handles n fuel) (first : Bool) :
    Builds n (FitEntries n) (flowEntries? handles (fuel + 1) first) := by
  intro ts r es hts hes
  unfold flowEntries? at hes
  split at hes
  case h_1 => cases hes
  case h_2 heq =>
    cases heq
    cases hes
    exact ⟨hts.tail, fun e he => absurd he List.not_mem_nil⟩
  case h_3 heq _ =>
    cases heq
    split at hes
    case h_1 => cases hes
    case h_2 hs =>
      cases hes
      exact ⟨(fitTokens_flowEntry hs hts).tail, fun e he => absurd he List.not_mem_nil⟩
    case h_3 hs =>
      have hs := (fitTokens_flowEntry hs hts).tail
      extract_lets missing at hes
      split at hes
      · cases hes
      rename_i k u hk
      obtain ⟨hu, hk⟩ := fits_optional h hs hs hk
      split at hes
      · cases hes
      rename_i v w hv
      obtain ⟨hw, hv⟩ := h.flowValue _ hu hv
      exact (h.flowEntries false).map (fun fs s hfs => ⟨rfl, fitEntries_cons hk hv hfs⟩) hw hes
    case h_4 hs =>
      have hs := fitTokens_flowEntry hs hts
      split at hes
      · cases hes
      rename_i k u hk
      obtain ⟨hu, hk⟩ := h.node _ _ hs hk
      exact (h.flowEntries false).map
        (fun fs s hfs => ⟨rfl, fitEntries_cons hk (fits_absent n) hfs⟩) hu hes

theorem builds_of_fuel (handles : Handles) (n fuel : Nat) : BuildsWith handles n fuel := by
  induction fuel with
  | zero =>
    refine ⟨fun _ _ => ?_, ?_, ?_, ?_, ?_, fun _ => ?_, ?_, fun _ => ?_, fun _ => ?_⟩
    all_goals
      intro ts r a hts h
      cases h
  | succ fuel ih =>
    exact ⟨builds_ofTokens? ih, builds_blockItems? ih, builds_unindentedItems? ih,
      builds_blockEntries? ih, builds_blockValue? ih, builds_flowItems? ih, builds_flowPair? ih,
      builds_flowValue? ih, builds_flowEntries? ih⟩

/-! ## Trees with numbers -/

mutual

/-- Numbers in place of names change no text. -/
theorem fits_number? {names names' : AnchorNames} : ∀ {m : Named} {k : Numbered}, m.Fits n →
    number? names m = some (k, names') → k.Fits n
  | reference name, k, _, h => by
    obtain ⟨i, -, heq⟩ := Option.map_eq_some_iff.1 h
    cases heq
    exact fits_reference i
  | scalar props style text, k, hm, h => by
    cases h
    exact fits_scalar hm.text_le
  | sequence props items, k, hm, h => by
    obtain ⟨⟨ks, _⟩, hks, heq⟩ := Option.map_eq_some_iff.1 h
    cases heq
    exact fits_sequence (fits_numberItems? hm.items hks)
  | mapping props entries, k, hm, h => by
    obtain ⟨⟨es, _⟩, hes, heq⟩ := Option.map_eq_some_iff.1 h
    cases heq
    exact fits_mapping (fits_numberEntries? hm.entries hes)

theorem fits_numberItems? {names names' : AnchorNames} : ∀ {ms : List Named} {ks : List Numbered},
    FitItems n ms → numberItems? names ms = some (ks, names') → FitItems n ks
  | [], ks, _, h => by
    cases h
    exact fun k hk => absurd hk List.not_mem_nil
  | m :: r, ks, hms, h => by
    obtain ⟨hm, hr⟩ := List.forall_mem_cons.1 hms
    unfold numberItems? at h
    split at h
    · cases h
    · rename_i k _ hk
      obtain ⟨⟨ls, _⟩, hls, heq⟩ := Option.map_eq_some_iff.1 h
      cases heq
      exact List.forall_mem_cons.2 ⟨fits_number? hm hk, fits_numberItems? hr hls⟩

theorem fits_numberEntries? {names names' : AnchorNames} :
    ∀ {es : List (Named × Named)} {fs : List (Numbered × Numbered)}, FitEntries n es →
    numberEntries? names es = some (fs, names') → FitEntries n fs
  | [], fs, _, h => by
    cases h
    exact fun e he => absurd he List.not_mem_nil
  | (k, v) :: r, fs, hes, h => by
    obtain ⟨⟨hk, hv⟩, hr⟩ := List.forall_mem_cons.1 hes
    unfold numberEntries? at h
    split at h
    · cases h
    · rename_i k' _ hk'
      split at h
      · cases h
      · rename_i v' _ hv'
        obtain ⟨⟨gs, _⟩, hgs, heq⟩ := Option.map_eq_some_iff.1 h
        cases heq
        exact List.forall_mem_cons.2
          ⟨⟨fits_number? hk hk', fits_number? hv hv'⟩, fits_numberEntries? hr hgs⟩

end

theorem fits_anchored {props : Properties Nat} {m : Numbered} (hm : m.Fits n) :
    ∀ e ∈ anchored props m, e.2.Fits n := by
  intro e he
  unfold anchored at he
  split at he
  · exact absurd he List.not_mem_nil
  · exact List.mem_singleton.1 he ▸ hm

mutual

/-- What an anchor marks is a part of the tree. -/
theorem fits_anchors : ∀ {m : Numbered}, m.Fits n → ∀ e ∈ anchors m, e.2.Fits n
  | reference _, _, e, he => absurd he List.not_mem_nil
  | scalar props style text, hm, e, he => fits_anchored hm e he
  | sequence props items, hm, e, he => by
    rcases List.mem_append.1 he with he | he
    · exact fits_anchored hm e he
    · exact fits_anchorsOfItems hm.items e he
  | mapping props entries, hm, e, he => by
    rcases List.mem_append.1 he with he | he
    · exact fits_anchored hm e he
    · exact fits_anchorsOfEntries hm.entries e he

theorem fits_anchorsOfItems : ∀ {ms : List Numbered}, FitItems n ms →
    ∀ e ∈ anchorsOfItems ms, e.2.Fits n
  | [], _, e, he => absurd he List.not_mem_nil
  | m :: r, hms, e, he => by
    obtain ⟨hm, hr⟩ := List.forall_mem_cons.1 hms
    rcases List.mem_append.1 he with he | he
    · exact fits_anchors hm e he
    · exact fits_anchorsOfItems hr e he

theorem fits_anchorsOfEntries : ∀ {es : List (Numbered × Numbered)}, FitEntries n es →
    ∀ e ∈ anchorsOfEntries es, e.2.Fits n
  | [], _, e, he => absurd he List.not_mem_nil
  | (k, v) :: r, hes, e, he => by
    obtain ⟨⟨hk, hv⟩, hr⟩ := List.forall_mem_cons.1 hes
    rcases List.mem_append.1 he with he | he
    · rcases List.mem_append.1 he with he | he
      · exact fits_anchors hk e he
      · exact fits_anchors hv e he
    · exact fits_anchorsOfEntries hr e he

end

end Node

namespace Document

/-- No text of the root or of what an alias stands for is longer than `n`. -/
structure Fits (n : Nat) (d : Document) : Prop where
  root : d.root.Fits n
  anchors : ∀ e ∈ d.anchors, e.2.Fits n

theorem fitTokens_directives? {n : Nat} {seen : Bool × Handles} {ts r : List Token}
    {handles : Handles} (hts : FitTokens n ts) (h : directives? seen ts = some (handles, r)) :
    FitTokens n r := by
  fun_induction directives? seen ts with
  | case1 seen d ts ih =>
    obtain ⟨seen', hseen, h⟩ := Option.bind_eq_some_iff.1 h
    exact ih seen' hts.tail h
  | case2 =>
    cases h
    exact hts

theorem fits_root? {n : Nat} {ts r : List Token} {m : Node.Named} (hts : FitTokens n ts)
    (h : root? ts = some (m, r)) : m.Fits n := by
  obtain ⟨⟨given, s⟩, hs, h⟩ := Option.bind_eq_some_iff.1 h
  have hs := fitTokens_directives? hts hs
  dsimp only at h
  split at h
  · split at h
    · cases h
      exact Node.fits_absent n
    · exact ((Node.builds_of_fuel _ n _).node _ _ hs.tail h).2
  · split at h
    · exact ((Node.builds_of_fuel _ n _).node _ _ hs h).2
    · cases h

/-- The texts of a document are no longer than the text it is read from. -/
theorem fits_parse? {text : String} {d : Document} (h : parse? text = some d) :
    d.Fits text.toList.length := by
  obtain ⟨ts, hts, h⟩ := Option.bind_eq_some_iff.1 h
  obtain ⟨⟨m, r⟩, hm, h⟩ := Option.bind_eq_some_iff.1 h
  have hm := fits_root? (fits_of_tokens? hts) hm
  dsimp only at h
  split at h
  · obtain ⟨⟨k, names⟩, hk, h⟩ := Option.bind_eq_some_iff.1 h
    cases h
    have hk := Node.fits_number? hm hk
    exact ⟨hk, fun e he => Node.fits_anchors hk e (List.mem_reverse.1 he)⟩
  · cases h

theorem fits_target? {n i : Nat} {d : Document} (hd : d.Fits n) {m : Node.Numbered}
    (h : d.target? i = some m) : m.Fits n := by
  obtain ⟨e, he, rfl⟩ := Option.map_eq_some_iff.1 h
  exact hd.anchors e (List.mem_of_find?_eq_some he)

end Document

end AsmOrigin.Yaml
