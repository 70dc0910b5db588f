import AsmOrigin.Manifest.Parse
import AsmOrigin.Proofs.Json.Records
import AsmOrigin.Serialized

/-!
Manifests, samples and profiles come back from their JSON texts.

A manifest is given by any object with its fields: in any order, with absent optional fields left out or
null, among fields of other names, and the same in each of its samples (`Manifest.GivenBy`).  Every
document of such an object is read as the manifest, and what is printed is one of them.  Printing what was
read therefore changes nothing the second time.
-/

namespace AsmOrigin

open Json

/-- What a JSON text gives. -/
def Json.decoded {α : Type} (ofJson? : Json → Option α) (text : String) : Option α :=
  (Json.parse? text).bind ofJson?

/-- Values that fit come back from their compact text, and every text that is read can be printed once
and for all. -/
structure Json.RoundTrips {α : Type} (toJson : α → Json) (ofJson? : Json → Option α)
    (Fits : α → Prop) : Prop where
  decoded_print : ∀ a, Fits a → decoded ofJson? (toJson a).print = some a
  idempotent : ∀ text printed, (decoded ofJson? text).map (fun a => (toJson a).print) = some printed →
    (decoded ofJson? printed).map (fun a => (toJson a).print) = some printed

theorem Json.roundTrips {α : Type} {toJson : α → Json} {ofJson? : Json → Option α} {Fits : α → Prop}
    (hprint : ∀ a, Printable (toJson a)) (hdecode : ∀ a, Fits a → ofJson? (toJson a) = some a)
    (hfits : ∀ j a, ofJson? j = some a → Fits a) : RoundTrips toJson ofJson? Fits := by
  have hround : ∀ a, Fits a → decoded ofJson? (toJson a).print = some a := fun a ha => by
    unfold decoded
    rw [parse?_print (hprint a), Option.bind_some, hdecode a ha]
  refine ⟨hround, fun text printed h => ?_⟩
  obtain ⟨a, ha, rfl⟩ := Option.map_eq_some_iff.1 h
  obtain ⟨j, -, hj⟩ := Option.bind_eq_some_iff.1 ha
  rw [hround a (hfits j a hj), Option.map_some]

theorem printable_optionalMember {α : Type} {item : α → Json} (h : ∀ a, Printable (item a))
    (key : String) (o : Option α) : ∀ m ∈ optionalMember key item o, Printable m.2 := by
  cases o with
  | none => exact fun m hm => absurd hm List.not_mem_nil
  | some a => exact List.forall_mem_singleton.2 (h a)

/-! ## Samples -/

namespace Sample

variable {s : Sample} {ms : List (String × Json)}

/-- The number of repetitions fits in 64 bits. -/
def WordSized (s : Sample) : Prop := ∀ n, s.repetitions = some n → n < 2 ^ 64

/-- The members of an object give the sample. -/
def GivenBy (s : Sample) (ms : List (String × Json)) : Prop :=
  ∃ path code repetitions, Gives fieldNames [some (.ofText s.label), path, code, repetitions] ms ∧
    GivesOptional .ofText s.path path ∧ GivesOptional .ofText s.code code ∧
    GivesOptional .ofNat s.repetitions repetitions

theorem ofJson?_of_givenBy (hs : s.WordSized) (h : s.GivenBy ms) : ofJson? (.ofMembers ms) = some s := by
  obtain ⟨path, code, repetitions, hgives, hpath, hcode, hrepetitions⟩ := h
  have hfields := fields?_of_gives (by decide) rfl hgives
  have hpath : optional? toText? path = some s.path := optional?_of_gives hpath (fun _ _ => rfl) rfl
  have hcode : optional? toText? code = some s.code := optional?_of_gives hcode (fun _ _ => rfl) rfl
  have hrepetitions : optional? toNat? repetitions = some s.repetitions :=
    optional?_of_gives hrepetitions (fun n hn => toNat?_ofNat (hs n hn)) rfl
  unfold ofJson?
  simp [hfields, hpath, hcode, hrepetitions, toText?, ofText]

theorem exists_givenBy (s : Sample) : ∃ ms, s.toJson = .ofMembers ms ∧ s.GivenBy ms := by
  refine ⟨_, rfl, s.path.map .ofText, s.code.map .ofText, s.repetitions.map .ofNat, ?_,
    givesOptional_map _ _, givesOptional_map _ _, givesOptional_map _ _⟩
  have h := gives_present fieldNames [some (.ofText s.label), s.path.map .ofText, s.code.map .ofText,
    s.repetitions.map .ofNat]
  obtain ⟨label, path, code, repetitions⟩ := s
  cases path <;> cases code <;> cases repetitions <;> exact h

theorem printable_toJson (s : Sample) : Printable s.toJson := by
  refine printable_ofMembers (List.forall_mem_append.2 ⟨List.forall_mem_append.2
    ⟨List.forall_mem_append.2 ⟨List.forall_mem_singleton.2 (printable_ofText _), ?_⟩, ?_⟩, ?_⟩)
  · exact printable_optionalMember printable_ofText _ _
  · exact printable_optionalMember printable_ofText _ _
  · exact printable_optionalMember printable_ofNat _ _

theorem wordSized_of_ofJson? {j : Json} (h : ofJson? j = some s) : s.WordSized := by
  unfold ofJson? at h
  obtain ⟨vs, -, h⟩ := Option.bind_eq_some_iff.1 h
  split at h
  · simp only [Option.bind_eq_bind, Option.bind_eq_some_iff, Option.pure_def,
      Option.some.injEq] at h
    obtain ⟨_, _, _, _, _, _, repetitions, hrepetitions, rfl⟩ := h
    rintro n rfl
    obtain ⟨v, hv⟩ := exists_of_optional? hrepetitions
    exact lt_of_toNat? hv
  · cases h

end Sample

/-! ## Manifests -/

namespace Manifest

variable {m : Manifest} {ms : List (String × Json)}

def WordSized (m : Manifest) : Prop := ∀ s ∈ m.samples, s.WordSized

/-- A list of samples is given by a list of objects, or left out if it is empty. -/
inductive GivesSamples : List Sample → Option Json → Prop where
  | leftOut : GivesSamples [] none
  | given {samples : List Sample} {vs : List Json}
      (h : List.Forall₂ (fun v s => ∃ ms, v = .ofMembers ms ∧ s.GivenBy ms) vs samples) :
      GivesSamples samples (some (.list vs))

/-- The members of an object give the manifest. -/
def GivenBy (m : Manifest) (ms : List (String × Json)) : Prop :=
  ∃ description samples, Gives fieldNames [some (.ofText m.name), description, samples] ms ∧
    GivesOptional .ofText m.description description ∧ GivesSamples m.samples samples

theorem samplesOfJson?_of_gives (hm : m.WordSized) {v : Option Json}
    (h : GivesSamples m.samples v) : samplesOfJson? v = some m.samples := by
  unfold WordSized at hm
  generalize m.samples = samples at hm h
  cases h with
  | leftOut => rfl
  | @given _ vs h =>
    refine mapM_eq_some_iff.2 ?_
    induction h with
    | nil => exact .nil
    | @cons v s vs ss hs _ ih =>
      obtain ⟨ms, rfl, hgiven⟩ := hs
      obtain ⟨hword, hwords⟩ := List.forall_mem_cons.1 hm
      exact .cons (Sample.ofJson?_of_givenBy hword hgiven) (ih hwords)

theorem ofJson?_of_givenBy (hm : m.WordSized) (h : m.GivenBy ms) :
    ofJson? (.ofMembers ms) = some m := by
  obtain ⟨description, samples, hgives, hdescription, hsamples⟩ := h
  have hfields := fields?_of_gives (by decide) rfl hgives
  have hdescription : optional? toText? description = some m.description :=
    optional?_of_gives hdescription (fun _ _ => rfl) rfl
  have hsamples := samplesOfJson?_of_gives hm hsamples
  unfold ofJson?
  simp [hfields, hdescription, hsamples, toText?, ofText]

theorem exists_givenBy (m : Manifest) : ∃ ms, m.toJson = .ofMembers ms ∧ m.GivenBy ms := by
  have hsamples : GivesSamples m.samples (some (.ofList Sample.toJson m.samples)) := by
    refine .given ?_
    rw [List.forall₂_map_left_iff, List.forall₂_same]
    exact fun s _ => s.exists_givenBy
  refine ⟨_, rfl, m.description.map .ofText, _, ?_, givesOptional_map _ _, hsamples⟩
  have h := gives_present fieldNames [some (.ofText m.name), m.description.map .ofText,
    some (.ofList Sample.toJson m.samples)]
  obtain ⟨name, description, samples⟩ := m
  cases description <;> exact h

theorem printable_toJson (m : Manifest) : Printable m.toJson := by
  refine printable_ofMembers (List.forall_mem_append.2 ⟨List.forall_mem_append.2
    ⟨List.forall_mem_singleton.2 (printable_ofText _), ?_⟩, List.forall_mem_singleton.2 ?_⟩)
  · exact printable_optionalMember printable_ofText _ _
  · exact printable_ofList Sample.printable_toJson _

theorem wordSized_of_ofJson? {j : Json} (h : ofJson? j = some m) : m.WordSized := by
  unfold ofJson? at h
  obtain ⟨vs, -, h⟩ := Option.bind_eq_some_iff.1 h
  split at h
  · simp only [Option.bind_eq_bind, Option.bind_eq_some_iff, Option.pure_def,
      Option.some.injEq] at h
    obtain ⟨_, _, _, _, samples, hsamples, rfl⟩ := h
    intro s hs
    unfold samplesOfJson? at hsamples
    split at hsamples
    · cases hsamples
      exact absurd hs List.not_mem_nil
    · obtain ⟨v, hv⟩ := forall_of_toList? hsamples s hs
      exact Sample.wordSized_of_ofJson? hv
  · cases h

end Manifest

/-! ## Profiles -/

namespace Profile

variable {p : Profile}

/-- Every count fits in 64 bits. -/
structure WordSized (p : Profile) : Prop where
  instructions : p.instructions < 2 ^ 64
  opcodes : ∀ n ∈ p.opcodes.values, n < 2 ^ 64
  registers : ∀ n ∈ p.registers.values, n < 2 ^ 64
  jumpLines : p.jumpLines < 2 ^ 64
  callLines : p.callLines < 2 ^ 64
  signatures : ∀ n ∈ p.signatures.toList, n < 2 ^ 64

theorem signaturesOfJson?_ofList {v : Vector Nat 8} (h : ∀ n ∈ v.toList, n < 2 ^ 64) :
    signaturesOfJson? (.ofList .ofNat v.toList) = some v := by
  have hlist : toList? toNat? (.ofList .ofNat v.toList) = some v.toList :=
    toList?_ofList fun n hn => toNat?_ofNat (h n hn)
  have harray : v.toList.toArray = v.toArray := Array.toArray_toList
  unfold signaturesOfJson?
  simp [hlist, harray]

theorem ofJson?_toJson (h : p.WordSized) : ofJson? p.toJson = some p := by
  have hfields := fields?_of_gives (by decide) rfl (gives_present
    ["total_instructions", "opcodes", "registers", "jump_lines", "call_lines", "signatures"]
    [some (.ofNat p.instructions), some (.ofMap .ofNat p.opcodes), some (.ofMap .ofNat p.registers),
      some (.ofNat p.jumpLines), some (.ofNat p.callLines),
      some (.ofList .ofNat p.signatures.toList)])
  have hopcodes : toMap? toNat? (.ofMap .ofNat p.opcodes) = some p.opcodes :=
    toMap?_ofMap fun n hn => toNat?_ofNat (h.opcodes n hn)
  have hregisters : toMap? toNat? (.ofMap .ofNat p.registers) = some p.registers :=
    toMap?_ofMap fun n hn => toNat?_ofNat (h.registers n hn)
  have hfields' : fields? _ p.toJson = some _ := hfields
  unfold ofJson?
  simp [hfields', toNat?_ofNat h.instructions, hopcodes, hregisters, toNat?_ofNat h.jumpLines,
    toNat?_ofNat h.callLines, signaturesOfJson?_ofList h.signatures]

theorem printable_toJson (p : Profile) : Printable p.toJson := by
  refine printable_ofMembers ?_
  simp only [List.forall_mem_cons]
  exact ⟨printable_ofNat _, printable_ofMap printable_ofNat _, printable_ofMap printable_ofNat _,
    printable_ofNat _, printable_ofNat _, printable_ofList printable_ofNat _,
    fun m hm => absurd hm List.not_mem_nil⟩

theorem lt_of_signaturesOfJson? {j : Json} {v : Vector Nat 8} (h : signaturesOfJson? j = some v) :
    ∀ n ∈ v.toList, n < 2 ^ 64 := by
  unfold signaturesOfJson? at h
  obtain ⟨counts, hcounts, h⟩ := Option.bind_eq_some_iff.1 h
  dsimp only at h
  split at h
  · cases h
    intro n hn
    obtain ⟨w, hw⟩ := forall_of_toList? hcounts n (by simpa using hn)
    exact lt_of_toNat? hw
  · cases h

theorem wordSized_of_ofJson? {j : Json} (h : ofJson? j = some p) : p.WordSized := by
  unfold ofJson? at h
  obtain ⟨vs, -, h⟩ := Option.bind_eq_some_iff.1 h
  split at h
  · simp only [Option.bind_eq_bind, Option.bind_eq_some_iff, Option.pure_def,
      Option.some.injEq] at h
    obtain ⟨_, hi, _, ho, _, hr, _, hj, _, hc, _, hs, rfl⟩ := h
    have hmap : ∀ {j : Json} {m : OrderedMap Nat}, toMap? toNat? j = some m →
        ∀ n ∈ m.values, n < 2 ^ 64 := fun h n hn => by
      obtain ⟨v, hv⟩ := forall_of_toMap? h n hn
      exact lt_of_toNat? hv
    exact ⟨lt_of_toNat? hi, hmap ho, hmap hr, lt_of_toNat? hj, lt_of_toNat? hc,
      lt_of_signaturesOfJson? hs⟩
  · cases h

end Profile

/-! ## Decoding undoes encoding -/

theorem Manifest.ofJson?_toJson {m : Manifest} (h : m.WordSized) : ofJson? m.toJson = some m := by
  obtain ⟨ms, htoJson, hgiven⟩ := m.exists_givenBy
  rw [htoJson]
  exact ofJson?_of_givenBy h hgiven

theorem Sample.ofJson?_toJson {s : Sample} (h : s.WordSized) : ofJson? s.toJson = some s := by
  obtain ⟨ms, htoJson, hgiven⟩ := s.exists_givenBy
  rw [htoJson]
  exact ofJson?_of_givenBy h hgiven

/-- Every document of an object that gives a manifest is read as that manifest. -/
def Readers.ReadsJson (readers : Readers) : Prop :=
  ∀ (m : Manifest) (ms : List (String × Json)) (text : String), m.WordSized → m.GivenBy ms →
    IsDocument (.ofMembers ms) text → readers.json? text = some m

theorem Readers.readsJson_standard : standard.ReadsJson := by
  intro m ms text hm hgiven htext
  show (parse? text).bind Manifest.ofJson? = some m
  rw [parse?_of_isDocument htext, Option.bind_some, Manifest.ofJson?_of_givenBy hm hgiven]

/-- A manifest given by a document is accepted exactly if it is well formed, and refused for its defect
otherwise. -/
theorem Readers.ReadsJson.parseWith {readers : Readers} (h : readers.ReadsJson) {m : Manifest}
    {ms : List (String × Json)} {text : String} (hm : m.WordSized) (hgiven : m.GivenBy ms)
    (htext : IsDocument (.ofMembers ms) text) :
    (Manifest.parseWith readers text "json" = .ok m ↔ m.validate = .ok ()) ∧
      ∀ e, m.validate = .error e →
        Manifest.parseWith readers text "json" = .error ⟨[], .manifest e⟩ := by
  have hparse : Manifest.parseWith readers text "json" = Manifest.checked m := by
    unfold Manifest.parseWith
    rw [if_pos rfl, h m ms text hm hgiven htext]
    rfl
  rw [hparse, Manifest.checked]
  refine ⟨?_, fun e he => by rw [he]⟩
  cases m.validate <;> simp

/-- Manifests, samples and profiles with counts of 64 bits come back from their compact text, and printing
what was read changes nothing the second time.  Every document of an object that gives a manifest is read
as that manifest, which is then accepted exactly if it is well formed and refused for its defect
otherwise. -/
theorem decoding_undoes_encoding :
    RoundTrips Manifest.toJson Manifest.ofJson? Manifest.WordSized ∧
    RoundTrips Sample.toJson Sample.ofJson? Sample.WordSized ∧
    RoundTrips Profile.toJson Profile.ofJson? Profile.WordSized ∧
    ∀ (m : Manifest) (ms : List (String × Json)) (text : String), m.WordSized → m.GivenBy ms →
      IsDocument (.ofMembers ms) text → decoded Manifest.ofJson? text = some m ∧
        (Manifest.parse text "json" = .ok m ↔ m.validate = .ok ()) ∧
        ∀ e, m.validate = .error e → Manifest.parse text "json" = .error ⟨[], .manifest e⟩ := by
  refine ⟨?_, ?_, ?_, fun m ms text hm hgiven htext => ?_⟩
  · exact roundTrips Manifest.printable_toJson (fun _ => Manifest.ofJson?_toJson)
      fun _ _ => Manifest.wordSized_of_ofJson?
  · exact roundTrips Sample.printable_toJson (fun _ => Sample.ofJson?_toJson)
      fun _ _ => Sample.wordSized_of_ofJson?
  · exact roundTrips Profile.printable_toJson (fun _ => Profile.ofJson?_toJson)
      fun _ _ => Profile.wordSized_of_ofJson?
  · exact ⟨Readers.readsJson_standard m ms text hm hgiven htext,
      Readers.readsJson_standard.parseWith hm hgiven htext⟩

/-- Blanks, an unknown field of the sample, a null for what is absent, and a name by its code unit. -/
theorem decoding_undoes_encoding_of_a_spaced_text :
    let text := "\x7b \"samples\":[\x7b\"y\":[],\"code\":\"mov\",\"label\":\"c\"\x7d]," ++
      "\"description\":null,\"name\":\"\\u006d\"\x7d"
    let m : Manifest := ⟨"m", none, [⟨"c", none, some "mov", none⟩]⟩
    decoded Manifest.ofJson? text = some m ∧ Manifest.parse text "json" = .ok m := by
  intro text m
  have hword : m.WordSized := by
    intro s hs n hn
    rw [List.mem_singleton.1 hs] at hn
    cases hn
  let sample : List (String × Json) :=
    [("y", .list []), ("code", .ofText "mov"), ("label", .ofText "c")]
  have hsample : Sample.GivenBy ⟨"c", none, some "mov", none⟩ sample :=
    ⟨none, some (.ofText "mov"), none,
      ⟨[("y", .list [])], by decide, sample.reverse_perm.symm⟩, .leftOut, .given "mov", .leftOut⟩
  let samples : Json := .list [.ofMembers sample]
  let ms := [("samples", samples), ("description", .null), ("name", .ofText "m")]
  have hgiven : m.GivenBy ms :=
    ⟨some .null, some samples, ⟨[], by decide, ms.reverse_perm.symm⟩, .null,
      .given (.cons ⟨_, rfl, hsample⟩ .nil)⟩
  have hprintable : Printable samples := by
    refine .list (List.forall_mem_singleton.2 (printable_ofMembers ?_))
    simp only [sample, List.forall_mem_cons]
    exact ⟨.list fun _ hv => absurd hv List.not_mem_nil, printable_ofText _, printable_ofText _,
      fun _ hm => absurd hm List.not_mem_nil⟩
  have hspelled : Spells ['\\', 'u', '0', '0', '6', 'd'] [.unit 'm'.toNat] :=
    .unit (isHexDigit_hexDigit (n := 0) (by decide)) (isHexDigit_hexDigit (n := 0) (by decide))
      (isHexDigit_hexDigit (n := 6) (by decide)) (isHexDigit_hexDigit (n := 13) (by decide)) .nil
  have hname : IsText (.ofText "m") "\"\\u006d\"".toList :=
    .text ⟨_, _, rfl, hspelled, .some (.unit (by decide) .nil)⟩
  have hspace : Blank [' '] := List.forall_mem_singleton.2 (.inl rfl)
  have htext : IsDocument (.ofMembers ms) text :=
    ⟨[], _, [], by decide, blank_nil, .object hspace
      (.more (.mk (isString_quote "samples") blank_nil blank_nil (isText_compact hprintable))
        blank_nil blank_nil
      (.more (.mk (isString_quote "description") blank_nil blank_nil .null) blank_nil blank_nil
      (.one (.mk (isString_quote "name") blank_nil blank_nil hname)))) blank_nil, blank_nil⟩
  obtain ⟨hdecoded, haccepted, -⟩ :=
    decoding_undoes_encoding.2.2.2 m ms text hword hgiven htext
  exact ⟨hdecoded, haccepted.2 (by decide)⟩

end AsmOrigin
