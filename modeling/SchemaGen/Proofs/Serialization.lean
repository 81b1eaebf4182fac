import SchemaGen.Generation
import SchemaGen.Proofs.Descriptor.RoundTrip
import SchemaGen.Proofs.Descriptor.Texts
import SchemaGen.Proofs.RevisedFiles

/-!
# Runs on serialized requests

A well-formed request is read from its serialization with its options in their normal forms, and a
run on the serialization ends as generating from the request itself does (`run_serialize`).
-/

namespace SchemaGen

namespace Descriptor

open Wire (Record Bytes)
open Standard

-- ---------------------------------------------------------------------------
-- Normal forms say the same
-- ---------------------------------------------------------------------------

theorem presence_codes (code : UInt32) :
    (Presence.ofCode? code.toNat).isSome = fieldPresence.numbers.contains code.toInt32 := by
  refine isSome_eq_contains [0, 1, 2, 3] rfl (fun code => ?_) code
  unfold Presence.ofCode?
  split <;> simp_all

theorem closedEnums_codes (code : UInt32) :
    (closedEnumsOf? code.toNat).isSome = enumType.numbers.contains code.toInt32 := by
  refine isSome_eq_contains [0, 1, 2] rfl (fun code => ?_) code
  unfold closedEnumsOf?
  split <;> simp_all

theorem checkedText_codes (code : UInt32) :
    (checkedTextOf? code.toNat).isSome = utf8Validation.numbers.contains code.toInt32 := by
  refine isSome_eq_contains [0, 2, 3] rfl (fun code => ?_) code
  unfold checkedTextOf?
  split <;> simp_all

theorem groupedMessages_codes (code : UInt32) :
    (groupedMessagesOf? code.toNat).isSome = messageEncoding.numbers.contains code.toInt32 := by
  refine isSome_eq_contains [0, 1, 2] rfl (fun code => ?_) code
  unfold groupedMessagesOf?
  split <;> simp_all

theorem distinctJson_codes (code : UInt32) :
    (distinctJsonOf? code.toNat).isSome = jsonFormat.numbers.contains code.toInt32 := by
  refine isSome_eq_contains [0, 1, 2] rfl (fun code => ?_) code
  unfold distinctJsonOf?
  split <;> simp_all

section

variable {depth : Nat} {type : String} {records : List Record}

theorem features_listed : List.Forall (· ∈ schema.fieldsOf featureSet)
    [⟨1, .enum (some fieldPresence.numbers), .optional⟩,
      ⟨2, .enum (some enumType.numbers), .optional⟩,
      ⟨4, .enum (some utf8Validation.numbers), .optional⟩,
      ⟨5, .enum (some messageEncoding.numbers), .optional⟩,
      ⟨6, .enum (some jsonFormat.numbers), .optional⟩] := by
  decide +kernel

theorem setBy_normal (h : Intact depth featureSet records) (features : Features) :
    features.setBy (schema.normal depth featureSet records) = features.setBy records := by
  obtain ⟨hpresence, henums, htexts, hmessages, hjson⟩ := features_listed
  rw [Features.setBy, lastCode?_normal presence_codes h hpresence,
    lastCode?_normal closedEnums_codes h henums, lastCode?_normal checkedText_codes h htexts,
    lastCode?_normal groupedMessages_codes h hmessages, lastCode?_normal distinctJson_codes h hjson,
    Features.setBy]

theorem flag_normal (h : Intact depth messageOptions records) {number : Nat}
    (hnumber : number ∈ [1, 7, 11]) :
    Options.flag (some (schema.normal depth messageOptions records)) number =
      Options.flag (some records) number := by
  have hfield : ∀ number ∈ [1, 7, 11],
      ⟨number, .bool, .optional⟩ ∈ schema.fieldsOf messageOptions := by decide +kernel
  have hflag : ∀ records, Options.flag (some records) number =
      (lastFlag? number records).getD false := by
    intro records
    rw [Options.flag, lastFlag?, Option.getD_some]
    cases (Record.varints number records).getLast? <;> rfl
  rw [hflag, hflag, lastFlag?_normal h (hfield number hnumber)]

theorem features_normal (h : Intact depth type records) (hle : depth ≤ Wire.Schema.maxDepth + 1)
    {number : Nat} (hentry : (type, number) ∈ featureOptions) :
    (merged? Wire.Schema.maxDepth number (schema.normal depth type records)).map
        (fun members features => Features.setBy features members) =
      (merged? Wire.Schema.maxDepth number records).map
        fun members features => Features.setBy features members := by
  have hfields : ∀ entry ∈ featureOptions,
      ⟨entry.2, .message featureSet, .optional⟩ ∈ schema.fieldsOf entry.1 := by decide +kernel
  have hfield := hfields _ hentry
  rw [merged?_normal h hle hfield]
  cases hmerged : merged? Wire.Schema.maxDepth number records with
  | none => rfl
  | some members =>
    refine congrArg some (funext fun features => ?_)
    exact setBy_normal (intact_merged h hle hfield hmerged) features

end

instance (depth : Nat) (type : String) (records : List Record) :
    Decidable (Intact depth type records) :=
  decidable_of_iff (_ ∧ _) ⟨fun h => ⟨h.1, h.2⟩, fun h => ⟨h.readable, h.short⟩⟩

theorem Intact.mono {depth more : Nat} {type : String} {records : List Record}
    (h : Intact depth type records) (hle : depth ≤ more) : Intact more type records := by
  refine ⟨Wire.Schema.readable_mono hle h.readable, ?_⟩
  rw [Wire.Schema.normal_mono regular hle h.readable]
  exact h.short

/-- Options and other records in their normal forms as long as those can be read back. Unlike
`canonical` this never changes what records say. -/
def cautious : Revision := fun type records =>
  if Intact Wire.Schema.maxWrittenDepth type records then
    schema.normal Wire.Schema.maxWrittenDepth type records
  else records

theorem cautious_cases (type : String) (records : List Record) :
    cautious type records = records ∨ Intact Wire.Schema.maxWrittenDepth type records ∧
      cautious type records = schema.normal Wire.Schema.maxWrittenDepth type records := by
  rw [cautious]
  split
  · next h => exact .inr ⟨h, rfl⟩
  · exact .inl rfl

theorem normalizes_cautious : Normalizes cautious Wire.Schema.maxWrittenDepth := by
  intro depth hle type records h
  rw [cautious, if_pos (h.mono hle)]
  exact Wire.Schema.normal_mono regular hle h.readable

theorem faithful_cautious : Faithful cautious where
  flag number hnumber records := by
    obtain heq | ⟨h, heq⟩ := cautious_cases messageOptions records
    · rw [heq]
    · rw [heq, flag_normal h hnumber]
  features entry hentry records := by
    obtain heq | ⟨h, heq⟩ := cautious_cases entry.1 records
    · rw [heq]
    · rw [heq, features_normal h (by decide) hentry]
  complete type records := by
    obtain heq | ⟨h, heq⟩ := cautious_cases type records
    · rw [heq]
    · rw [heq]
      have halike := Wire.Schema.Alike.normal regular h.readable h.short
      exact halike.complete_eq regular (Nat.le_refl _)
  normal type records := by
    obtain heq | ⟨h, heq⟩ := cautious_cases type records
    · rw [heq]
    · have hle : Wire.Schema.maxWrittenDepth ≤ Wire.Schema.maxDepth := by decide
      rw [heq, ← Wire.Schema.normal_mono regular hle h.readable]
      exact Wire.Schema.normal_normal regular (h.mono hle).readable (h.mono hle).short

-- ---------------------------------------------------------------------------
-- Serialized requests
-- ---------------------------------------------------------------------------

namespace Request

/-- The request with all its fields in the order of their numbers, its options included. -/
def serialize (request : Request) : Bytes :=
  Record.encodeAll (schema.normal Wire.Schema.maxDepth generatorRequest request.toRecords)

/-- Requests that can be serialized and read again: well-formed ones, short enough to be read both
as they are and serialized. -/
structure Serializable (request : Request) : Prop where
  wellFormed : request.WellFormed Wire.Schema.maxDepth
  encoded : Record.IsShort request.encode
  serialized : Record.IsShort request.serialize

instance (request : Request) : Decidable request.Serializable :=
  decidable_of_iff (_ ∧ _ ∧ _)
    ⟨fun h => ⟨h.1, h.2.1, h.2.2⟩, fun h => ⟨h.wellFormed, h.encoded, h.serialized⟩⟩

namespace Serializable

variable {request : Request}

theorem intact (h : request.Serializable) :
    Intact Wire.Schema.maxDepth generatorRequest request.toRecords := by
  obtain ⟨owned, hreplaces⟩ := Request.replaces normalizes_canonical h.wellFormed (Nat.le_refl _)
  exact ⟨hreplaces.readable h.encoded, h.serialized⟩

theorem decode?_serialize (h : request.Serializable) :
    schema.decode? generatorRequest request.serialize =
      some (schema.normal Wire.Schema.maxDepth generatorRequest request.toRecords) := by
  obtain ⟨owned, hreplaces⟩ := Request.replaces normalizes_canonical h.wellFormed (Nat.le_refl _)
  obtain ⟨elements, hunpack⟩ := hreplaces.unpacks
  have hread := Record.readAll_encodeAll
    (Wire.Schema.tidy_normal regular hunpack hreplaces.tidy) h.serialized
  have hreadable := Wire.Schema.readable_normal regular h.intact.readable h.intact.short
  simp [Wire.Schema.decode?, serialize, hread, hreadable]

theorem decodeRequest_serialize (h : request.Serializable) :
    Generation.decodeRequest request.serialize = .ok (request.revise canonical) := by
  have hnormal := Request.ofRecords_normal normalizes_canonical h.intact (Nat.le_refl _)
    (Nat.le_refl _)
  rw [Request.ofRecords_toRecords h.wellFormed (Nat.le_refl _) (Nat.le_refl _) h.encoded] at hnormal
  rw [Generation.decodeRequest, Generation.requestRecords?, h.decode?_serialize]
  exact congrArg Except.ok hnormal

theorem areTexts_toRecords (h : request.Serializable) {number : Nat} (hnumber : number ∈ [1, 2]) :
    areTexts number request.toRecords = true := by
  have hrest : Record.contents number request.rest = [] :=
    h.wellFormed.rest.contents_eq_nil (by revert number; decide)
  rw [areTexts, Request.toRecords, Record.contents_append, hrest]
  have htext : ∀ text : String, Wire.isText text.toUTF8.data.toList = true := by
    intro text
    rw [Wire.isText, Wire.text?_toUTF8]
    rfl
  rcases List.mem_cons.mp hnumber with rfl | hnumber
  · simp [-String.toUTF8_eq_toByteArray, Record.contents_append, htext]
  · obtain rfl := List.mem_singleton.mp hnumber
    simp [-String.toUTF8_eq_toByteArray, Record.contents_append, htext]

theorem hasTextTargets_serialize (h : request.Serializable) :
    Generation.hasTextTargets request.serialize = true := by
  obtain ⟨htargets, -, -⟩ := layouts.request.fields
  rw [Generation.hasTextTargets, Generation.requestRecords?, h.decode?_serialize]
  exact areTexts_normal (h.areTexts_toRecords (by decide)) h.intact.readable htargets

theorem hasTextParameter_serialize (h : request.Serializable) :
    Generation.hasTextParameter request.serialize = true := by
  obtain ⟨-, hparameter, -⟩ := layouts.request.fields
  rw [Generation.hasTextParameter, Generation.requestRecords?, h.decode?_serialize]
  exact lastIsText_of_areTexts
    (areTexts_normal (h.areTexts_toRecords (by decide)) h.intact.readable hparameter)

theorem serialize_revise (h : request.Serializable) :
    (request.revise canonical).serialize = request.serialize := by
  obtain ⟨owned, hreplaces⟩ := Request.replaces normalizes_canonical h.wellFormed (Nat.le_refl _)
  exact congrArg Record.encodeAll (hreplaces.substitute h.encoded h.serialized).same

-- ---------------------------------------------------------------------------
-- The files of a serialized request
-- ---------------------------------------------------------------------------

theorem file_wellFormed (h : request.Serializable) {file : File} (hfile : file ∈ request.files) :
    file.WellFormed Wire.Schema.maxWrittenDepth := (h.wellFormed.files file hfile).2

theorem bytes_mem_toRecords {file : File} (hfile : file ∈ request.files) :
    .bytes 15 (Record.encodeAll file.toRecords) ∈ request.toRecords :=
  List.mem_append_left _ (List.mem_append_right _ (List.mem_map_of_mem hfile))

theorem file_short (h : request.Serializable) {file : File} (hfile : file ∈ request.files) :
    Record.IsShort (Record.encodeAll file.toRecords) :=
  Record.IsShort.of_bytes_mem h.encoded (bytes_mem_toRecords hfile)

theorem file_intact (h : request.Serializable) {file : File} (hfile : file ∈ request.files) :
    Intact Wire.Schema.maxWrittenDepth fileDescriptor file.toRecords := by
  obtain ⟨owned, hreplaces⟩ :=
    File.replaces normalizes_canonical (h.file_wellFormed hfile) (by decide)
  have hread := Record.readAll_encodeAll hreplaces.tidy (h.file_short hfile)
  have hchild : file.toRecords ∈ children Wire.Schema.maxWrittenDepth 15 request.toRecords := by
    refine List.mem_map.mpr ⟨_, Record.mem_contents.mpr (bytes_mem_toRecords hfile), ?_⟩
    exact congrArg (·.getD []) hread
  obtain ⟨-, -, hfiles⟩ := layouts.request.fields
  exact intact_child h.intact (by decide) hfiles hchild

/-- In a file that can be read back nothing is deep enough for the two revisions to differ. -/
theorem file_revise (h : request.Serializable) {file : File} (hfile : file ∈ request.files) :
    file.revise canonical = file.revise cautious := by
  have hintact := h.file_intact hfile
  have hread : File.ofRecords Wire.Schema.maxWrittenDepth file.toRecords = file :=
    File.ofRecords_toRecords (h.file_wellFormed hfile) (by decide) (Nat.le_refl _)
      (h.file_short hfile)
  have hcanonical := File.ofRecords_normal normalizes_canonical hintact (Nat.le_refl _) (by decide)
  have hcautious := File.ofRecords_normal normalizes_cautious hintact (Nat.le_refl _)
    (Nat.le_refl _)
  rw [hread] at hcanonical hcautious
  rw [← hcanonical, hcautious]

theorem file_isWritable (h : request.Serializable) {file : File} (hfile : file ∈ request.files) :
    isWritable fileDescriptor (file.revise cautious).toRecords =
      isWritable fileDescriptor file.toRecords := by
  obtain ⟨owned, hreplaces⟩ :=
    File.replaces normalizes_cautious (h.file_wellFormed hfile) (Nat.le_refl _)
  have hsubstitute := hreplaces.substitute (h.file_short hfile) (h.file_intact hfile).short
  exact hsubstitute.toAlike.complete_eq regular (Nat.le_refl _)

theorem generate_revise (h : request.Serializable) (renderer : Option Target) :
    Generation.generate (request.revise canonical) renderer =
      Generation.generate request renderer := by
  have hfiles : (request.revise canonical).files = request.files.map (·.revise cautious) :=
    List.map_congr_left fun _ hfile => h.file_revise hfile
  refine Generation.generate_revise faithful_cautious ?_ ?_ hfiles
    (fun _ hfile => h.file_isWritable hfile) renderer
  · rfl
  · rfl

end Serializable

end Request

end Descriptor

namespace Generation

open Descriptor (Request canonical)

/-- A request is read from its serialization as it was, with its options in their normal forms, and
a run on the serialization ends as generating from the request does. -/
theorem run_serialize (request : Request) (h : request.Serializable) :
    decodeRequest request.serialize = .ok (request.revise canonical) ∧
      (request.revise canonical).serialize = request.serialize ∧
      (∀ renderer, generate (request.revise canonical) renderer = generate request renderer) ∧
      run request.serialize =
        match generate request none with
        | .ok files => .ok ⟨0, { features := some Response.optionalFields, files }⟩
        | .error failure =>
          if failure.isReported then .ok ⟨1, { error := some failure.message }⟩
          else .error failure := by
  refine ⟨h.decodeRequest_serialize, h.serialize_revise, h.generate_revise, ?_⟩
  rw [run, answer_of_texts h.hasTextParameter_serialize h.hasTextTargets_serialize,
    h.decodeRequest_serialize, Fallible.ok_bind, respond, h.generate_revise]
  cases generate request none with
  | ok files => rfl
  | error failure => rfl

/-- A file with nested messages and a negative number, whose options are given out of order and
more than once. -/
def scatteredOptions : Request where
  targets := ["order.proto"]
  parameter := some ""
  files := [
    { name := some "order.proto", package := some "shop", dialect := some "proto3",
      messages := [
        { name := some "Order",
          fields := [
            { name := some "state", number := some 1, label := some .optional,
              type := some .enum, typeName := some ".shop.Order.State",
              options := some [.varint 3 1, .varint 1 0, .varint 3 0] }],
          nested := [{ name := some "Item", nested := [{ name := some "Größe" }] }],
          enums := [
            { name := some "State",
              values := [
                { name := some "OPEN", number := some 0 },
                { name := some "LOST", number := some (-1) }] }],
          options := some [.varint 3 0, .varint 3 1, .fixed32 5000 7] }],
      options := some [.bytes 11 [], .varint 10 1, .varint 9 5] }]
  rest := [.bytes 3 [8, 3]]

theorem run_serialize_scatteredOptions :
    scatteredOptions.Serializable ∧ scatteredOptions.serialize ≠ scatteredOptions.encode ∧
      decodeRequest scatteredOptions.serialize = .ok (scatteredOptions.revise canonical) ∧
      ∃ files, files.map Artifact.name = ["order.ts"] ∧
        run scatteredOptions.serialize =
          .ok ⟨0, { features := some Response.optionalFields, files }⟩ := by
  have hserializable : scatteredOptions.Serializable := by decide +kernel
  have hdiffers : scatteredOptions.serialize ≠ scatteredOptions.encode := by decide +kernel
  have hnames : (generate scatteredOptions none).toOption.map (·.map Artifact.name) =
      some ["order.ts"] := by decide +kernel
  obtain ⟨hdecode, -, -, hrun⟩ := run_serialize scatteredOptions hserializable
  cases hresult : generate scatteredOptions none with
  | error failure =>
    rw [hresult] at hnames
    cases hnames
  | ok files =>
    rw [hresult] at hnames hrun
    exact ⟨hserializable, hdiffers, hdecode, files, Option.some.inj hnames, hrun⟩

end Generation

end SchemaGen
