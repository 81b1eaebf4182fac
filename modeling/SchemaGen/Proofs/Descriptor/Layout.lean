import SchemaGen.Proofs.Descriptor.Parts

/-!
# The layouts of descriptors

What reading and writing descriptors relies on in the standard schema (`layouts`): it has the fields
that a descriptor has places for, and the records that a descriptor takes are the records of those
fields. All records but these are kept as they are, those with the number of an unlisted enum value
among them (`others_eq`, `Field.isOther_eq`, `File.isOther_eq`).
-/

namespace SchemaGen.Descriptor

open Wire (Record Schema FieldSpec)

namespace Standard

def fieldDescriptor : String := "google.protobuf.FieldDescriptorProto"

def enumValueDescriptor : String := "google.protobuf.EnumValueDescriptorProto"

def enumDescriptor : String := "google.protobuf.EnumDescriptorProto"

def enumReservedRange : String := "google.protobuf.EnumDescriptorProto.EnumReservedRange"

def extensionRange : String := "google.protobuf.DescriptorProto.ExtensionRange"

def reservedRange : String := "google.protobuf.DescriptorProto.ReservedRange"

def oneofDescriptor : String := "google.protobuf.OneofDescriptorProto"

def messageDescriptor : String := "google.protobuf.DescriptorProto"

def methodDescriptor : String := "google.protobuf.MethodDescriptorProto"

def serviceDescriptor : String := "google.protobuf.ServiceDescriptorProto"

def enumValueOptions : String := "google.protobuf.EnumValueOptions"

def enumOptions : String := "google.protobuf.EnumOptions"

def extensionRangeOptions : String := "google.protobuf.ExtensionRangeOptions"

def oneofOptions : String := "google.protobuf.OneofOptions"

def methodOptions : String := "google.protobuf.MethodOptions"

def serviceOptions : String := "google.protobuf.ServiceOptions"

def fileOptions : String := "google.protobuf.FileOptions"

def featureSet : String := "google.protobuf.FeatureSet"

end Standard

-- ---------------------------------------------------------------------------
-- The other records
-- ---------------------------------------------------------------------------

/-- Whether the field under a record's number refuses the record for its value only. -/
def isRefused (type : String) (record : Record) : Bool :=
  (Standard.schema.field? type record.number).any fun field =>
    record.shape == field.kind.shape && !field.kind.admits record

def isOther (type : String) (taken : List (Nat × Wire.Shape)) (record : Record) : Bool :=
  !taken.contains (record.number, record.shape) || isRefused type record

/-- The listed numbers and shapes are those of some fields of a type. A repeated field of numbers is
listed with the shape of packed numbers too, and does not refuse any. -/
structure AreFields (type : String) (taken : List (Nat × Wire.Shape)) : Prop where
  listed : ∀ entry ∈ taken, ∃ field ∈ Standard.schema.fieldsOf type, field.number = entry.1 ∧
    (field.kind.shape = entry.2 ∨ field.isRepeated = true ∧ entry.2 = .bytes)
  packed : ∀ field ∈ Standard.schema.fieldsOf type, field.isRepeated = true →
    field.kind.shape = .bytes ∨ field.kind = .int32 ∧
      ((field.number, .varint) ∈ taken ↔ (field.number, .bytes) ∈ taken)

instance (type : String) (taken : List (Nat × Wire.Shape)) : Decidable (AreFields type taken) :=
  decidable_of_iff (_ ∧ _) ⟨fun h => ⟨h.1, h.2⟩, fun h => ⟨h.listed, h.packed⟩⟩

section

variable {type : String} {taken : List (Nat × Wire.Shape)}

/-- Taking a record apart does not move its pieces between the listed and the other records. -/
theorem isOther_piece (hfields : AreFields type taken) {record piece : Record}
    {pieces : List Record} (hpieces : Standard.schema.pieces? type record = some pieces)
    (hpiece : piece ∈ pieces) : isOther type taken piece = isOther type taken record := by
  rw [Schema.pieces?] at hpieces
  split at hpieces
  · next field hfield =>
    obtain ⟨hmem, hnumber⟩ := (Schema.field?_eq_some_iff Standard.regular).mp hfield
    obtain rfl | ⟨hrepeated, hbytes, hshape, -, hall⟩ := FieldSpec.unpack_cases hpieces
    · rw [List.mem_singleton.mp hpiece]
    · obtain ⟨hsame, hpacked⟩ := hall piece hpiece
      obtain hkind | ⟨hkind, htaken⟩ := hfields.packed field hmem hrepeated
      · exact absurd hkind hshape
      · rw [hnumber] at htaken
        simp [isOther, isRefused, hsame, hfield, hbytes, hpacked, hkind, Wire.Kind.shape,
          Wire.Kind.admits, htaken]
  · cases hpieces
    rw [List.mem_singleton.mp hpiece]

theorem isRefused_of_claims {record : Record} {field : FieldSpec}
    (hfield : field ∈ Standard.schema.fieldsOf type) (hclaims : field.claims record = true) :
    isRefused type record = false := by
  obtain ⟨hnumber, -, hadmits⟩ := FieldSpec.claims_iff.mp hclaims
  rw [isRefused, (Schema.field?_eq_some_iff Standard.regular).mpr ⟨hfield, hnumber.symm⟩]
  simp [hadmits]

theorem isOther_of_unclaimed (hfields : AreFields type taken) {record : Record}
    (hsettled : Standard.schema.IsSettled type record)
    (hunclaimed : ∀ field ∈ Standard.schema.fieldsOf type, field.claims record = false) :
    isOther type taken record = true := by
  rw [isOther, Bool.or_eq_true, Bool.not_eq_true', ← Bool.not_eq_true]
  refine Decidable.or_iff_not_imp_left.mpr fun hlisted => ?_
  have hlisted : (record.number, record.shape) ∈ taken := by simpa using hlisted
  obtain ⟨field, hfield, hnumber, hshape⟩ := hfields.listed _ hlisted
  have hfound := (Schema.field?_eq_some_iff Standard.regular).mpr ⟨hfield, hnumber⟩
  have hrefused : field.kind.shape = record.shape → isRefused type record = true := by
    intro hshape
    have hclaims := hunclaimed field hfield
    simp only [FieldSpec.claims, hnumber, hshape, beq_self_eq_true, Bool.true_and] at hclaims
    simp [isRefused, hfound, hshape, hclaims]
  rcases hshape with hshape | ⟨hrepeated, hbytes⟩
  · exact hrefused hshape
  · obtain hkind | ⟨hkind, -⟩ := hfields.packed field hfield hrepeated
    · exact hrefused (hkind.trans hbytes.symm)
    · -- packed numbers would have been taken apart
      rw [Schema.IsSettled, Schema.pieces?, hfound] at hsettled
      cases record with
      | bytes number content =>
        simp only [FieldSpec.unpack, hrepeated, hkind, Wire.Kind.shape, if_true] at hsettled
        obtain ⟨values, -, hvalues⟩ := Option.map_eq_some_iff.mp hsettled
        cases values <;> cases hvalues
      | _ => cases hbytes

theorem filter_isOther_normal (hfields : AreFields type taken) {depth : Nat}
    {records : List Record} (h : Intact depth type records) :
    (Standard.schema.normal depth type records).filter (isOther type taken) =
      Standard.schema.normal depth type (records.filter (isOther type taken)) := by
  obtain ⟨elements, hunpack, -⟩ := Schema.readable_iff.mp h.readable
  have hclaimed : ∀ field ∈ Standard.schema.fieldsOf type, ∀ record, field.claims record = true →
      isOther type taken record = !taken.contains (field.number, field.kind.shape) := by
    intro field hfield record hclaims
    obtain ⟨hnumber, hshape, -⟩ := FieldSpec.claims_iff.mp hclaims
    rw [isOther, isRefused_of_claims hfield hclaims, hnumber, hshape, Bool.or_false]
  exact Schema.filter_normal Standard.regular hunpack
    (fun record pieces hpieces piece => isOther_piece hfields hpieces) hclaimed
    fun record => isOther_of_unclaimed hfields

end

-- ---------------------------------------------------------------------------
-- Layouts
-- ---------------------------------------------------------------------------

open Standard

/-- Whether every number is a value of the kind. -/
def isOpen : Wire.Kind → Bool
  | .enum (some _) => false
  | _ => true

/-- The schema has the given fields in a type, and the listed numbers and shapes are those of fields
of the type. -/
structure Layout (type : String) (taken : List (Nat × Wire.Shape)) (specs : List FieldSpec) :
    Prop where
  fields : specs.Forall (· ∈ schema.fieldsOf type)
  areFields : AreFields type taken

structure OpenLayout (type : String) (taken : List (Nat × Wire.Shape))
    (specs : List FieldSpec) : Prop extends Layout type taken specs where
  opens : ∀ field ∈ schema.fieldsOf type, (field.number, field.kind.shape) ∈ taken →
    isOpen field.kind = true

instance (type : String) (taken : List (Nat × Wire.Shape)) (specs : List FieldSpec) :
    Decidable (Layout type taken specs) :=
  decidable_of_iff (_ ∧ _) ⟨fun h => ⟨h.1, h.2⟩, fun h => ⟨h.fields, h.areFields⟩⟩

instance (type : String) (taken : List (Nat × Wire.Shape)) (specs : List FieldSpec) :
    Decidable (OpenLayout type taken specs) :=
  decidable_of_iff (_ ∧ _) ⟨fun h => ⟨h.1, h.2⟩, fun h => ⟨h.toLayout, h.opens⟩⟩

/-- The layouts of all descriptors, each with its fields in the order in which it holds them. A
message that is not followed any deeper has a place for its name only. -/
structure Layouts : Prop where
  field : Layout fieldDescriptor Field.taken
    [⟨1, .string false, .optional⟩, ⟨2, .string false, .optional⟩, ⟨3, .int32, .optional⟩,
      ⟨4, .enum (some fieldLabel.numbers), .optional⟩,
      ⟨5, .enum (some fieldType.numbers), .optional⟩, ⟨6, .string false, .optional⟩,
      ⟨7, .string false, .optional⟩, ⟨8, .message fieldOptions, .optional⟩, ⟨9, .int32, .optional⟩,
      ⟨10, .string false, .optional⟩, ⟨17, .bool, .optional⟩]
  enumValue : OpenLayout enumValueDescriptor EnumValue.taken
    [⟨1, .string false, .optional⟩, ⟨2, .int32, .optional⟩,
      ⟨3, .message enumValueOptions, .optional⟩]
  reserved : OpenLayout reservedRange ReservedRange.taken
    [⟨1, .int32, .optional⟩, ⟨2, .int32, .optional⟩]
  enumReserved : OpenLayout enumReservedRange ReservedRange.taken
    [⟨1, .int32, .optional⟩, ⟨2, .int32, .optional⟩]
  enum : OpenLayout enumDescriptor Enum.taken
    [⟨1, .string false, .optional⟩, ⟨2, .message enumValueDescriptor, .repeated⟩,
      ⟨3, .message enumOptions, .optional⟩, ⟨4, .message enumReservedRange, .repeated⟩]
  extensionRange : OpenLayout extensionRange ExtensionRange.taken
    [⟨1, .int32, .optional⟩, ⟨2, .int32, .optional⟩,
      ⟨3, .message extensionRangeOptions, .optional⟩]
  oneof : OpenLayout oneofDescriptor Oneof.taken
    [⟨1, .string false, .optional⟩, ⟨2, .message oneofOptions, .optional⟩]
  messageName : OpenLayout messageDescriptor [(1, .bytes)] [⟨1, .string false, .optional⟩]
  message : OpenLayout messageDescriptor Message.taken
    [⟨1, .string false, .optional⟩, ⟨2, .message fieldDescriptor, .repeated⟩,
      ⟨6, .message fieldDescriptor, .repeated⟩, ⟨3, .message messageDescriptor, .repeated⟩,
      ⟨4, .message enumDescriptor, .repeated⟩, ⟨5, .message Standard.extensionRange, .repeated⟩,
      ⟨8, .message oneofDescriptor, .repeated⟩, ⟨7, .message messageOptions, .optional⟩,
      ⟨9, .message reservedRange, .repeated⟩]
  method : OpenLayout methodDescriptor Method.taken
    [⟨1, .string false, .optional⟩, ⟨2, .string false, .optional⟩, ⟨3, .string false, .optional⟩,
      ⟨4, .message methodOptions, .optional⟩]
  service : OpenLayout serviceDescriptor Service.taken
    [⟨1, .string false, .optional⟩, ⟨2, .message methodDescriptor, .repeated⟩,
      ⟨3, .message serviceOptions, .optional⟩]
  file : Layout fileDescriptor File.taken
    [⟨1, .string false, .optional⟩, ⟨2, .string false, .optional⟩, ⟨3, .string false, .repeated⟩,
      ⟨10, .int32, .repeated⟩, ⟨11, .int32, .repeated⟩,
      ⟨4, .message messageDescriptor, .repeated⟩, ⟨5, .message enumDescriptor, .repeated⟩,
      ⟨6, .message serviceDescriptor, .repeated⟩, ⟨7, .message fieldDescriptor, .repeated⟩,
      ⟨8, .message fileOptions, .optional⟩, ⟨12, .string false, .optional⟩,
      ⟨14, .enum (some edition.numbers), .optional⟩]
  request : OpenLayout generatorRequest Request.taken
    [⟨1, .string false, .repeated⟩, ⟨2, .string false, .optional⟩,
      ⟨15, .message fileDescriptor, .repeated⟩]

theorem layouts : Layouts := by
  constructor <;> decide +kernel

theorem ReservedRange.layout {type : String}
    (htype : type = reservedRange ∨ type = enumReservedRange) :
    OpenLayout type taken [⟨1, .int32, .optional⟩, ⟨2, .int32, .optional⟩] := by
  rcases htype with rfl | rfl
  · exact layouts.reserved
  · exact layouts.enumReserved

-- ---------------------------------------------------------------------------
-- Codes
-- ---------------------------------------------------------------------------

theorem contains_toInt32 (numbers : List Int32) (code : UInt32) :
    numbers.contains code.toInt32 =
      (numbers.map fun number => number.toUInt32.toNat).contains code.toNat := by
  induction numbers with
  | nil => rfl
  | cons number more ih =>
    have hsame : (code.toInt32 == number) = (code.toNat == number.toUInt32.toNat) := by
      rw [Bool.eq_iff_iff, beq_iff_eq, beq_iff_eq, UInt32.toNat_inj]
      constructor
      · intro h
        rw [← h, UInt32.toUInt32_toInt32]
      · intro h
        rw [h, Int32.toInt32_toUInt32]
    simp only [List.contains_cons, List.map_cons, hsame, ih]

theorem isSome_eq_contains {α : Type} {ofCode? : Nat → Option α} {numbers : List Int32}
    (codes : List Nat) (hcodes : (numbers.map fun number => number.toUInt32.toNat) = codes)
    (h : ∀ code, (ofCode? code).isSome = codes.contains code) (code : UInt32) :
    (ofCode? code.toNat).isSome = numbers.contains code.toInt32 := by
  rw [contains_toInt32, hcodes, h]

theorem label_codes (code : UInt32) :
    (Label.ofCode? code.toNat).isSome = fieldLabel.numbers.contains code.toInt32 := by
  refine isSome_eq_contains [1, 3, 2] rfl (fun code => ?_) code
  unfold Label.ofCode?
  split <;> simp_all

theorem fieldType_codes (code : UInt32) :
    (FieldType.ofCode? code.toNat).isSome = fieldType.numbers.contains code.toInt32 := by
  refine isSome_eq_contains
    [1, 2, 3, 4, 5, 6, 7, 8, 9, 10, 11, 12, 13, 14, 15, 16, 17, 18] rfl
    (fun code => ?_) code
  rw [Bool.eq_iff_iff, FieldType.ofCode?]
  by_cases hzero : code = 0
  · simp [hzero]
  · simp [hzero, FieldType.all]
    omega

theorem edition_codes (code : UInt32) :
    (Edition.ofCode? code.toNat).isSome = edition.numbers.contains code.toInt32 := by
  refine isSome_eq_contains
    [0, 900, 998, 999, 1000, 1001, 1002, 9999, 1, 2, 99997, 99998, 99999, 2147483647]
    rfl (fun code => ?_) code
  rw [Bool.eq_iff_iff, Edition.ofCode?, List.find?_isSome]
  simp only [Edition.all, List.mem_cons, List.not_mem_nil, or_false, exists_eq_or_imp,
    exists_eq_left, Edition.code, beq_iff_eq, List.contains_eq_mem, decide_eq_true_eq]
  omega

-- ---------------------------------------------------------------------------
-- Refused values
-- ---------------------------------------------------------------------------

section

variable {type : String} {number : Nat}

theorem admits_of_isOpen {kind : Wire.Kind} (h : isOpen kind = true) (record : Record) :
    kind.admits record = true := by
  unfold Wire.Kind.admits
  split
  · cases h
  · rfl

theorem isRefused_eq_false {record : Record}
    (h : ∀ field ∈ schema.fieldsOf type, field.number = record.number →
      record.shape = field.kind.shape → isOpen field.kind = true) :
    isRefused type record = false := by
  rw [isRefused]
  cases hfield : schema.field? type record.number with
  | none => rfl
  | some field =>
    obtain ⟨hmem, hnumber⟩ := (Wire.Schema.field?_eq_some_iff regular).mp hfield
    by_cases hshape : record.shape = field.kind.shape
    · simp [admits_of_isOpen (h field hmem hnumber hshape)]
    · simp [hshape]

theorem isRefused_varint {numbers : List Int32} {cardinality : Wire.Cardinality}
    (hfield : ⟨number, .enum (some numbers), cardinality⟩ ∈ schema.fieldsOf type) (value : UInt64) :
    isRefused type (.varint number value) = !numbers.contains value.toUInt32.toInt32 := by
  have hfound : schema.field? type (Record.varint number value).number = some _ :=
    (Wire.Schema.field?_eq_some_iff regular).mpr ⟨hfield, rfl⟩
  simp [isRefused, hfound, Wire.Kind.shape, Record.shape, Wire.Kind.admits]

/-- Only varints are refused, and only under the numbers of closed enums. -/
theorem isRefused_eq_false_of_ne {numbers : List Nat}
    (hclosed : ∀ field ∈ schema.fieldsOf type, isOpen field.kind = false →
      field.kind.shape = .varint ∧ field.number ∈ numbers) {record : Record}
    (h : ∀ number ∈ numbers, ∀ value, record ≠ .varint number value) :
    isRefused type record = false := by
  refine isRefused_eq_false fun field hfield hnumber hshape => ?_
  rw [← Bool.not_eq_false]
  intro hopen
  obtain ⟨hvarint, hlisted⟩ := hclosed field hfield hopen
  rw [hvarint] at hshape
  cases record with
  | varint number value => exact h field.number hlisted value (by rw [hnumber]; rfl)
  | _ => cases hshape

theorem others_eq {taken : List (Nat × Wire.Shape)}
    (hopen : ∀ field ∈ schema.fieldsOf type, (field.number, field.kind.shape) ∈ taken →
      isOpen field.kind = true) (records : List Record) :
    others taken records = records.filter (isOther type taken) := by
  refine List.filter_congr fun record _ => ?_
  rw [isOther]
  cases hlisted : taken.contains (record.number, record.shape) with
  | false => rfl
  | true =>
    rw [isRefused_eq_false fun field hfield hnumber hshape => hopen field hfield ?_]
    · rfl
    · rw [hnumber, ← hshape]
      exact List.contains_iff_mem.mp hlisted

end

theorem Field.isOther_eq : isOther fieldDescriptor taken = fun record =>
    !taken.contains (record.number, record.shape) || hasUnlistedCode record := by
  have hclosed : ∀ field ∈ schema.fieldsOf fieldDescriptor, isOpen field.kind = false →
      field.kind.shape = .varint ∧ field.number ∈ [4, 5] := by decide +kernel
  obtain ⟨-, -, -, hlabel, htype, -⟩ := layouts.field.fields
  funext record
  suffices hsame : isRefused fieldDescriptor record = hasUnlistedCode record by
    rw [isOther, hsame]
  unfold hasUnlistedCode
  split
  · rw [isRefused_varint hlabel, ← label_codes, Option.not_isSome]
  · rw [isRefused_varint htype, ← fieldType_codes, Option.not_isSome]
  · next hne hne' => exact isRefused_eq_false_of_ne hclosed (by simpa using ⟨hne, hne'⟩)

theorem File.isOther_eq : isOther fileDescriptor taken = fun record =>
    !taken.contains (record.number, record.shape) || hasUnlistedEdition record := by
  have hclosed : ∀ field ∈ schema.fieldsOf fileDescriptor, isOpen field.kind = false →
      field.kind.shape = .varint ∧ field.number ∈ [14] := by decide +kernel
  obtain ⟨-, -, -, -, -, -, -, -, -, -, -, hedition⟩ := layouts.file.fields
  funext record
  suffices hsame : isRefused fileDescriptor record = hasUnlistedEdition record by
    rw [isOther, hsame]
  unfold hasUnlistedEdition
  split
  · rw [isRefused_varint hedition, ← edition_codes, Option.not_isSome]
  · next hne => exact isRefused_eq_false_of_ne hclosed (by simpa using hne)

end SchemaGen.Descriptor
