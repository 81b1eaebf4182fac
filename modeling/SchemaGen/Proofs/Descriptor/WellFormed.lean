import SchemaGen.Proofs.Descriptor.Canonical
import SchemaGen.Proofs.Wire.Replacement

/-!
# Well-formed descriptors

A descriptor is well formed at a depth when its messages nest at most that deep, its options and its
other records can be read, and those other records are not of the numbers that its parts take. A
well-formed descriptor is read back from its records (`Request.ofRecords_toRecords`), and with its
options rewritten it has records that are alike (`File.replaces`).
-/

namespace SchemaGen.Wire.Record

instance (depth : Nat) (record : Record) : Decidable (record.Tidy depth) :=
  decidable_of_iff ((∀ token ∈ record.tokens, 0 < token.number ∧ token.number ≤ Token.maxNumber) ∧
      record.height ≤ depth)
    ⟨fun h => ⟨h.1, h.2⟩, fun h => ⟨h.numbers, h.height⟩⟩

end SchemaGen.Wire.Record

namespace SchemaGen.Descriptor

open Wire (Record Shape)
open Standard

-- ---------------------------------------------------------------------------
-- What is kept as records
-- ---------------------------------------------------------------------------

/-- Records that can be written, and read as a message of a type. -/
structure Legible (type : String) (depth : Nat) (records : List Record) : Prop where
  tidy : ∀ record ∈ records, record.Tidy depth
  readable : schema.readable depth type records = true

instance (type : String) (depth : Nat) (records : List Record) :
    Decidable (Legible type depth records) :=
  decidable_of_iff (_ ∧ _) ⟨fun h => ⟨h.1, h.2⟩, fun h => ⟨h.tidy, h.readable⟩⟩

def Options.WellFormed (type : String) (depth : Nat) (options : Options) : Prop :=
  ∀ records ∈ options.toList, 0 < depth ∧ Legible type (depth - 1) records

instance (type : String) (depth : Nat) (options : Options) :
    Decidable (options.WellFormed type depth) :=
  inferInstanceAs (Decidable (∀ records ∈ options.toList, _))

structure IsRest (type : String) (taken : List (Nat × Shape)) (depth : Nat)
    (rest : List Record) : Prop extends Legible type depth rest where
  other : ∀ record ∈ rest, isOther type taken record = true

instance (type : String) (taken : List (Nat × Shape)) (depth : Nat) (rest : List Record) :
    Decidable (IsRest type taken depth rest) :=
  decidable_of_iff (Legible type depth rest ∧ _)
    ⟨fun h => ⟨h.1, h.2⟩, fun h => ⟨h.toLegible, h.other⟩⟩

structure Keeps (type : String) (taken : List (Nat × Shape)) (optionsType : String) (depth : Nat)
    (options : Options) (rest : List Record) : Prop where
  options : options.WellFormed optionsType depth
  rest : IsRest type taken depth rest

instance (type : String) (taken : List (Nat × Shape)) (optionsType : String) (depth : Nat)
    (options : Options) (rest : List Record) :
    Decidable (Keeps type taken optionsType depth options rest) :=
  decidable_of_iff (_ ∧ _) ⟨fun h => ⟨h.1, h.2⟩, fun h => ⟨h.options, h.rest⟩⟩

-- ---------------------------------------------------------------------------
-- Descriptors
-- ---------------------------------------------------------------------------

def Field.WellFormed (depth : Nat) (field : Field) : Prop :=
  Keeps fieldDescriptor Field.taken fieldOptions depth field.options field.rest

instance (depth : Nat) (field : Field) : Decidable (field.WellFormed depth) :=
  inferInstanceAs (Decidable (Keeps ..))

def EnumValue.WellFormed (depth : Nat) (value : EnumValue) : Prop :=
  Keeps enumValueDescriptor EnumValue.taken enumValueOptions depth value.options value.rest

instance (depth : Nat) (value : EnumValue) : Decidable (value.WellFormed depth) :=
  inferInstanceAs (Decidable (Keeps ..))

def ExtensionRange.WellFormed (depth : Nat) (range : ExtensionRange) : Prop :=
  Keeps extensionRange ExtensionRange.taken extensionRangeOptions depth range.options range.rest

instance (depth : Nat) (range : ExtensionRange) : Decidable (range.WellFormed depth) :=
  inferInstanceAs (Decidable (Keeps ..))

def Oneof.WellFormed (depth : Nat) (oneof : Oneof) : Prop :=
  Keeps oneofDescriptor Oneof.taken oneofOptions depth oneof.options oneof.rest

instance (depth : Nat) (oneof : Oneof) : Decidable (oneof.WellFormed depth) :=
  inferInstanceAs (Decidable (Keeps ..))

def Method.WellFormed (depth : Nat) (method : Method) : Prop :=
  Keeps methodDescriptor Method.taken methodOptions depth method.options method.rest

instance (depth : Nat) (method : Method) : Decidable (method.WellFormed depth) :=
  inferInstanceAs (Decidable (Keeps ..))

def ReservedRange.WellFormed (type : String) (depth : Nat) (range : ReservedRange) : Prop :=
  IsRest type ReservedRange.taken depth range.rest

instance (type : String) (depth : Nat) (range : ReservedRange) :
    Decidable (range.WellFormed type depth) :=
  inferInstanceAs (Decidable (IsRest ..))

structure Enum.WellFormed (depth : Nat) (enum : Enum) : Prop where
  values : ∀ value ∈ enum.values, 0 < depth ∧ value.WellFormed (depth - 1)
  reserved : ∀ range ∈ enum.reserved, 0 < depth ∧ range.WellFormed enumReservedRange (depth - 1)
  keeps : Keeps enumDescriptor Enum.taken enumOptions depth enum.options enum.rest

instance (depth : Nat) (enum : Enum) : Decidable (enum.WellFormed depth) :=
  decidable_of_iff (_ ∧ _ ∧ _) ⟨fun h => ⟨h.1, h.2.1, h.2.2⟩,
    fun h => ⟨h.values, h.reserved, h.keeps⟩⟩

namespace Message

/-- One level of a well-formed message, given what the messages nested in it have to satisfy. -/
structure Layer (inner : Message → Prop) (depth : Nat) (message : Message) : Prop where
  fields : ∀ field ∈ message.fields, 0 < depth ∧ field.WellFormed (depth - 1)
  extensions : ∀ field ∈ message.extensions, 0 < depth ∧ field.WellFormed (depth - 1)
  nested : ∀ nested ∈ message.nested, 0 < depth ∧ inner nested
  enums : ∀ enum ∈ message.enums, 0 < depth ∧ enum.WellFormed (depth - 1)
  ranges : ∀ range ∈ message.ranges, 0 < depth ∧ range.WellFormed (depth - 1)
  oneofs : ∀ oneof ∈ message.oneofs, 0 < depth ∧ oneof.WellFormed (depth - 1)
  reserved : ∀ range ∈ message.reserved, 0 < depth ∧ range.WellFormed reservedRange (depth - 1)
  keeps : Keeps messageDescriptor taken messageOptions depth message.options message.rest

instance (inner : Message → Prop) [DecidablePred inner] (depth : Nat) (message : Message) :
    Decidable (message.Layer inner depth) :=
  decidable_of_iff (_ ∧ _ ∧ _ ∧ _ ∧ _ ∧ _ ∧ _ ∧ _)
    ⟨fun h => ⟨h.1, h.2.1, h.2.2.1, h.2.2.2.1, h.2.2.2.2.1, h.2.2.2.2.2.1, h.2.2.2.2.2.2.1,
        h.2.2.2.2.2.2.2⟩,
      fun h => ⟨h.fields, h.extensions, h.nested, h.enums, h.ranges, h.oneofs, h.reserved,
        h.keeps⟩⟩

def WellFormed : (depth : Nat) → Message → Prop
  | 0, message => message.Layer (fun _ => False) 0
  | depth + 1, message => message.Layer (WellFormed depth) (depth + 1)

instance decidableWellFormed : (depth : Nat) → DecidablePred (WellFormed depth)
  | 0 => fun message => inferInstanceAs (Decidable (message.Layer (fun _ => False) 0))
  | depth + 1 => fun message =>
    have := decidableWellFormed depth
    inferInstanceAs (Decidable (message.Layer (WellFormed depth) (depth + 1)))

end Message

structure Service.WellFormed (depth : Nat) (service : Service) : Prop where
  methods : ∀ method ∈ service.methods, 0 < depth ∧ method.WellFormed (depth - 1)
  keeps : Keeps serviceDescriptor Service.taken serviceOptions depth service.options service.rest

instance (depth : Nat) (service : Service) : Decidable (service.WellFormed depth) :=
  decidable_of_iff (_ ∧ _) ⟨fun h => ⟨h.1, h.2⟩, fun h => ⟨h.methods, h.keeps⟩⟩

structure File.WellFormed (depth : Nat) (file : File) : Prop where
  messages : ∀ message ∈ file.messages, 0 < depth ∧ message.WellFormed (depth - 1)
  enums : ∀ enum ∈ file.enums, 0 < depth ∧ enum.WellFormed (depth - 1)
  services : ∀ service ∈ file.services, 0 < depth ∧ service.WellFormed (depth - 1)
  extensions : ∀ field ∈ file.extensions, 0 < depth ∧ field.WellFormed (depth - 1)
  keeps : Keeps fileDescriptor File.taken fileOptions depth file.options file.rest

instance (depth : Nat) (file : File) : Decidable (file.WellFormed depth) :=
  decidable_of_iff (_ ∧ _ ∧ _ ∧ _ ∧ _)
    ⟨fun h => ⟨h.1, h.2.1, h.2.2.1, h.2.2.2.1, h.2.2.2.2⟩,
      fun h => ⟨h.messages, h.enums, h.services, h.extensions, h.keeps⟩⟩

structure Request.WellFormed (depth : Nat) (request : Request) : Prop where
  files : ∀ file ∈ request.files, 0 < depth ∧ file.WellFormed (depth - 1)
  rest : IsRest generatorRequest Request.taken depth request.rest

instance (depth : Nat) (request : Request) : Decidable (request.WellFormed depth) :=
  decidable_of_iff (_ ∧ _) ⟨fun h => ⟨h.1, h.2⟩, fun h => ⟨h.files, h.rest⟩⟩

-- ---------------------------------------------------------------------------
-- Replacing parts
-- ---------------------------------------------------------------------------

section

variable {revision : Revision} {top depth number : Nat} {type inner : String}

theorem Legible.replaces (hrevision : Normalizes revision top) {records : List Record}
    (h : Legible type depth records) (htop : depth ≤ top) {owned : List (Nat × Shape)}
    (howns : ∀ field ∈ schema.fieldsOf type, (field.number, field.kind.shape) ∉ owned →
      schema.values type field records = []) :
    schema.Replaces depth type owned (revision type records) records := by
  obtain ⟨elements, hunpack, -⟩ := Wire.Schema.readable_iff.mp h.readable
  refine ⟨h.tidy, ⟨elements, hunpack⟩, howns, fun _ => h.readable, fun _ hshort => ?_⟩
  rw [hrevision depth htop type records ⟨h.readable, hshort⟩]
  exact ⟨.normal regular h.readable hshort, Wire.Schema.tidy_normal regular hunpack h.tidy, rfl⟩

def foreign (type : String) (taken : List (Nat × Shape)) : List (Nat × Shape) :=
  ((schema.fieldsOf type).map fun field => (field.number, field.kind.shape)).filter
    (!taken.contains ·)

theorem notMem_foreign {taken owned : List (Nat × Shape)} (h : ∀ entry ∈ owned, entry ∈ taken) :
    ∀ entry ∈ owned, entry ∉ foreign type taken := by
  intro entry howned hforeign
  simpa [h entry howned] using (List.mem_filter.mp hforeign).2

theorem IsRest.replaces (hrevision : Normalizes revision top) {taken : List (Nat × Shape)}
    {rest : List Record} (h : IsRest type taken depth rest) (htop : depth ≤ top)
    (hfields : AreFields type taken) :
    schema.Replaces depth type (foreign type taken) (revision type rest) rest := by
  refine h.toLegible.replaces hrevision htop fun field hfield hnot => ?_
  have hlisted : (field.number, field.kind.shape) ∈ taken := by
    by_contra hunlisted
    refine hnot (List.mem_filter.mpr ⟨List.mem_map_of_mem hfield, ?_⟩)
    simpa using hunlisted
  obtain ⟨elements, hunpack, -⟩ := Wire.Schema.readable_iff.mp h.readable
  rw [Wire.Schema.values, Wire.Schema.elements_of_unpack hunpack, List.filter_eq_nil_iff]
  intro element helement hclaims
  -- a value of a listed field comes from a record that is listed
  obtain ⟨record, hrecord, pieces, hpieces, hpiece⟩ :=
    Wire.Schema.mem_of_unpack regular hunpack helement
  have hother := isOther_piece hfields hpieces hpiece
  rw [h.other record hrecord, isOther, isRefused_of_claims hfield hclaims] at hother
  obtain ⟨hnumber, hshape, -⟩ := Wire.FieldSpec.claims_iff.mp hclaims
  simp [hnumber, hshape, hlisted] at hother

theorem replaces_texts {cardinality : Wire.Cardinality}
    (hfield : ⟨number, .string false, cardinality⟩ ∈ schema.fieldsOf type) {texts : List String}
    (hcount : cardinality = .repeated ∨ texts.length ≤ 1) :
    schema.Replaces depth type [(number, .bytes)] (texts.map (textRecord number))
      (texts.map (textRecord number)) := by
  refine .scalars regular hfield rfl ?_ ?_ ?_ ?_
  · simp [textRecord, Wire.FieldSpec.claims, Record.number, Record.shape, Wire.Kind.shape,
      Wire.Kind.admits]
  · simp [textRecord, Wire.Kind.canonical]
  · simp [textRecord, Wire.Kind.accepts]
  · simpa [Wire.FieldSpec.isRepeated] using hcount

theorem replaces_text? (hfield : ⟨number, .string false, .optional⟩ ∈ schema.fieldsOf type)
    (text : Option String) :
    schema.Replaces depth type [(number, .bytes)] (textRecord? number text)
      (textRecord? number text) :=
  replaces_texts hfield (.inr (by cases text <;> simp))

theorem replaces_varints {α : Type} {kind : Wire.Kind} {cardinality : Wire.Cardinality}
    (hfield : ⟨number, kind, cardinality⟩ ∈ schema.fieldsOf type) (hshape : kind.shape = .varint)
    {items : List α} {bits : α → UInt64} (hcount : cardinality = .repeated ∨ items.length ≤ 1)
    (hadmits : ∀ item ∈ items, kind.admits (.varint number (bits item)) = true)
    (hbits : ∀ item ∈ items, Wire.Schema.canonicalBits kind (bits item) = bits item) :
    schema.Replaces depth type [(number, .varint)]
      (items.map fun item => .varint number (bits item))
      (items.map fun item => .varint number (bits item)) := by
  rw [← hshape]
  refine .scalars regular hfield (Wire.Schema.messageType?_of_varint hshape) ?_ ?_ ?_ ?_
  · simpa [Wire.FieldSpec.claims, Record.number, Record.shape, hshape] using hadmits
  · simpa [Wire.Schema.canonical_varint] using hbits
  · rintro value hvalue
    obtain ⟨item, -, rfl⟩ := List.mem_map.mp hvalue
    unfold Wire.Kind.accepts
    split <;> simp_all
  · simpa [Wire.FieldSpec.isRepeated] using hcount

theorem replaces_number? (hfield : ⟨number, .int32, .optional⟩ ∈ schema.fieldsOf type)
    (value : Option Int32) :
    schema.Replaces depth type [(number, .varint)] (numberRecord? number value)
      (numberRecord? number value) :=
  replaces_varints hfield rfl (.inr (by cases value <;> simp)) (fun _ _ => rfl) fun value _ => by
    simp only [Wire.Schema.canonicalBits, Wire.toInt32_signExtended]

theorem flatMap_numberRecord? (number : Nat) (values : List Int32) :
    (values.flatMap fun value => numberRecord? number (some value)) =
      values.map fun value => .varint number value.toInt64.toUInt64 := List.map_eq_flatMap.symm

theorem replaces_numbers (hfield : ⟨number, .int32, .repeated⟩ ∈ schema.fieldsOf type)
    (values : List Int32) :
    schema.Replaces depth type [(number, .varint)]
      (values.flatMap fun value => numberRecord? number (some value))
      (values.flatMap fun value => numberRecord? number (some value)) := by
  rw [flatMap_numberRecord?]
  exact replaces_varints hfield rfl (.inl rfl) (fun _ _ => rfl) fun value _ => by
    simp only [Wire.Schema.canonicalBits, Wire.toInt32_signExtended]

theorem replaces_flag? (hfield : ⟨number, .bool, .optional⟩ ∈ schema.fieldsOf type)
    (flag : Option Bool) :
    schema.Replaces depth type [(number, .varint)] (flagRecord? number flag)
      (flagRecord? number flag) :=
  replaces_varints hfield rfl (.inr (by cases flag <;> simp)) (fun _ _ => rfl) fun flag _ => by
    cases flag <;> rfl

theorem replaces_code? {α : Type} {numbers : List Int32} {code : α → Nat}
    (hfield : ⟨number, .enum (some numbers), .optional⟩ ∈ schema.fieldsOf type)
    (hcodes : ∀ item, numbers.contains (UInt64.ofNat (code item)).toUInt32.toInt32 = true ∧
      (UInt64.ofNat (code item)).toUInt32.toInt32.toInt64.toUInt64 = UInt64.ofNat (code item))
    (item : Option α) :
    schema.Replaces depth type [(number, .varint)] (codeRecord? number (item.map code))
      (codeRecord? number (item.map code)) := by
  have hmap : codeRecord? number (item.map code) =
      item.toList.map fun item => .varint number (UInt64.ofNat (code item)) := by
    cases item <;> rfl
  rw [hmap]
  exact replaces_varints hfield rfl (.inr (by cases item <;> simp))
    (fun item _ => (hcodes item).1) fun item _ => (hcodes item).2

theorem replaces_options? (hrevision : Normalizes revision top)
    (hfield : ⟨number, .message inner, .optional⟩ ∈ schema.fieldsOf type) {options : Options}
    (h : options.WellFormed inner depth) (htop : depth ≤ top) :
    schema.Replaces depth type [(number, .bytes)]
      (optionsRecord? number (options.map (revision inner))) (optionsRecord? number options) := by
  have hmap : optionsRecord? number (options.map (revision inner)) =
      Wire.Schema.messageRecords number options.toList (revision inner) := by
    cases options <;> rfl
  rw [hmap]
  refine .messages regular hfield (.inr (by cases options <;> simp)) fun records hrecords => ?_
  obtain ⟨hpositive, hlegible⟩ := h records hrecords
  refine ⟨hpositive, (schema.fieldsOf inner).map fun field => (field.number, field.kind.shape), ?_⟩
  refine hlegible.replaces hrevision (by omega) fun field hfield hnot => ?_
  exact absurd (List.mem_map_of_mem hfield) hnot

theorem replaces_messages {α : Type}
    (hfield : ⟨number, .message inner, .repeated⟩ ∈ schema.fieldsOf type) {items : List α}
    {write : α → List Record} {rewrite : α → α} {sound : α → Prop}
    (hitems : ∀ item ∈ items, 0 < depth ∧ sound item)
    (hreplaces : ∀ item, sound item → ∃ owned,
      schema.Replaces (depth - 1) inner owned (write (rewrite item)) (write item)) :
    schema.Replaces depth type [(number, .bytes)]
      ((items.map rewrite).map fun item => messageRecord number (write item))
      (items.map fun item => messageRecord number (write item)) := by
  rw [List.map_map]
  refine .messages regular hfield (.inl rfl) fun item hitem => ?_
  exact ⟨(hitems item hitem).1, hreplaces item (hitems item hitem).2⟩

end

-- ---------------------------------------------------------------------------
-- Replacing descriptors
-- ---------------------------------------------------------------------------

section

variable {revision : Revision} {top depth : Nat}

theorem label_listed (label : Label) :
    fieldLabel.numbers.contains (UInt64.ofNat label.code).toUInt32.toInt32 = true ∧
      (UInt64.ofNat label.code).toUInt32.toInt32.toInt64.toUInt64 = UInt64.ofNat label.code := by
  cases label <;> decide

theorem fieldType_listed (type : FieldType) :
    fieldType.numbers.contains (UInt64.ofNat type.code).toUInt32.toInt32 = true ∧
      (UInt64.ofNat type.code).toUInt32.toInt32.toInt64.toUInt64 = UInt64.ofNat type.code := by
  cases type <;> decide

theorem edition_listed (value : Edition) :
    edition.numbers.contains (UInt64.ofNat value.code).toUInt32.toInt32 = true ∧
      (UInt64.ofNat value.code).toUInt32.toInt32.toInt64.toUInt64 = UInt64.ofNat value.code := by
  cases value <;> decide

theorem Field.replaces (hrevision : Normalizes revision top) {field : Field}
    (h : field.WellFormed depth) (htop : depth ≤ top) : ∃ owned,
      schema.Replaces depth fieldDescriptor owned (field.revise revision).toRecords
        field.toRecords := by
  obtain ⟨hname, hextendee, hnumber, hlabel, htype, htypeName, hdefault, hoptions, hindex, hjson,
    htracked⟩ := layouts.field.fields
  exact ⟨_, replaces_text? hname _
    |>.append regular (replaces_text? hextendee _) (by decide)
    |>.append regular (replaces_number? hnumber _) (by decide)
    |>.append regular (replaces_code? hlabel label_listed _) (by decide)
    |>.append regular (replaces_code? htype fieldType_listed _) (by decide)
    |>.append regular (replaces_text? htypeName _) (by decide)
    |>.append regular (replaces_text? hdefault _) (by decide)
    |>.append regular (replaces_options? hrevision hoptions h.options htop) (by decide)
    |>.append regular (replaces_number? hindex _) (by decide)
    |>.append regular (replaces_text? hjson _) (by decide)
    |>.append regular (replaces_flag? htracked _) (by decide)
    |>.append regular (h.rest.replaces hrevision htop layouts.field.areFields)
      (notMem_foreign (by decide))⟩

theorem EnumValue.replaces (hrevision : Normalizes revision top) {value : EnumValue}
    (h : value.WellFormed depth) (htop : depth ≤ top) : ∃ owned,
      schema.Replaces depth enumValueDescriptor owned (value.revise revision).toRecords
        value.toRecords := by
  obtain ⟨hname, hnumber, hoptions⟩ := layouts.enumValue.fields
  exact ⟨_, replaces_text? hname _
    |>.append regular (replaces_number? hnumber _) (by decide)
    |>.append regular (replaces_options? hrevision hoptions h.options htop) (by decide)
    |>.append regular (h.rest.replaces hrevision htop layouts.enumValue.areFields)
      (notMem_foreign (by decide))⟩

theorem ReservedRange.replaces (hrevision : Normalizes revision top) {type : String}
    (htype : type = reservedRange ∨ type = enumReservedRange) {range : ReservedRange}
    (h : range.WellFormed type depth) (htop : depth ≤ top) : ∃ owned,
      schema.Replaces depth type owned (range.revise revision type).toRecords range.toRecords := by
  obtain ⟨hstart, hstop⟩ := (layout htype).fields
  exact ⟨_, replaces_number? hstart _
    |>.append regular (replaces_number? hstop _) (by decide)
    |>.append regular (IsRest.replaces hrevision h htop (layout htype).areFields)
      (notMem_foreign (by decide))⟩

theorem Enum.replaces (hrevision : Normalizes revision top) {enum : Enum}
    (h : enum.WellFormed depth) (htop : depth ≤ top) : ∃ owned,
      schema.Replaces depth enumDescriptor owned (enum.revise revision).toRecords
        enum.toRecords := by
  obtain ⟨hname, hvalues, hoptions, hreserved⟩ := layouts.enum.fields
  exact ⟨_, replaces_text? hname _
    |>.append regular (replaces_messages hvalues h.values fun _ hvalue =>
      EnumValue.replaces hrevision hvalue (by omega)) (by decide)
    |>.append regular (replaces_options? hrevision hoptions h.keeps.options htop)
      (by decide)
    |>.append regular (replaces_messages hreserved h.reserved fun _ hrange =>
      ReservedRange.replaces hrevision (.inr rfl) hrange (by omega)) (by decide)
    |>.append regular (h.keeps.rest.replaces hrevision htop layouts.enum.areFields)
      (notMem_foreign (by decide))⟩

theorem ExtensionRange.replaces (hrevision : Normalizes revision top) {range : ExtensionRange}
    (h : range.WellFormed depth) (htop : depth ≤ top) : ∃ owned,
      schema.Replaces depth extensionRange owned (range.revise revision).toRecords
        range.toRecords := by
  obtain ⟨hstart, hstop, hoptions⟩ := layouts.extensionRange.fields
  exact ⟨_, replaces_number? hstart _
    |>.append regular (replaces_number? hstop _) (by decide)
    |>.append regular (replaces_options? hrevision hoptions h.options htop) (by decide)
    |>.append regular (h.rest.replaces hrevision htop layouts.extensionRange.areFields)
      (notMem_foreign (by decide))⟩

theorem Oneof.replaces (hrevision : Normalizes revision top) {oneof : Oneof}
    (h : oneof.WellFormed depth) (htop : depth ≤ top) : ∃ owned,
      schema.Replaces depth oneofDescriptor owned (oneof.revise revision).toRecords
        oneof.toRecords := by
  obtain ⟨hname, hoptions⟩ := layouts.oneof.fields
  exact ⟨_, replaces_text? hname _
    |>.append regular (replaces_options? hrevision hoptions h.options htop) (by decide)
    |>.append regular (h.rest.replaces hrevision htop layouts.oneof.areFields)
      (notMem_foreign (by decide))⟩

namespace Message

theorem nestedRecords_eq (messages : List Message) :
    nestedRecords messages = messages.map fun message => messageRecord 3 message.toRecords := by
  induction messages with
  | nil => rfl
  | cons message more ih => rw [nestedRecords, ih, List.map_cons]

theorem toRecords_eq (message : Message) :
    message.toRecords = textRecord? 1 message.name ++
      message.fields.map (fun field => messageRecord 2 field.toRecords) ++
      message.nested.map (fun nested => messageRecord 3 nested.toRecords) ++
      message.enums.map (fun enum => messageRecord 4 enum.toRecords) ++
      message.ranges.map (fun range => messageRecord 5 range.toRecords) ++
      message.extensions.map (fun field => messageRecord 6 field.toRecords) ++
      optionsRecord? 7 message.options ++
      message.oneofs.map (fun oneof => messageRecord 8 oneof.toRecords) ++
      message.reserved.map (fun range => messageRecord 9 range.toRecords) ++ message.rest := by
  cases message
  rw [toRecords, nestedRecords_eq]

theorem revise_eq (revision : Revision) (message : Message) :
    message.revise revision =
      { message with
        fields := message.fields.map (·.revise revision)
        extensions := message.extensions.map (·.revise revision)
        nested := message.nested.map (revise revision)
        enums := message.enums.map (·.revise revision)
        ranges := message.ranges.map (·.revise revision)
        oneofs := message.oneofs.map (·.revise revision)
        options := message.options.map (revision messageOptions)
        reserved := message.reserved.map (·.revise revision reservedRange)
        rest := revision messageDescriptor message.rest } := by
  cases message
  rw [revise, reviseAll_eq]

theorem Layer.replaces (hrevision : Normalizes revision top) {inner : Message → Prop}
    {message : Message} (h : message.Layer inner depth) (htop : depth ≤ top)
    (hinner : ∀ nested, inner nested → ∃ owned, schema.Replaces (depth - 1) messageDescriptor owned
      (nested.revise revision).toRecords nested.toRecords) :
    ∃ owned, schema.Replaces depth messageDescriptor owned (message.revise revision).toRecords
      message.toRecords := by
  rw [toRecords_eq, toRecords_eq, revise_eq]
  obtain ⟨hname, hfields, hextensions, hnested, henums, hranges, honeofs, hoptions, hreserved⟩ :=
    layouts.message.fields
  exact ⟨_, replaces_text? hname _
    |>.append regular (replaces_messages hfields h.fields fun _ hfield =>
      Field.replaces hrevision hfield (by omega)) (by decide)
    |>.append regular (replaces_messages hnested h.nested hinner) (by decide)
    |>.append regular (replaces_messages henums h.enums fun _ henum =>
      Enum.replaces hrevision henum (by omega)) (by decide)
    |>.append regular (replaces_messages hranges h.ranges fun _ hrange =>
      ExtensionRange.replaces hrevision hrange (by omega)) (by decide)
    |>.append regular (replaces_messages hextensions h.extensions fun _ hfield =>
      Field.replaces hrevision hfield (by omega)) (by decide)
    |>.append regular (replaces_options? hrevision hoptions h.keeps.options htop)
      (by decide)
    |>.append regular (replaces_messages honeofs h.oneofs fun _ honeof =>
      Oneof.replaces hrevision honeof (by omega)) (by decide)
    |>.append regular (replaces_messages hreserved h.reserved fun _ hrange =>
      ReservedRange.replaces hrevision (.inl rfl) hrange (by omega)) (by decide)
    |>.append regular (h.keeps.rest.replaces hrevision htop layouts.message.areFields)
      (notMem_foreign (by decide))⟩

theorem replaces (hrevision : Normalizes revision top) {message : Message}
    (h : message.WellFormed depth) (htop : depth ≤ top) : ∃ owned,
      schema.Replaces depth messageDescriptor owned (message.revise revision).toRecords
        message.toRecords := by
  induction depth generalizing message with
  | zero => exact Layer.replaces hrevision h htop fun _ hfalse => hfalse.elim
  | succ depth ih => exact Layer.replaces hrevision h htop fun _ hnested => ih hnested (by omega)

end Message

theorem Method.replaces (hrevision : Normalizes revision top) {method : Method}
    (h : method.WellFormed depth) (htop : depth ≤ top) : ∃ owned,
      schema.Replaces depth methodDescriptor owned (method.revise revision).toRecords
        method.toRecords := by
  obtain ⟨hname, hinput, houtput, hoptions⟩ := layouts.method.fields
  exact ⟨_, replaces_text? hname _
    |>.append regular (replaces_text? hinput _) (by decide)
    |>.append regular (replaces_text? houtput _) (by decide)
    |>.append regular (replaces_options? hrevision hoptions h.options htop) (by decide)
    |>.append regular (h.rest.replaces hrevision htop layouts.method.areFields)
      (notMem_foreign (by decide))⟩

theorem Service.replaces (hrevision : Normalizes revision top) {service : Service}
    (h : service.WellFormed depth) (htop : depth ≤ top) : ∃ owned,
      schema.Replaces depth serviceDescriptor owned (service.revise revision).toRecords
        service.toRecords := by
  obtain ⟨hname, hmethods, hoptions⟩ := layouts.service.fields
  exact ⟨_, replaces_text? hname _
    |>.append regular (replaces_messages hmethods h.methods fun _ hmethod =>
      Method.replaces hrevision hmethod (by omega)) (by decide)
    |>.append regular (replaces_options? hrevision hoptions h.keeps.options htop)
      (by decide)
    |>.append regular (h.keeps.rest.replaces hrevision htop layouts.service.areFields)
      (notMem_foreign (by decide))⟩

theorem File.replaces (hrevision : Normalizes revision top) {file : File}
    (h : file.WellFormed depth) (htop : depth ≤ top) : ∃ owned,
      schema.Replaces depth fileDescriptor owned (file.revise revision).toRecords
        file.toRecords := by
  obtain ⟨hname, hpackage, hdependencies, hpublic, hweak, hmessages, henums, hservices, hextensions,
    hoptions, hdialect, hedition⟩ := layouts.file.fields
  exact ⟨_, replaces_text? hname _
    |>.append regular (replaces_text? hpackage _) (by decide)
    |>.append regular (replaces_texts hdependencies (.inl rfl)) (by decide)
    |>.append regular (replaces_numbers hpublic _) (by decide)
    |>.append regular (replaces_numbers hweak _) (by decide)
    |>.append regular (replaces_messages hmessages h.messages fun _ hmessage =>
      Message.replaces hrevision hmessage (by omega)) (by decide)
    |>.append regular (replaces_messages henums h.enums fun _ henum =>
      Enum.replaces hrevision henum (by omega)) (by decide)
    |>.append regular (replaces_messages hservices h.services fun _ hservice =>
      Service.replaces hrevision hservice (by omega)) (by decide)
    |>.append regular (replaces_messages hextensions h.extensions fun _ hfield =>
      Field.replaces hrevision hfield (by omega)) (by decide)
    |>.append regular (replaces_options? hrevision hoptions h.keeps.options htop)
      (by decide)
    |>.append regular (replaces_text? hdialect _) (by decide)
    |>.append regular (replaces_code? hedition edition_listed _) (by decide)
    |>.append regular (h.keeps.rest.replaces hrevision htop layouts.file.areFields)
      (notMem_foreign (by decide))⟩

theorem Request.replaces (hrevision : Normalizes revision top) {request : Request}
    (h : request.WellFormed depth) (htop : depth ≤ top) : ∃ owned,
      schema.Replaces depth generatorRequest owned (request.revise revision).toRecords
        request.toRecords := by
  obtain ⟨htargets, hparameter, hfiles⟩ := layouts.request.fields
  exact ⟨_, replaces_texts htargets (.inl rfl)
    |>.append regular (replaces_text? hparameter _) (by decide)
    |>.append regular (replaces_messages hfiles h.files fun _ hfile =>
      File.replaces hrevision hfile (by omega)) (by decide)
    |>.append regular (h.rest.replaces hrevision htop layouts.request.areFields)
      (notMem_foreign (by decide))⟩

end

end SchemaGen.Descriptor
