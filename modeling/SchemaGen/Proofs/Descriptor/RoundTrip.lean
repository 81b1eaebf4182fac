import SchemaGen.Proofs.Descriptor.WellFormed

/-!
# Reading descriptors back

A well-formed descriptor is read from its records again, as long as these are short enough to be
read at all (`Request.ofRecords_toRecords`).
-/

namespace SchemaGen.Descriptor

open Wire (Record Shape)
open Standard

-- ---------------------------------------------------------------------------
-- What parts hold under a number
-- ---------------------------------------------------------------------------

section

variable (number other : Nat)

@[simp] theorem contents_textRecord? (text : Option String) :
    Record.contents number (textRecord? other text) =
      if other = number then text.toList.map fun text => text.toUTF8.data.toList else [] :=
  Record.contents_items ..

@[simp] theorem contents_map_textRecord (texts : List String) :
    Record.contents number (texts.map (textRecord other)) =
      if other = number then texts.map fun text => text.toUTF8.data.toList else [] :=
  Record.contents_items ..

@[simp] theorem contents_numberRecord? (value : Option Int32) :
    Record.contents number (numberRecord? other value) = [] := Record.contents_varints ..

@[simp] theorem contents_flatMap_numberRecord? (values : List Int32) :
    Record.contents number (values.flatMap fun value => numberRecord? other (some value)) = [] := by
  rw [flatMap_numberRecord?, Record.contents_varints]

@[simp] theorem contents_flagRecord? (flag : Option Bool) :
    Record.contents number (flagRecord? other flag) = [] := Record.contents_varints ..

@[simp] theorem contents_codeRecord? (code : Option Nat) :
    Record.contents number (codeRecord? other code) = [] := Record.contents_varints ..

@[simp] theorem contents_optionsRecord? (options : Options) :
    Record.contents number (optionsRecord? other options) =
      if other = number then options.toList.map Record.encodeAll else [] :=
  Record.contents_items ..

@[simp] theorem contents_map_messageRecord {α : Type} (items : List α) (write : α → List Record) :
    Record.contents number (items.map fun item => messageRecord other (write item)) =
      if other = number then items.map fun item => Record.encodeAll (write item) else [] :=
  Record.contents_items ..

@[simp] theorem varints_textRecord? (text : Option String) :
    Record.varints number (textRecord? other text) = [] := Record.varints_contents ..

@[simp] theorem varints_numberRecord? (value : Option Int32) :
    Record.varints number (numberRecord? other value) =
      if other = number then value.toList.map fun value => value.toInt64.toUInt64 else [] :=
  Record.varints_items ..

@[simp] theorem varints_map_textRecord (texts : List String) :
    Record.varints number (texts.map (textRecord other)) = [] := Record.varints_contents ..

@[simp] theorem varints_flatMap_numberRecord? (values : List Int32) :
    Record.varints number (values.flatMap fun value => numberRecord? other (some value)) =
      if other = number then values.map fun value => value.toInt64.toUInt64 else [] := by
  rw [flatMap_numberRecord?, Record.varints_items]

@[simp] theorem varints_flagRecord? (flag : Option Bool) :
    Record.varints number (flagRecord? other flag) =
      if other = number then flag.toList.map fun flag => if flag then 1 else 0 else [] :=
  Record.varints_items ..

@[simp] theorem varints_codeRecord? (code : Option Nat) :
    Record.varints number (codeRecord? other code) =
      if other = number then code.toList.map UInt64.ofNat else [] :=
  Record.varints_items ..

@[simp] theorem varints_optionsRecord? (options : Options) :
    Record.varints number (optionsRecord? other options) = [] := Record.varints_contents ..

@[simp] theorem varints_map_messageRecord {α : Type} (items : List α) (write : α → List Record) :
    Record.varints number (items.map fun item => messageRecord other (write item)) = [] :=
  Record.varints_contents ..

end

-- ---------------------------------------------------------------------------
-- Reading parts
-- ---------------------------------------------------------------------------

theorem filter_items {α : Type} {test : Record → Bool} {record : α → Record}
    (h : ∀ item, test (record item) = false) (items : List α) :
    (items.map record).filter test = [] := by
  simp [List.filter_eq_nil_iff, h]

theorem filter_codeRecord? {α : Type} {test : Record → Bool} {number : Nat} {code : α → Nat}
    (h : ∀ item, test (.varint number (UInt64.ofNat (code item))) = false) (item : Option α) :
    (codeRecord? number (item.map code)).filter test = [] := by
  cases item with
  | none => rfl
  | some item => exact filter_items h [item]

theorem allNumbers_of_contents {number : Nat} {records : List Record}
    (h : Record.contents number records = []) :
    allNumbers number records = (Record.varints number records).map (·.toUInt32.toInt32) := by
  rw [allNumbers_eq]
  refine congrArg _ ?_
  rw [Record.contents, List.filterMap_eq_nil_iff] at h
  rw [Record.allVarints, Record.varints, List.filterMap_eq_flatMap_toList]
  refine List.flatMap_congr fun record hrecord => ?_
  have hnone := h record hrecord
  cases record with
  | varint other value => by_cases heq : other = number <;> simp [heq]
  | bytes other content =>
    by_cases heq : other = number
    · simp [heq] at hnone
    · simp [heq]
  | _ => rfl

theorem isRefused_bytes (type : String) (number : Nat) (content : Wire.Bytes) :
    isRefused type (.bytes number content) = false := by
  rw [isRefused]
  cases schema.field? type (Record.bytes number content).number with
  | none => rfl
  | some field =>
    have hadmits : field.kind.admits (.bytes number content) = true := by
      unfold Wire.Kind.admits
      split <;> simp_all
    simp [hadmits]

namespace IsRest

section

variable {type : String} {taken : List (Nat × Shape)} {depth limit number : Nat}
  {parts rest : List Record}

theorem mono (h : IsRest type taken depth rest) {less : List (Nat × Shape)}
    (hsubset : less ⊆ taken) :
    IsRest type less depth rest := by
  refine ⟨h.toLegible, fun record hrecord => ?_⟩
  have hother := h.other record hrecord
  simp only [isOther, Bool.or_eq_true, Bool.not_eq_true', List.contains_eq_mem,
    decide_eq_false_iff_not] at hother ⊢
  exact hother.imp_left fun hnot hless => hnot (hsubset hless)

theorem contents_eq_nil (h : IsRest type taken depth rest) (htaken : (number, .bytes) ∈ taken) :
    Record.contents number rest = [] := by
  refine List.eq_nil_iff_forall_not_mem.mpr fun content hcontent => ?_
  have hother := h.other _ (Record.mem_contents.mp hcontent)
  simp [isOther, isRefused_bytes, Record.number, Record.shape, htaken] at hother

theorem varints_eq_nil (h : IsRest type taken depth rest) (htaken : (number, .varint) ∈ taken)
    {kind : Wire.Kind} {cardinality : Wire.Cardinality} (hopen : isOpen kind = true)
    (hfield : ⟨number, kind, cardinality⟩ ∈ schema.fieldsOf type) :
    Record.varints number rest = [] := by
  refine List.eq_nil_iff_forall_not_mem.mpr fun value hvalue => ?_
  have hother := h.other _ (Record.varint_mem_of_mem_varints hvalue)
  have hrefused : isRefused type (.varint number value) = false := by
    refine isRefused_eq_false fun field hmem hnumber _ => ?_
    rw [regular.eq_of_number hmem hfield hnumber]
    exact hopen
  simp [isOther, hrefused, Record.number, Record.shape, htaken] at hother

theorem lastText?_append (h : IsRest type taken depth rest) (htaken : (number, .bytes) ∈ taken)
    {text : Option String}
    (hparts : Record.contents number parts = text.toList.map fun text => text.toUTF8.data.toList) :
    lastText? number (parts ++ rest) = text := by
  rw [lastText?, Record.contents_append, h.contents_eq_nil htaken, List.append_nil, hparts]
  cases text with
  | none => rfl
  | some text => simp [-String.toUTF8_eq_toByteArray, Wire.text?_toUTF8]

theorem allTexts_append (h : IsRest type taken depth rest) (htaken : (number, .bytes) ∈ taken)
    {texts : List String}
    (hparts : Record.contents number parts = texts.map fun text => text.toUTF8.data.toList) :
    allTexts number (parts ++ rest) = texts := by
  rw [allTexts, Record.contents_append, h.contents_eq_nil htaken, List.append_nil, hparts,
    List.map_map]
  simp [-String.toUTF8_eq_toByteArray, Function.comp_def, Wire.text?_toUTF8]

theorem lastNumber?_append (h : IsRest type taken depth rest) (htaken : (number, .varint) ∈ taken)
    (hfield : ⟨number, .int32, .optional⟩ ∈ schema.fieldsOf type)
    {value : Option Int32}
    (hparts : Record.varints number parts = value.toList.map fun value => value.toInt64.toUInt64) :
    lastNumber? number (parts ++ rest) = value := by
  rw [lastNumber?, Record.varints_append, h.varints_eq_nil htaken rfl hfield, List.append_nil,
    hparts]
  cases value with
  | none => rfl
  | some value => exact congrArg some (Wire.toInt32_signExtended value)

theorem lastFlag?_append (h : IsRest type taken depth rest) (htaken : (number, .varint) ∈ taken)
    (hfield : ⟨number, .bool, .optional⟩ ∈ schema.fieldsOf type)
    {flag : Option Bool}
    (hparts : Record.varints number parts = flag.toList.map fun flag => if flag then 1 else 0) :
    lastFlag? number (parts ++ rest) = flag := by
  rw [lastFlag?, Record.varints_append, h.varints_eq_nil htaken rfl hfield, List.append_nil, hparts]
  cases flag with
  | none => rfl
  | some flag => cases flag <;> rfl

theorem lastCode?_append {α : Type} {ofCode? : Nat → Option α} {code : α → Nat}
    {numbers : List Int32}
    (hcodes : ∀ code : UInt32, (ofCode? code.toNat).isSome = numbers.contains code.toInt32)
    (hread : ∀ item, ofCode? (UInt64.ofNat (code item)).toUInt32.toNat = some item)
    (h : IsRest type taken depth rest) (htaken : (number, .varint) ∈ taken)
    (hfield : ⟨number, .enum (some numbers), .optional⟩ ∈ schema.fieldsOf type) {item : Option α}
    (hparts : Record.varints number parts = (item.map code).toList.map UInt64.ofNat) :
    lastCode? ofCode? number (parts ++ rest) = item := by
  have hrest : (Record.varints number rest).filterMap
      (fun value => ofCode? value.toUInt32.toNat) = [] := by
    refine List.filterMap_eq_nil_iff.mpr fun value hvalue => ?_
    have hother := h.other _ (Record.varint_mem_of_mem_varints hvalue)
    rw [isOther, isRefused_varint hfield, ← hcodes] at hother
    simpa [Record.number, Record.shape, htaken] using hother
  rw [lastCode?, Record.varints_append, List.filterMap_append, hrest, List.append_nil, hparts]
  cases item with
  | none => rfl
  | some item =>
    have hsome : [UInt64.ofNat (code item)].filterMap
        (fun value => ofCode? value.toUInt32.toNat) = [item] :=
      List.filterMap_cons_some (hread item)
    exact congrArg List.getLast? hsome

theorem allNumbers_append (h : IsRest type taken depth rest) (htaken : (number, .varint) ∈ taken)
    (hpacked : (number, .bytes) ∈ taken)
    (hfield : ⟨number, .int32, .repeated⟩ ∈ schema.fieldsOf type)
    (hcontents : Record.contents number parts = []) {values : List Int32}
    (hparts : Record.varints number parts = values.map fun value => value.toInt64.toUInt64) :
    allNumbers number (parts ++ rest) = values := by
  have hnone : Record.contents number (parts ++ rest) = [] := by
    rw [Record.contents_append, hcontents, h.contents_eq_nil hpacked, List.append_nil]
  rw [allNumbers_of_contents hnone, Record.varints_append, h.varints_eq_nil htaken rfl hfield,
    List.append_nil, hparts, List.map_map]
  exact (List.map_congr_left fun value _ => Wire.toInt32_signExtended value).trans
    (List.map_id values)

theorem merged?_append (h : IsRest type taken depth rest) (htaken : (number, .bytes) ∈ taken)
    {inner : String} {options : Options} (hoptions : options.WellFormed inner depth)
    (hle : depth ≤ limit + 1) (hshort : Record.IsShort (Record.encodeAll (parts ++ rest)))
    (hparts : Record.contents number parts = options.toList.map Record.encodeAll) :
    merged? limit number (parts ++ rest) = options := by
  have hcontents : Record.contents number (parts ++ rest) =
      options.toList.map Record.encodeAll := by
    rw [Record.contents_append, h.contents_eq_nil htaken, List.append_nil, hparts]
  rw [merged?, children, hcontents]
  cases options with
  | none => rfl
  | some records =>
    obtain ⟨-, hlegible⟩ := hoptions records (by simp)
    have hmem : Record.encodeAll records ∈ Record.contents number (parts ++ rest) := by
      rw [hcontents]
      simp
    have hread := Record.readAll_encodeAll
      (fun record hrecord => (hlegible.tidy record hrecord).mono (show depth - 1 ≤ limit by omega))
      (hshort.of_bytes_mem (Record.mem_contents.mp hmem))
    simp [hread]

theorem map_children_append {α : Type} {write rewrite : α → List Record} {inner : String}
    {read : List Record → α} (h : IsRest type taken depth rest) (htaken : (number, .bytes) ∈ taken)
    {items : List α} {sound : α → Prop} (hitems : ∀ item ∈ items, 0 < depth ∧ sound item)
    (hle : depth ≤ limit + 1) (hshort : Record.IsShort (Record.encodeAll (parts ++ rest)))
    (hparts : Record.contents number parts = items.map fun item => Record.encodeAll (write item))
    (hreplaces : ∀ item, sound item → ∃ owned,
      schema.Replaces (depth - 1) inner owned (rewrite item) (write item))
    (hread : ∀ item, sound item → Record.IsShort (Record.encodeAll (write item)) →
      read (write item) = item) :
    (children limit number (parts ++ rest)).map read = items := by
  have hcontents : Record.contents number (parts ++ rest) =
      items.map fun item => Record.encodeAll (write item) := by
    rw [Record.contents_append, h.contents_eq_nil htaken, List.append_nil, hparts]
  rw [children, hcontents, List.map_map, List.map_map]
  refine (List.map_congr_left fun item hitem => ?_).trans (List.map_id items)
  have hmem : Record.encodeAll (write item) ∈ Record.contents number (parts ++ rest) := by
    rw [hcontents]
    exact List.mem_map_of_mem hitem
  have hitemShort := hshort.of_bytes_mem (Record.mem_contents.mp hmem)
  obtain ⟨-, hsound⟩ := hitems item hitem
  obtain ⟨owned, hitemReplaces⟩ := hreplaces item hsound
  have hall := Record.readAll_encodeAll (fun record hrecord =>
    (hitemReplaces.tidy record hrecord).mono (show depth - 1 ≤ limit by omega)) hitemShort
  simp [hall, hread item hsound hitemShort]

theorem filter_append (h : IsRest type taken depth rest) {test : Record → Bool}
    (htest : isOther type taken = test) (hparts : parts.filter test = []) :
    (parts ++ rest).filter test = rest := by
  rw [List.filter_append, hparts, List.nil_append, ← htest, List.filter_eq_self.mpr h.other]

theorem others_append (h : IsRest type taken depth rest) {specs : List Wire.FieldSpec}
    (hlayout : OpenLayout type taken specs) (hparts : others taken parts = []) :
    others taken (parts ++ rest) = rest := by
  have hrest : others taken rest = rest := by
    rw [others_eq hlayout.opens, List.filter_eq_self.mpr h.other]
  rw [others, List.filter_append, ← others, ← others, hparts, hrest, List.nil_append]

end

end IsRest

-- ---------------------------------------------------------------------------
-- Reading descriptors
-- ---------------------------------------------------------------------------

section

variable {depth limit : Nat}

theorem Label.ofCode?_code (label : Label) :
    ofCode? (UInt64.ofNat label.code).toUInt32.toNat = some label := by
  cases label <;> rfl

theorem FieldType.ofCode?_code (type : FieldType) :
    ofCode? (UInt64.ofNat type.code).toUInt32.toNat = some type := by
  cases type <;> rfl

theorem Edition.ofCode?_code (edition : Edition) :
    ofCode? (UInt64.ofNat edition.code).toUInt32.toNat = some edition := by
  cases edition <;> rfl

theorem Field.ofRecords_toRecords {field : Field} (h : field.WellFormed depth)
    (hle : depth ≤ limit + 1) (hshort : Record.IsShort (Record.encodeAll field.toRecords)) :
    ofRecords limit field.toRecords = field := by
  have hrest := h.rest
  have hoptions := h.options
  obtain ⟨-, -, hnumber, hlabel, htype, -, -, -, hindex, -, htracked⟩ := layouts.field.fields
  cases field
  simp only [ofRecords, mk.injEq]
  refine ⟨hrest.lastText?_append (by decide) (by simp [Record.contents_append]),
    hrest.lastText?_append (by decide) (by simp [Record.contents_append]),
    hrest.lastNumber?_append (by decide) hnumber (by simp [Record.varints_append]),
    hrest.lastCode?_append label_codes Label.ofCode?_code (by decide) hlabel
      (by simp [Record.varints_append]),
    hrest.lastCode?_append fieldType_codes FieldType.ofCode?_code (by decide) htype
      (by simp [Record.varints_append]),
    hrest.lastText?_append (by decide) (by simp [Record.contents_append]),
    hrest.lastText?_append (by decide) (by simp [Record.contents_append]),
    hrest.merged?_append (by decide) hoptions hle hshort (by simp [Record.contents_append]),
    hrest.lastNumber?_append (by decide) hindex (by simp [Record.varints_append]),
    hrest.lastText?_append (by decide) (by simp [Record.contents_append]),
    hrest.lastFlag?_append (by decide) htracked (by simp [Record.varints_append]), ?_⟩
  refine hrest.filter_append isOther_eq ?_
  simp only [List.filter_append, List.append_eq_nil_iff, and_assoc]
  exact ⟨filter_items (fun _ => rfl) _, filter_items (fun _ => rfl) _,
    filter_items (fun _ => rfl) _,
    filter_codeRecord? (fun label => by cases label <;> rfl) _,
    filter_codeRecord? (fun type => by cases type <;> rfl) _, filter_items (fun _ => rfl) _,
    filter_items (fun _ => rfl) _, filter_items (fun _ => rfl) _, filter_items (fun _ => rfl) _,
    filter_items (fun _ => rfl) _, filter_items (fun _ => rfl) _⟩

theorem EnumValue.ofRecords_toRecords {value : EnumValue} (h : value.WellFormed depth)
    (hle : depth ≤ limit + 1) (hshort : Record.IsShort (Record.encodeAll value.toRecords)) :
    ofRecords limit value.toRecords = value := by
  have hrest := h.rest
  have hoptions := h.options
  obtain ⟨-, hnumber, -⟩ := layouts.enumValue.fields
  cases value
  simp only [ofRecords, mk.injEq]
  refine ⟨hrest.lastText?_append (by decide) (by simp [Record.contents_append]),
    hrest.lastNumber?_append (by decide) hnumber (by simp [Record.varints_append]),
    hrest.merged?_append (by decide) hoptions hle hshort (by simp [Record.contents_append]),
    hrest.others_append layouts.enumValue ?_⟩
  simp only [others, List.filter_append, List.append_eq_nil_iff, and_assoc]
  and_intros <;> exact filter_items (fun _ => rfl) _

theorem ReservedRange.ofRecords_toRecords {type : String}
    (htype : type = reservedRange ∨ type = enumReservedRange) {range : ReservedRange}
    (h : range.WellFormed type depth) : ofRecords range.toRecords = range := by
  have hrest : IsRest type taken depth range.rest := h
  obtain ⟨hstart, hstop⟩ := (layout htype).fields
  cases range
  simp only [ofRecords, mk.injEq]
  refine ⟨hrest.lastNumber?_append (by decide) hstart (by simp [Record.varints_append]),
    hrest.lastNumber?_append (by decide) hstop (by simp [Record.varints_append]),
    hrest.others_append (layout htype) ?_⟩
  simp only [others, List.filter_append, List.append_eq_nil_iff]
  and_intros <;> exact filter_items (fun _ => rfl) _

theorem Enum.ofRecords_toRecords {enum : Enum} (h : enum.WellFormed depth)
    (hmax : depth ≤ Wire.Schema.maxDepth) (hle : depth ≤ limit + 1)
    (hshort : Record.IsShort (Record.encodeAll enum.toRecords)) :
    ofRecords limit enum.toRecords = enum := by
  obtain ⟨hvalues, hreserved, hoptions, hrest⟩ := h
  cases enum
  simp only [ofRecords, mk.injEq]
  refine ⟨hrest.lastText?_append (by decide) (by simp [Record.contents_append]),
    hrest.map_children_append (by decide) hvalues hle hshort (by simp [Record.contents_append])
      (fun _ hvalue => EnumValue.replaces normalizes_canonical hvalue (by omega))
      fun _ hvalue => EnumValue.ofRecords_toRecords hvalue (by omega),
    hrest.merged?_append (by decide) hoptions hle hshort (by simp [Record.contents_append]),
    hrest.map_children_append (by decide) hreserved hle hshort (by simp [Record.contents_append])
      (fun _ hrange => ReservedRange.replaces normalizes_canonical (.inr rfl) hrange (by omega))
      fun _ hrange _ => ReservedRange.ofRecords_toRecords (.inr rfl) hrange,
    hrest.others_append layouts.enum ?_⟩
  simp only [others, List.filter_append, List.append_eq_nil_iff, and_assoc]
  and_intros <;> exact filter_items (fun _ => rfl) _

theorem ExtensionRange.ofRecords_toRecords {range : ExtensionRange} (h : range.WellFormed depth)
    (hle : depth ≤ limit + 1) (hshort : Record.IsShort (Record.encodeAll range.toRecords)) :
    ofRecords limit range.toRecords = range := by
  obtain ⟨hoptions, hrest⟩ := h
  obtain ⟨hstart, hstop, -⟩ := layouts.extensionRange.fields
  cases range
  simp only [ofRecords, mk.injEq]
  refine ⟨hrest.lastNumber?_append (by decide) hstart (by simp [Record.varints_append]),
    hrest.lastNumber?_append (by decide) hstop (by simp [Record.varints_append]),
    hrest.merged?_append (by decide) hoptions hle hshort (by simp [Record.contents_append]),
    hrest.others_append layouts.extensionRange ?_⟩
  simp only [others, List.filter_append, List.append_eq_nil_iff, and_assoc]
  and_intros <;> exact filter_items (fun _ => rfl) _

theorem Oneof.ofRecords_toRecords {oneof : Oneof} (h : oneof.WellFormed depth)
    (hle : depth ≤ limit + 1) (hshort : Record.IsShort (Record.encodeAll oneof.toRecords)) :
    ofRecords limit oneof.toRecords = oneof := by
  obtain ⟨hoptions, hrest⟩ := h
  cases oneof
  simp only [ofRecords, mk.injEq]
  refine ⟨hrest.lastText?_append (by decide) (by simp [Record.contents_append]),
    hrest.merged?_append (by decide) hoptions hle hshort (by simp [Record.contents_append]),
    hrest.others_append layouts.oneof ?_⟩
  simp only [others, List.filter_append, List.append_eq_nil_iff]
  and_intros <;> exact filter_items (fun _ => rfl) _

namespace Message

theorem Layer.ofRecords_toRecords {inner : Message → Prop} {message : Message}
    (h : message.Layer inner depth) (hmax : depth ≤ Wire.Schema.maxDepth) (hle : depth ≤ limit + 1)
    (hshort : Record.IsShort (Record.encodeAll message.toRecords))
    (hreplaces : ∀ nested, inner nested → ∃ owned, schema.Replaces (depth - 1) messageDescriptor
      owned (nested.revise canonical).toRecords nested.toRecords)
    (hread : ∀ nested, inner nested → Record.IsShort (Record.encodeAll nested.toRecords) →
      ofRecords limit nested.toRecords = nested) :
    ofRecords (limit + 1) message.toRecords = message := by
  rw [toRecords_eq] at hshort ⊢
  obtain ⟨hfields, hextensions, hnested, henums, hranges, honeofs, hreserved, hoptions, hrest⟩ := h
  cases message
  simp only [ofRecords, mk.injEq]
  refine ⟨hrest.lastText?_append (by decide) (by simp [Record.contents_append]),
    hrest.map_children_append (by decide) hfields hle hshort (by simp [Record.contents_append])
      (fun _ hfield => Field.replaces normalizes_canonical hfield (by omega))
      fun _ hfield => Field.ofRecords_toRecords hfield (by omega),
    hrest.map_children_append (by decide) hextensions hle hshort (by simp [Record.contents_append])
      (fun _ hfield => Field.replaces normalizes_canonical hfield (by omega))
      fun _ hfield => Field.ofRecords_toRecords hfield (by omega),
    hrest.map_children_append (by decide) hnested hle hshort (by simp [Record.contents_append])
      hreplaces hread,
    hrest.map_children_append (by decide) henums hle hshort (by simp [Record.contents_append])
      (fun _ henum => Enum.replaces normalizes_canonical henum (by omega))
      fun _ henum => Enum.ofRecords_toRecords henum (by omega) (by omega),
    hrest.map_children_append (by decide) hranges hle hshort (by simp [Record.contents_append])
      (fun _ hrange => ExtensionRange.replaces normalizes_canonical hrange (by omega))
      fun _ hrange => ExtensionRange.ofRecords_toRecords hrange (by omega),
    hrest.map_children_append (by decide) honeofs hle hshort (by simp [Record.contents_append])
      (fun _ honeof => Oneof.replaces normalizes_canonical honeof (by omega))
      fun _ honeof => Oneof.ofRecords_toRecords honeof (by omega),
    hrest.merged?_append (by decide) hoptions hle hshort (by simp [Record.contents_append]),
    hrest.map_children_append (by decide) hreserved hle hshort (by simp [Record.contents_append])
      (fun _ hrange => ReservedRange.replaces normalizes_canonical (.inl rfl) hrange (by omega))
      fun _ hrange _ => ReservedRange.ofRecords_toRecords (.inl rfl) hrange,
    hrest.others_append layouts.message ?_⟩
  simp only [others, List.filter_append, List.append_eq_nil_iff, and_assoc]
  and_intros <;> exact filter_items (fun _ => rfl) _

theorem Layer.eq_of_zero {inner : Message → Prop} {message : Message} (h : message.Layer inner 0) :
    message = { name := message.name, rest := message.rest } := by
  have hnil : ∀ {α : Type} {items : List α} {sound : α → Prop},
      (∀ item ∈ items, 0 < 0 ∧ sound item) → items = [] :=
    fun hitems => List.eq_nil_iff_forall_not_mem.mpr fun item hitem =>
      absurd (hitems item hitem).1 (Nat.lt_irrefl 0)
  have hoptions : message.options = none := by
    simpa using hnil h.keeps.options
  cases message
  simp only [mk.injEq]
  exact ⟨trivial, hnil h.fields, hnil h.extensions, hnil h.nested, hnil h.enums, hnil h.ranges,
    hnil h.oneofs, hoptions, hnil h.reserved, trivial⟩

theorem ofRecords_toRecords {message : Message} (h : message.WellFormed depth)
    (hmax : depth ≤ Wire.Schema.maxDepth) (hle : depth ≤ limit)
    (hshort : Record.IsShort (Record.encodeAll message.toRecords)) :
    ofRecords limit message.toRecords = message := by
  induction limit generalizing depth message with
  | zero =>
    obtain rfl : depth = 0 := by omega
    have hrest := h.keeps.rest.mono (show [(1, .bytes)] ⊆ taken by decide)
    rw [Layer.eq_of_zero h, toRecords_eq]
    simp only [ofRecords, mk.injEq, true_and]
    refine ⟨hrest.lastText?_append (by decide) (by simp [Record.contents_append]),
      hrest.others_append layouts.messageName ?_⟩
    simp only [others, List.filter_append, List.append_eq_nil_iff, and_assoc]
    exact ⟨filter_items (fun _ => rfl) _, rfl, rfl, rfl, rfl, rfl, rfl, rfl, rfl⟩
  | succ limit ih =>
    cases depth with
    | zero =>
      exact Layer.ofRecords_toRecords h hmax (by omega) hshort (fun _ hfalse => hfalse.elim)
        fun _ hfalse => hfalse.elim
    | succ depth =>
      exact Layer.ofRecords_toRecords h hmax (by omega) hshort
        (fun _ hnested => replaces normalizes_canonical hnested (by omega))
        fun _ hnested => ih hnested (by omega) (by omega)

end Message

theorem Method.ofRecords_toRecords {method : Method} (h : method.WellFormed depth)
    (hle : depth ≤ limit + 1) (hshort : Record.IsShort (Record.encodeAll method.toRecords)) :
    ofRecords limit method.toRecords = method := by
  obtain ⟨hoptions, hrest⟩ := h
  cases method
  simp only [ofRecords, mk.injEq]
  refine ⟨hrest.lastText?_append (by decide) (by simp [Record.contents_append]),
    hrest.lastText?_append (by decide) (by simp [Record.contents_append]),
    hrest.lastText?_append (by decide) (by simp [Record.contents_append]),
    hrest.merged?_append (by decide) hoptions hle hshort (by simp [Record.contents_append]),
    hrest.others_append layouts.method ?_⟩
  simp only [others, List.filter_append, List.append_eq_nil_iff, and_assoc]
  and_intros <;> exact filter_items (fun _ => rfl) _

theorem Service.ofRecords_toRecords {service : Service} (h : service.WellFormed depth)
    (hmax : depth ≤ Wire.Schema.maxDepth) (hle : depth ≤ limit + 1)
    (hshort : Record.IsShort (Record.encodeAll service.toRecords)) :
    ofRecords limit service.toRecords = service := by
  obtain ⟨hmethods, hoptions, hrest⟩ := h
  cases service
  simp only [ofRecords, mk.injEq]
  refine ⟨hrest.lastText?_append (by decide) (by simp [Record.contents_append]),
    hrest.map_children_append (by decide) hmethods hle hshort (by simp [Record.contents_append])
      (fun _ hmethod => Method.replaces normalizes_canonical hmethod (by omega))
      fun _ hmethod => Method.ofRecords_toRecords hmethod (by omega),
    hrest.merged?_append (by decide) hoptions hle hshort (by simp [Record.contents_append]),
    hrest.others_append layouts.service ?_⟩
  simp only [others, List.filter_append, List.append_eq_nil_iff, and_assoc]
  and_intros <;> exact filter_items (fun _ => rfl) _

theorem File.ofRecords_toRecords {file : File} (h : file.WellFormed depth)
    (hmax : depth ≤ Wire.Schema.maxDepth) (hle : depth ≤ limit)
    (hshort : Record.IsShort (Record.encodeAll file.toRecords)) :
    ofRecords limit file.toRecords = file := by
  obtain ⟨hmessages, henums, hservices, hextensions, hoptions, hrest⟩ := h
  have hless : depth ≤ limit - 1 + 1 := by omega
  obtain ⟨-, -, -, hpublic, hweak, -, -, -, -, -, -, hedition⟩ := layouts.file.fields
  cases file
  simp only [ofRecords, mk.injEq]
  refine ⟨hrest.lastText?_append (by decide) (by simp [Record.contents_append]),
    hrest.lastText?_append (by decide) (by simp [Record.contents_append]),
    hrest.allTexts_append (by decide) (by simp [Record.contents_append]),
    hrest.allNumbers_append (by decide) (by decide) hpublic
      (by simp [Record.contents_append]) (by simp [Record.varints_append]),
    hrest.allNumbers_append (by decide) (by decide) hweak
      (by simp [Record.contents_append]) (by simp [Record.varints_append]),
    hrest.map_children_append (by decide) hmessages hless hshort (by simp [Record.contents_append])
      (fun _ hmessage => Message.replaces normalizes_canonical hmessage (by omega))
      fun _ hmessage => Message.ofRecords_toRecords hmessage (by omega) (by omega),
    hrest.map_children_append (by decide) henums hless hshort (by simp [Record.contents_append])
      (fun _ henum => Enum.replaces normalizes_canonical henum (by omega))
      fun _ henum => Enum.ofRecords_toRecords henum (by omega) (by omega),
    hrest.map_children_append (by decide) hservices hless hshort (by simp [Record.contents_append])
      (fun _ hservice => Service.replaces normalizes_canonical hservice (by omega))
      fun _ hservice => Service.ofRecords_toRecords hservice (by omega) (by omega),
    hrest.map_children_append (by decide) hextensions hless hshort
      (by simp [Record.contents_append])
      (fun _ hfield => Field.replaces normalizes_canonical hfield (by omega))
      fun _ hfield => Field.ofRecords_toRecords hfield (by omega),
    hrest.merged?_append (by decide) hoptions hless hshort (by simp [Record.contents_append]),
    hrest.lastText?_append (by decide) (by simp [Record.contents_append]),
    hrest.lastCode?_append edition_codes Edition.ofCode?_code (by decide) hedition
      (by simp [Record.varints_append]),
    hrest.filter_append isOther_eq ?_⟩
  simp only [flatMap_numberRecord?, List.filter_append, List.append_eq_nil_iff, and_assoc]
  exact ⟨filter_items (fun _ => rfl) _, filter_items (fun _ => rfl) _,
    filter_items (fun _ => rfl) _, filter_items (fun _ => rfl) _, filter_items (fun _ => rfl) _,
    filter_items (fun _ => rfl) _,
    filter_items (fun _ => rfl) _, filter_items (fun _ => rfl) _, filter_items (fun _ => rfl) _,
    filter_items (fun _ => rfl) _, filter_items (fun _ => rfl) _,
    filter_codeRecord? (fun edition => by cases edition <;> rfl) _⟩

theorem Request.ofRecords_toRecords {request : Request} (h : request.WellFormed depth)
    (hmax : depth ≤ Wire.Schema.maxDepth) (hle : depth ≤ limit)
    (hshort : Record.IsShort (Record.encodeAll request.toRecords)) :
    ofRecords limit request.toRecords = request := by
  obtain ⟨hfiles, hrest⟩ := h
  have hless : depth ≤ limit - 1 + 1 := by omega
  cases request
  simp only [ofRecords, mk.injEq]
  refine ⟨hrest.allTexts_append (by decide) (by simp [Record.contents_append]),
    hrest.lastText?_append (by decide) (by simp [Record.contents_append]),
    hrest.map_children_append (by decide) hfiles hless hshort (by simp [Record.contents_append])
      (fun _ hfile => File.replaces normalizes_canonical hfile (by omega))
      fun _ hfile => File.ofRecords_toRecords hfile (by omega) (by omega),
    hrest.others_append layouts.request ?_⟩
  simp only [others, List.filter_append, List.append_eq_nil_iff, and_assoc]
  and_intros <;> exact filter_items (fun _ => rfl) _

end

end SchemaGen.Descriptor
