import SchemaGen.Descriptor.Coding
import SchemaGen.Descriptor.Standard
import SchemaGen.Proofs.Wire.Values

/-!
# Parts of descriptors in normal forms

A descriptor reads its parts by number. What it finds in the normal form of its records is what it
finds in the records, except that messages are found in their normal forms.
-/

namespace SchemaGen.Wire.Schema

open Descriptor (children merged?)

variable {schema : Schema} {type inner : String} {records elements : List Record}
  {field : FieldSpec}

theorem submessages_eq_children (h : schema.Regular)
    (hunpack : schema.unpack type records = some elements) (hfield : field ∈ schema.fieldsOf type)
    (hkind : field.kind = .message inner) (hrepeated : field.isRepeated = true) (limit : Nat) :
    field.submessages limit (schema.values type field records) =
      children limit field.number records := by
  rw [values_eq_contents h hunpack hfield (by rw [hkind]; rfl), children, FieldSpec.submessages,
    if_pos hrepeated, List.map_map]
  rfl

theorem submessages_eq_merged? (h : schema.Regular)
    (hunpack : schema.unpack type records = some elements) (hfield : field ∈ schema.fieldsOf type)
    (hkind : field.kind = .message inner) (hsingle : field.isRepeated = false) (limit : Nat) :
    field.submessages limit (schema.values type field records) =
      (merged? limit field.number records).toList := by
  rw [values_eq_contents h hunpack hfield (by rw [hkind]; rfl), merged?, children,
    FieldSpec.submessages, hsingle, if_neg Bool.false_ne_true]
  cases Record.contents field.number records with
  | nil => rfl
  | cons content more =>
    simp [Record.members, Record.members?, List.flatMap_map, List.flatten_eq_flatMap]

end SchemaGen.Wire.Schema

namespace SchemaGen.Descriptor

open Wire (Record Schema FieldSpec)

-- ---------------------------------------------------------------------------
-- The standard schema
-- ---------------------------------------------------------------------------

namespace Standard

theorem fieldsOf_cases (type : String) :
    schema.fieldsOf type = [] ∨ ∃ entry ∈ schema.types, schema.fieldsOf type = entry.2 := by
  rw [Schema.fieldsOf]
  cases hlookup : schema.types.lookup type with
  | none => exact .inl rfl
  | some fields =>
    obtain ⟨before, after, htypes, -⟩ := List.lookup_eq_some_iff.mp hlookup
    exact .inr ⟨(type, fields), by simp [htypes], rfl⟩

theorem regular : schema.Regular where
  sets := rfl
  nodup type := by
    have hall : ∀ entry ∈ schema.types, (entry.2.map FieldSpec.number).Nodup := by decide +kernel
    obtain hnil | ⟨entry, hentry, hfields⟩ := fieldsOf_cases type
    · simp [hnil]
    · exact hfields ▸ hall entry hentry
  number type field hfield := by
    have hall : ∀ entry ∈ schema.types, ∀ field ∈ entry.2,
        0 < field.number ∧ field.number ≤ Wire.Token.maxNumber := by decide +kernel
    obtain hnil | ⟨entry, hentry, hfields⟩ := fieldsOf_cases type
    · simp [hnil] at hfield
    · exact hall entry hentry field (hfields ▸ hfield)
  shape type field hfield := by
    have hall : ∀ entry ∈ schema.types, ∀ field ∈ entry.2, field.kind.shape ≠ .group := by
      decide +kernel
    obtain hnil | ⟨entry, hentry, hfields⟩ := fieldsOf_cases type
    · simp [hnil] at hfield
    · exact hall entry hentry field (hfields ▸ hfield)

end Standard

/-- Records that can be read as a message of a type, written and read again. -/
structure Intact (depth : Nat) (type : String) (records : List Record) : Prop where
  readable : Standard.schema.readable depth type records = true
  short : Record.IsShort (Record.encodeAll (Standard.schema.normal depth type records))

-- ---------------------------------------------------------------------------
-- Parts in normal forms
-- ---------------------------------------------------------------------------

section

variable {depth limit number : Nat} {type inner : String} {records : List Record}

theorem lastText?_normal (h : Intact depth type records)
    (hfield : ⟨number, .string false, .optional⟩ ∈ Standard.schema.fieldsOf type) :
    lastText? number (Standard.schema.normal depth type records) = lastText? number records := by
  obtain ⟨elements, hunpack, -⟩ := Schema.readable_iff.mp h.readable
  rw [lastText?, Schema.contents_normal Standard.regular hunpack hfield rfl rfl depth]
  cases hlast : (Record.contents number records).getLast? <;>
    simp [lastText?, FieldSpec.isRepeated, hlast]

theorem allTexts_normal (h : Intact depth type records)
    (hfield : ⟨number, .string false, .repeated⟩ ∈ Standard.schema.fieldsOf type) :
    allTexts number (Standard.schema.normal depth type records) = allTexts number records := by
  obtain ⟨elements, hunpack, -⟩ := Schema.readable_iff.mp h.readable
  rw [allTexts, Schema.contents_normal Standard.regular hunpack hfield rfl rfl depth]
  rfl

theorem lastNumber?_normal (h : Intact depth type records)
    (hfield : ⟨number, .int32, .optional⟩ ∈ Standard.schema.fieldsOf type) :
    lastNumber? number (Standard.schema.normal depth type records) =
      lastNumber? number records := by
  obtain ⟨elements, hunpack, -⟩ := Schema.readable_iff.mp h.readable
  have hlast := Schema.getLast?_varints_normal Standard.regular hunpack hfield rfl rfl depth
    (fun value => some value.toUInt32.toInt32) (fun _ => rfl)
    fun value => congrArg some (Wire.toInt32_signExtended _)
  simpa [lastNumber?] using hlast

theorem lastFlag?_normal (h : Intact depth type records)
    (hfield : ⟨number, .bool, .optional⟩ ∈ Standard.schema.fieldsOf type) :
    lastFlag? number (Standard.schema.normal depth type records) = lastFlag? number records := by
  obtain ⟨elements, hunpack, -⟩ := Schema.readable_iff.mp h.readable
  have hlast := Schema.getLast?_varints_normal Standard.regular hunpack hfield rfl rfl depth
    (fun value => some (value != 0)) (fun _ => rfl) fun value => by
      by_cases hzero : value = 0 <;> simp [Schema.canonicalBits, hzero]
  simpa [lastFlag?] using hlast

theorem toUInt32_signExtended (value : UInt32) :
    value.toInt32.toInt64.toUInt64.toUInt32 = value := by
  simpa using congrArg Int32.toUInt32 (Wire.toInt32_signExtended value.toInt32)

theorem lastCode?_normal {α : Type} {ofCode? : Nat → Option α} {numbers : List Int32}
    (hcodes : ∀ code : UInt32, (ofCode? code.toNat).isSome = numbers.contains code.toInt32)
    (h : Intact depth type records)
    (hfield : ⟨number, .enum (some numbers), .optional⟩ ∈ Standard.schema.fieldsOf type) :
    lastCode? ofCode? number (Standard.schema.normal depth type records) =
      lastCode? ofCode? number records := by
  obtain ⟨elements, hunpack, -⟩ := Schema.readable_iff.mp h.readable
  exact Schema.getLast?_varints_normal Standard.regular hunpack hfield rfl rfl depth
    (fun value => ofCode? value.toUInt32.toNat) (fun value => hcodes value.toUInt32)
    fun value => by simp only [Schema.canonicalBits, toUInt32_signExtended]

theorem allNumbers_eq (number : Nat) (records : List Record) :
    allNumbers number records = (Record.allVarints number records).map (·.toUInt32.toInt32) := by
  rw [allNumbers, Record.allVarints, List.map_flatMap]
  induction records with
  | nil => rfl
  | cons record more ih =>
    rw [List.flatMap_cons, ← ih]
    by_cases hnumber : record.number = number
    · rw [List.filter_cons_of_pos (by simpa using hnumber), List.flatMap_cons]
      cases record <;> simp_all [Record.number]
    · rw [List.filter_cons_of_neg (by simpa using hnumber)]
      cases record <;> simp_all [Record.number]

theorem allNumbers_normal (h : Intact depth type records)
    (hfield : ⟨number, .int32, .repeated⟩ ∈ Standard.schema.fieldsOf type) :
    allNumbers number (Standard.schema.normal depth type records) = allNumbers number records := by
  obtain ⟨elements, hunpack, -⟩ := Schema.readable_iff.mp h.readable
  have hvarints :=
    Schema.allVarints_normal Standard.regular hunpack hfield rfl rfl (fun _ => rfl) depth
  rw [allNumbers_eq, allNumbers_eq, hvarints, List.map_map]
  exact List.map_congr_left fun value _ => Wire.toInt32_signExtended _

theorem children_normal (h : Intact depth type records) (hle : depth ≤ limit + 1)
    (hfield : ⟨number, .message inner, .repeated⟩ ∈ Standard.schema.fieldsOf type) :
    children limit number (Standard.schema.normal depth type records) =
      (children limit number records).map (Standard.schema.normal (depth - 1) inner) := by
  obtain ⟨elements, hunpack, -⟩ := Schema.readable_iff.mp h.readable
  have hnormal := Schema.submessages_normal Standard.regular h.readable h.short hfield rfl hle
  rwa [Schema.submessages_eq_children Standard.regular
      (Schema.unpack_normal Standard.regular hunpack) hfield rfl rfl,
    Schema.submessages_eq_children Standard.regular hunpack hfield rfl rfl] at hnormal

theorem intact_child (h : Intact depth type records) (hle : depth ≤ limit + 1)
    (hfield : ⟨number, .message inner, .repeated⟩ ∈ Standard.schema.fieldsOf type)
    {members : List Record} (hmembers : members ∈ children limit number records) :
    Intact (depth - 1) inner members := by
  obtain ⟨elements, hunpack, -⟩ := Schema.readable_iff.mp h.readable
  rw [← Schema.submessages_eq_children Standard.regular hunpack hfield rfl rfl] at hmembers
  obtain ⟨hreadable, hshort⟩ := Schema.submessage_facts Standard.regular h.readable h.short hfield
    rfl hle members hmembers
  exact ⟨hreadable, hshort⟩

theorem merged?_normal (h : Intact depth type records) (hle : depth ≤ limit + 1)
    (hfield : ⟨number, .message inner, .optional⟩ ∈ Standard.schema.fieldsOf type) :
    merged? limit number (Standard.schema.normal depth type records) =
      (merged? limit number records).map (Standard.schema.normal (depth - 1) inner) := by
  obtain ⟨elements, hunpack, -⟩ := Schema.readable_iff.mp h.readable
  have hnormal := Schema.submessages_normal Standard.regular h.readable h.short hfield rfl hle
  rw [Schema.submessages_eq_merged? Standard.regular
      (Schema.unpack_normal Standard.regular hunpack) hfield rfl rfl,
    Schema.submessages_eq_merged? Standard.regular hunpack hfield rfl rfl] at hnormal
  simpa using congrArg List.head? hnormal

theorem intact_merged (h : Intact depth type records) (hle : depth ≤ limit + 1)
    (hfield : ⟨number, .message inner, .optional⟩ ∈ Standard.schema.fieldsOf type)
    {members : List Record} (hmembers : merged? limit number records = some members) :
    Intact (depth - 1) inner members := by
  obtain ⟨elements, hunpack, -⟩ := Schema.readable_iff.mp h.readable
  obtain ⟨hreadable, hshort⟩ := Schema.submessage_facts Standard.regular h.readable h.short hfield
    rfl hle members (by
      rw [Schema.submessages_eq_merged? Standard.regular hunpack hfield rfl rfl, hmembers]
      simp)
  exact ⟨hreadable, hshort⟩

end

end SchemaGen.Descriptor
