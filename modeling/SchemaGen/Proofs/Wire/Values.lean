import Mathlib.Data.List.Induction
import SchemaGen.Proofs.Wire.Normal

/-!
# Values by number

Records are read by number, without regard to a schema. The values of a field are the records under
its number (`values_eq_contents`, `values_eq_varints`), and what stands under a number in a normal
form is what stands there in the records, with messages in their normal forms.
-/

namespace SchemaGen.Wire

-- ---------------------------------------------------------------------------
-- Values by number
-- ---------------------------------------------------------------------------

namespace Record

theorem contents_append (number : Nat) (records others : List Record) :
    contents number (records ++ others) = contents number records ++ contents number others :=
  List.filterMap_append

theorem varints_append (number : Nat) (records others : List Record) :
    varints number (records ++ others) = varints number records ++ varints number others :=
  List.filterMap_append

@[simp] theorem contents_map_bytes (number : Nat) (contents : List Bytes) :
    Record.contents number (contents.map (bytes number)) = contents := by
  simp [Record.contents, List.filterMap_map]

@[simp] theorem varints_map_varint (number : Nat) (values : List UInt64) :
    varints number (values.map (varint number)) = values := by
  simp [varints, List.filterMap_map]

section

variable {α : Type} (number other : Nat) (items : List α)

theorem contents_items (content : α → Bytes) :
    contents number (items.map fun item => bytes other (content item)) =
      if other = number then items.map content else [] := by
  by_cases h : other = number <;> simp [contents, List.filterMap_map, h]

theorem contents_varints (value : α → UInt64) :
    contents number (items.map fun item => varint other (value item)) = [] := by
  simp [contents]

theorem varints_items (value : α → UInt64) :
    varints number (items.map fun item => varint other (value item)) =
      if other = number then items.map value else [] := by
  by_cases h : other = number <;> simp [varints, List.filterMap_map, h]

theorem varints_contents (content : α → Bytes) :
    varints number (items.map fun item => bytes other (content item)) = [] := by
  simp [varints]

end

theorem mem_contents {number : Nat} {content : Bytes} {records : List Record} :
    content ∈ contents number records ↔ bytes number content ∈ records := by
  constructor
  · intro h
    obtain ⟨record, hrecord, hcontent⟩ := List.mem_filterMap.mp h
    cases record with
    | bytes other _ =>
      simp only [Option.ite_none_right_eq_some, Option.some.injEq] at hcontent
      obtain ⟨rfl, rfl⟩ := hcontent
      exact hrecord
    | _ => cases hcontent
  · intro h
    exact List.mem_filterMap.mpr ⟨_, h, if_pos rfl⟩

theorem varint_mem_of_mem_varints {number : Nat} {value : UInt64} {records : List Record}
    (h : value ∈ varints number records) : varint number value ∈ records := by
  obtain ⟨record, hrecord, hvalue⟩ := List.mem_filterMap.mp h
  cases record with
  | varint other _ =>
    simp only [Option.ite_none_right_eq_some, Option.some.injEq] at hvalue
    obtain ⟨rfl, rfl⟩ := hvalue
    exact hrecord
  | _ => cases hvalue

def allVarints (number : Nat) (records : List Record) : List UInt64 :=
  records.flatMap fun
    | varint other value => if other = number then [value] else []
    | bytes other content =>
      if other = number then (readVarints content.length content).getD [] else []
    | _ => []

end Record

namespace Schema

variable {schema : Schema} {type : String} {records elements : List Record} {field : FieldSpec}

theorem values_eq_flatMap (h : schema.Regular)
    (hunpack : schema.unpack type records = some elements) (hfield : field ∈ schema.fieldsOf type)
    {own : Record → List Record} (hother : ∀ record, record.number ≠ field.number → own record = [])
    (hown : ∀ record pieces, record.number = field.number → field.unpack record = some pieces →
      pieces.filter field.claims = own record) :
    schema.values type field records = records.flatMap own := by
  have hpieces : ∀ record pieces, schema.pieces? type record = some pieces →
      pieces.filter field.claims = own record := by
    intro record pieces hpieces
    by_cases hnumber : record.number = field.number
    · rw [pieces?, (field?_eq_some_iff h).mpr ⟨hfield, hnumber.symm⟩] at hpieces
      exact hown record pieces hnumber hpieces
    · rw [hother record hnumber, List.filter_eq_nil_iff]
      intro piece hpiece hclaims
      have hsame := (piece_of_pieces? hpieces hpiece).2.1
      exact hnumber (hsame.symm.trans (FieldSpec.claims_iff.mp hclaims).1)
  rw [values, elements_of_unpack hunpack]
  induction records generalizing elements with
  | nil =>
    cases (unpack_nil h).mp hunpack
    rfl
  | cons record more ih =>
    obtain ⟨pieces, rest, hrecord, hmore, rfl⟩ := (unpack_cons h).mp hunpack
    rw [List.filter_append, List.flatMap_cons, hpieces record pieces hrecord, ih hmore]

theorem values_eq_contents (h : schema.Regular)
    (hunpack : schema.unpack type records = some elements) (hfield : field ∈ schema.fieldsOf type)
    (hshape : field.kind.shape = .bytes) :
    schema.values type field records =
      (Record.contents field.number records).map (Record.bytes field.number) := by
  rw [Record.contents, List.map_filterMap, List.filterMap_eq_flatMap_toList]
  refine values_eq_flatMap h hunpack hfield (fun record hnumber => ?_)
    fun record pieces hnumber hpieces => ?_
  · cases record <;> simp_all [Record.number]
  · cases record with
    | bytes number content =>
      have hsame : (Record.bytes number content).shape = field.kind.shape := hshape.symm
      rw [FieldSpec.unpack_of_shape hsame] at hpieces
      cases hpieces
      cases hnumber
      have hadmits : field.kind.admits (.bytes field.number content) = true := by
        unfold Kind.admits
        split <;> simp_all
      simp [FieldSpec.claims, Record.number, Record.shape, hshape, hadmits]
    | _ =>
      cases hpieces
      simp [FieldSpec.claims, Record.shape, hshape]

theorem values_eq_varints (h : schema.Regular)
    (hunpack : schema.unpack type records = some elements) (hfield : field ∈ schema.fieldsOf type)
    (hshape : field.kind.shape = .varint) (hsingle : field.isRepeated = false) :
    schema.values type field records =
      ((Record.varints field.number records).filter
        fun value => field.kind.admits (.varint field.number value)).map
          (Record.varint field.number) := by
  rw [Record.varints, List.filter_filterMap, List.map_filterMap, List.filterMap_eq_flatMap_toList]
  refine values_eq_flatMap h hunpack hfield (fun record hnumber => ?_)
    fun record pieces hnumber hpieces => ?_
  · cases record <;> simp_all [Record.number]
  · cases record with
    | varint number value =>
      cases hpieces
      obtain rfl : number = field.number := hnumber
      cases hadmits : field.kind.admits (.varint field.number value) <;>
        simp [FieldSpec.claims, Record.number, Record.shape, hshape, hadmits, Option.filter]
    | bytes number content =>
      simp only [FieldSpec.unpack, hsingle, Bool.false_eq_true, if_false] at hpieces
      cases hpieces
      simp [FieldSpec.claims, Record.shape, hshape]
    | _ =>
      cases hpieces
      simp [FieldSpec.claims, Record.shape, hshape]

theorem values_eq_allVarints (h : schema.Regular)
    (hunpack : schema.unpack type records = some elements) (hfield : field ∈ schema.fieldsOf type)
    (hshape : field.kind.shape = .varint) (hrepeated : field.isRepeated = true)
    (hadmits : ∀ record, field.kind.admits record = true) :
    schema.values type field records =
      (Record.allVarints field.number records).map (Record.varint field.number) := by
  rw [Record.allVarints, List.map_flatMap]
  refine values_eq_flatMap h hunpack hfield (fun record hnumber => ?_)
    fun record pieces hnumber hpieces => ?_
  · cases record <;> simp_all [Record.number]
  · cases record with
    | varint number value =>
      cases hpieces
      cases hnumber
      simp [FieldSpec.claims, Record.number, Record.shape, hshape, hadmits]
    | bytes number content =>
      cases hnumber
      simp only [FieldSpec.unpack, hrepeated, hshape, if_true] at hpieces
      obtain ⟨values, hvalues, rfl⟩ := Option.map_eq_some_iff.mp hpieces
      simp [hvalues, List.filter_map, FieldSpec.claims, Record.number, Record.shape, hshape,
        hadmits, Function.comp_def]
    | _ =>
      cases hpieces
      simp [FieldSpec.claims, Record.shape, hshape]

-- ---------------------------------------------------------------------------
-- Values in normal forms
-- ---------------------------------------------------------------------------

theorem canonical_bytes (kind : Kind) (number : Nat) (content : Bytes) :
    kind.canonical (.bytes number content) = .bytes number content := by
  unfold Kind.canonical
  split <;> simp_all

/-- The bits with which a varint of the kind is written. -/
def canonicalBits : Kind → UInt64 → UInt64
  | .bool, value => if value = 0 then 0 else 1
  | .int32, value => value.toUInt32.toInt32.toInt64.toUInt64
  | .enum _, value => value.toUInt32.toInt32.toInt64.toUInt64
  | .uint32, value => value.toUInt32.toUInt64
  | .sint32, value => value.toUInt32.toUInt64
  | _, value => value

theorem canonical_varint (kind : Kind) (number : Nat) (value : UInt64) :
    kind.canonical (.varint number value) = .varint number (canonicalBits kind value) := by
  cases kind <;> rfl

theorem scalars_map_bytes (field : FieldSpec) (number : Nat) (contents : List Bytes) :
    scalars field (contents.map (Record.bytes number)) =
      (if field.isRepeated then contents else contents.getLast?.toList).map
        (Record.bytes number) := by
  cases hrepeated : field.isRepeated with
  | true => simp [scalars, hrepeated, canonical_bytes]
  | false =>
    cases hlast : contents.getLast? <;> simp [scalars, hrepeated, canonical_bytes, hlast]

theorem scalars_map_varint (field : FieldSpec) (number : Nat) (values : List UInt64) :
    scalars field (values.map (Record.varint number)) =
      ((if field.isRepeated then values else values.getLast?.toList).map
        (canonicalBits field.kind)).map (Record.varint number) := by
  cases hrepeated : field.isRepeated with
  | true => simp [scalars, hrepeated, canonical_varint]
  | false => cases hlast : values.getLast? <;> simp [scalars, hrepeated, canonical_varint, hlast]

/-- Of contents that are no messages the last one is written, or all if repeated. -/
theorem contents_normal (h : schema.Regular)
    (hunpack : schema.unpack type records = some elements) (hfield : field ∈ schema.fieldsOf type)
    (hshape : field.kind.shape = .bytes) (hscalar : field.kind.messageType? = none) (depth : Nat) :
    Record.contents field.number (schema.normal depth type records) =
      if field.isRepeated then Record.contents field.number records
      else (Record.contents field.number records).getLast?.toList := by
  have hvalues : schema.values type field (schema.normal depth type records) = _ :=
    values_normal h hunpack hfield
  rw [values_eq_contents h (unpack_normal h hunpack) hfield hshape,
    values_eq_contents h hunpack hfield hshape, written_of_messageType?_eq_none hscalar,
    scalars_map_bytes] at hvalues
  rw [← Record.contents_map_bytes field.number (Record.contents field.number _), hvalues,
    Record.contents_map_bytes]

theorem messageType?_of_varint {kind : Kind} (h : kind.shape = .varint) :
    kind.messageType? = none := by
  cases kind <;> first | rfl | cases h

theorem admitted_normal (h : schema.Regular)
    (hunpack : schema.unpack type records = some elements) (hfield : field ∈ schema.fieldsOf type)
    (hshape : field.kind.shape = .varint) (hsingle : field.isRepeated = false) (depth : Nat) :
    (Record.varints field.number (schema.normal depth type records)).filter
        (fun value => field.kind.admits (.varint field.number value)) =
      ((Record.varints field.number records).filter
        fun value => field.kind.admits (.varint field.number value)).getLast?.toList.map
          (canonicalBits field.kind) := by
  have hvalues : schema.values type field (schema.normal depth type records) = _ :=
    values_normal h hunpack hfield
  rw [values_eq_varints h (unpack_normal h hunpack) hfield hshape hsingle,
    values_eq_varints h hunpack hfield hshape hsingle,
    written_of_messageType?_eq_none (messageType?_of_varint hshape), scalars_map_varint,
    hsingle] at hvalues
  rw [← Record.varints_map_varint field.number (List.filter _ _), hvalues,
    Record.varints_map_varint]
  rfl

/-- What is read from the last varint under a number is read from the normal form too, when it
depends on what the kind of the field makes of the varint and nothing is read from a varint that the
kind refuses. -/
theorem getLast?_varints_normal (h : schema.Regular)
    (hunpack : schema.unpack type records = some elements) (hfield : field ∈ schema.fieldsOf type)
    (hshape : field.kind.shape = .varint) (hsingle : field.isRepeated = false) (depth : Nat)
    {α : Type} (read : UInt64 → Option α)
    (hread : ∀ value, (read value).isSome = field.kind.admits (.varint field.number value))
    (hcanonical : ∀ value, read (canonicalBits field.kind value) = read value) :
    ((Record.varints field.number (schema.normal depth type records)).filterMap read).getLast? =
      ((Record.varints field.number records).filterMap read).getLast? := by
  -- only admitted values count, and of those the last one
  have hlast : ∀ values : List UInt64, (values.filterMap read).getLast? =
      (values.filter fun value => field.kind.admits (.varint field.number value)).getLast?.bind
        read := by
    intro values
    induction values using List.reverseRecOn with
    | nil => rfl
    | append_singleton values value ih =>
      cases hvalue : read value with
      | none => simp [← hread, hvalue, ih]
      | some result => simp [← hread, hvalue]
  rw [hlast, hlast, admitted_normal h hunpack hfield hshape hsingle]
  cases ((Record.varints field.number records).filter
    fun value => field.kind.admits (.varint field.number value)).getLast? with
  | none => rfl
  | some value => simp [hcanonical]

theorem allVarints_normal (h : schema.Regular)
    (hunpack : schema.unpack type records = some elements) (hfield : field ∈ schema.fieldsOf type)
    (hshape : field.kind.shape = .varint) (hrepeated : field.isRepeated = true)
    (hadmits : ∀ record, field.kind.admits record = true) (depth : Nat) :
    Record.allVarints field.number (schema.normal depth type records) =
      (Record.allVarints field.number records).map (canonicalBits field.kind) := by
  have hvalues : schema.values type field (schema.normal depth type records) = _ :=
    values_normal h hunpack hfield
  rw [values_eq_allVarints h (unpack_normal h hunpack) hfield hshape hrepeated hadmits,
    values_eq_allVarints h hunpack hfield hshape hrepeated hadmits,
    written_of_messageType?_eq_none (messageType?_of_varint hshape), scalars_map_varint,
    hrepeated] at hvalues
  rw [← Record.varints_map_varint field.number (Record.allVarints field.number _), hvalues,
    Record.varints_map_varint]
  rfl

-- ---------------------------------------------------------------------------
-- Messages in normal forms
-- ---------------------------------------------------------------------------

section

variable {depth limit : Nat} {inner : String}

theorem submessages_normal (h : schema.Regular)
    (hreadable : schema.readable depth type records = true)
    (hshort : Record.IsShort (Record.encodeAll (schema.normal depth type records)))
    (hfield : field ∈ schema.fieldsOf type) (hinner : field.kind.messageType? = some inner)
    (hle : depth ≤ limit + 1) :
    field.submessages limit (schema.values type field (schema.normal depth type records)) =
      (field.submessages limit (schema.values type field records)).map
        (schema.normal (depth - 1) inner) := by
  obtain ⟨elements, hunpack, -⟩ := readable_iff.mp hreadable
  obtain hnil | ⟨less, rfl⟩ := values_eq_nil_or_depth hreadable hfield hinner
  · rw [values_normal h hunpack hfield, hnil, written_nil]
    simp [FieldSpec.submessages]
  · have hnormal := readable_normal h hreadable hshort
    rw [submessages_mono (by omega) hnormal hfield hinner,
      submessages_mono (by omega) hreadable hfield hinner, values_normal h hunpack hfield,
      submessages_written h hreadable hshort hfield hinner]
    rfl

theorem submessage_facts (h : schema.Regular)
    (hreadable : schema.readable depth type records = true)
    (hshort : Record.IsShort (Record.encodeAll (schema.normal depth type records)))
    (hfield : field ∈ schema.fieldsOf type) (hinner : field.kind.messageType? = some inner)
    (hle : depth ≤ limit + 1) :
    ∀ members ∈ field.submessages limit (schema.values type field records),
      schema.readable (depth - 1) inner members = true ∧
        Record.IsShort (Record.encodeAll (schema.normal (depth - 1) inner members)) := by
  intro members hmembers
  obtain hnil | ⟨less, rfl⟩ := values_eq_nil_or_depth hreadable hfield hinner
  · rw [hnil] at hmembers
    simp [FieldSpec.submessages] at hmembers
  · rw [submessages_mono (by omega) hreadable hfield hinner] at hmembers
    exact ⟨(submessage_of_readable h hreadable hfield hinner members hmembers).1,
      isShort_submessage h hshort hfield hinner hmembers⟩

end

end Schema

end SchemaGen.Wire
