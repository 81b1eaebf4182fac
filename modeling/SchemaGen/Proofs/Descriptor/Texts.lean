import SchemaGen.Proofs.Descriptor.Layout
import SchemaGen.Proofs.Wire.Replacement

/-!
# Messages in UTF-8

Strings in descriptors are not checked when they are read. A message whose strings are all UTF-8
(`Descriptor.holdsTexts`) is one that could also be read if they were. The values of extensions are
not among them, since the standard schema does not know their types.
-/

namespace SchemaGen

namespace Wire

-- ---------------------------------------------------------------------------
-- Checked strings
-- ---------------------------------------------------------------------------

def Kind.strict : Kind → Kind
  | string _ => string true
  | kind => kind

@[simp] theorem Kind.shape_strict (kind : Kind) : kind.strict.shape = kind.shape := by
  cases kind <;> rfl

@[simp] theorem Kind.admits_strict (kind : Kind) (record : Record) :
    kind.strict.admits record = kind.admits record := by
  cases kind <;> rfl

def FieldSpec.strict (field : FieldSpec) : FieldSpec := { field with kind := field.kind.strict }

theorem FieldSpec.claims_strict (field : FieldSpec) (record : Record) :
    field.strict.claims record = field.claims record := by
  simp [FieldSpec.claims, FieldSpec.strict]

namespace Schema

variable {schema : Schema} {type : String}

/-- The schema in which every string is checked. -/
def strict (schema : Schema) : Schema :=
  { schema with types := schema.types.map fun entry => (entry.1, entry.2.map FieldSpec.strict) }

theorem fieldsOf_strict (schema : Schema) (type : String) :
    schema.strict.fieldsOf type = (schema.fieldsOf type).map FieldSpec.strict := by
  simp only [fieldsOf, strict]
  induction schema.types with
  | nil => rfl
  | cons entry more ih =>
    rw [List.map_cons, List.lookup_cons, List.lookup_cons]
    cases type == entry.1 with
    | true => rfl
    | false => exact ih

theorem strict_mem_fieldsOf {field : FieldSpec} (h : field ∈ schema.fieldsOf type) :
    field.strict ∈ schema.strict.fieldsOf type := by
  rw [fieldsOf_strict]
  exact List.mem_map_of_mem h

theorem Regular.strict (h : schema.Regular) : schema.strict.Regular where
  sets := h.sets
  nodup type := by
    rw [fieldsOf_strict, List.map_map]
    exact h.nodup type
  number type field hfield := by
    rw [fieldsOf_strict] at hfield
    obtain ⟨plain, hplain, rfl⟩ := List.mem_map.mp hfield
    exact h.number type plain hplain
  shape type field hfield := by
    rw [fieldsOf_strict] at hfield
    obtain ⟨plain, hplain, rfl⟩ := List.mem_map.mp hfield
    simpa [FieldSpec.strict] using h.shape type plain hplain

theorem reads_of_readable (h : schema.Regular) {depth : Nat} {records : List Record}
    (hreadable : schema.readable depth type records = true) {field : FieldSpec}
    (hfield : field ∈ schema.fieldsOf type) {record : Record} (hrecord : record ∈ records)
    (hclaims : field.claims record = true) : schema.reads depth field record = true := by
  have hclaimed : ∀ value ∈ [record], field.claims value = true := by simpa using hclaims
  have hvalues := values_of_claims h hfield hclaimed hfield
  rw [if_pos rfl] at hvalues
  obtain ⟨-, -, hreads⟩ :=
    readable_iff.mp ((readable_iff_forall h).mp hreadable record hrecord)
  refine hreads field hfield record ?_
  rw [hvalues]
  exact List.mem_singleton_self record

end Schema

end Wire

namespace Descriptor

open Wire (Record Bytes Kind Cardinality)
open Standard

-- ---------------------------------------------------------------------------
-- Messages with checked strings
-- ---------------------------------------------------------------------------

/-- Whether all strings in an encoded message of a standard type are UTF-8. Bytes that are no such
message hold none. -/
def holdsTexts (type : String) (content : Bytes) : Bool :=
  (schema.decode? type content).all (schema.strict.readable Wire.Schema.maxDepth type)

section

variable {depth number : Nat} {type inner : String} {records : List Record}

theorem reads_strict (h : schema.strict.readable depth type records = true) {kind : Kind}
    (hshape : kind.shape = .bytes) {cardinality : Cardinality}
    (hfield : ⟨number, kind, cardinality⟩ ∈ schema.fieldsOf type) {content : Bytes}
    (hcontent : content ∈ Record.contents number records) :
    schema.strict.reads depth ⟨number, kind.strict, cardinality⟩ (.bytes number content) = true := by
  have hclaims : (Wire.FieldSpec.strict ⟨number, kind, cardinality⟩).claims
      (.bytes number content) = true := by
    rw [Wire.FieldSpec.claims_strict]
    cases kind <;> simp_all [Wire.FieldSpec.claims, Record.number, Record.shape, Kind.shape,
      Kind.admits]
  exact Wire.Schema.reads_of_readable regular.strict h (Wire.Schema.strict_mem_fieldsOf hfield)
    (Record.mem_contents.mp hcontent) hclaims

theorem areTexts_of_strict (h : schema.strict.readable depth type records = true) {checked : Bool}
    {cardinality : Cardinality}
    (hfield : ⟨number, .string checked, cardinality⟩ ∈ schema.fieldsOf type) :
    areTexts number records = true := by
  refine List.all_eq_true.mpr fun content hcontent => ?_
  have hreads := reads_strict h rfl hfield hcontent
  rwa [Wire.Schema.reads_of_messageType?_eq_none rfl] at hreads

theorem areTexts_of_holdsTexts {content : Bytes} (h : holdsTexts type content = true)
    (hrecords : schema.decode? type content = some records) {checked : Bool}
    {cardinality : Cardinality}
    (hfield : ⟨number, .string checked, cardinality⟩ ∈ schema.fieldsOf type) :
    areTexts number records = true :=
  areTexts_of_strict ((Option.all_eq_true _ _).mp h records hrecords) hfield

theorem lastIsText_of_areTexts (h : areTexts number records = true) :
    lastIsText number records = true := by
  rw [lastIsText, Option.all_eq_true]
  intro content hcontent
  exact List.all_eq_true.mp h content (List.mem_of_getLast? hcontent)

theorem areTexts_normal (h : areTexts number records = true)
    (hreadable : schema.readable depth type records = true) {checked : Bool}
    {cardinality : Cardinality}
    (hfield : ⟨number, .string checked, cardinality⟩ ∈ schema.fieldsOf type) :
    areTexts number (schema.normal depth type records) = true := by
  obtain ⟨elements, hunpack, -⟩ := Wire.Schema.readable_iff.mp hreadable
  rw [areTexts, Wire.Schema.contents_normal regular hunpack hfield rfl rfl depth]
  split
  · exact h
  · refine List.all_eq_true.mpr fun content hcontent => List.all_eq_true.mp h content ?_
    exact List.mem_of_getLast? (Option.mem_toList.mp hcontent)

theorem strict_child (h : schema.strict.readable (depth + 1) type records = true)
    {cardinality : Cardinality}
    (hfield : ⟨number, .message inner, cardinality⟩ ∈ schema.fieldsOf type) {members : List Record}
    (hmembers : members ∈ children depth number records) :
    schema.strict.readable depth inner members = true := by
  obtain ⟨content, hcontent, rfl⟩ := List.mem_map.mp hmembers
  obtain ⟨less, members, hless, hread, hreadable⟩ :=
    (Wire.Schema.reads_iff_of_messageType? rfl).mp (reads_strict h rfl hfield hcontent)
  obtain rfl := Nat.succ.inj hless
  rw [show Record.readAll depth content = some members from hread]
  exact hreadable

end

end Descriptor

end SchemaGen
