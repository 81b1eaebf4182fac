import SchemaGen.Proofs.Wire.Tidy

/-!
# Records under a type

What a message type makes of single records, for schemas without groups and message sets: each
record is taken apart into elements, and an element is claimed by the field of its number or left
over.
-/

namespace SchemaGen.Wire

-- ---------------------------------------------------------------------------
-- Values of a kind
-- ---------------------------------------------------------------------------

theorem toInt32_signExtended (value : Int32) :
    value.toInt64.toUInt64.toUInt32.toInt32 = value := by
  apply Int32.toBitVec_inj.mp
  ext i hi
  simp [BitVec.getLsbD_signExtend, hi]
  omega

namespace Kind

@[simp] theorem number_canonical (kind : Kind) (record : Record) :
    (kind.canonical record).number = record.number := by
  unfold canonical
  split <;> rfl

@[simp] theorem shape_canonical (kind : Kind) (record : Record) :
    (kind.canonical record).shape = record.shape := by
  unfold canonical
  split <;> rfl

@[simp] theorem admits_canonical (kind : Kind) (record : Record) :
    kind.admits (kind.canonical record) = kind.admits record := by
  cases record with
  | varint number value =>
    cases kind with
    | enum closed => cases closed <;> simp [canonical, admits, toInt32_signExtended]
    | _ => rfl
  | _ => cases kind <;> rfl

@[simp] theorem accepts_canonical (kind : Kind) (record : Record) :
    kind.accepts (kind.canonical record) = kind.accepts record := by
  cases record <;> cases kind <;> rfl

@[simp] theorem canonical_canonical (kind : Kind) (record : Record) :
    kind.canonical (kind.canonical record) = kind.canonical record := by
  cases record with
  | varint number value =>
    cases kind with
    | bool => by_cases hzero : value = 0 <;> simp [canonical, hzero]
    | _ => simp only [canonical, toInt32_signExtended, UInt32.toUInt32_toUInt64]
  | _ => cases kind <;> rfl

@[simp] theorem number_keep (kind : Kind) (record : Record) :
    (kind.keep record).number = record.number := by
  unfold keep
  split <;> rfl

@[simp] theorem shape_keep (kind : Kind) (record : Record) :
    (kind.keep record).shape = record.shape := by
  unfold keep
  split <;> rfl

@[simp] theorem admits_keep (kind : Kind) (record : Record) :
    kind.admits (kind.keep record) = kind.admits record := by
  cases record with
  | varint number value =>
    cases kind with
    | enum closed => cases closed <;> simp only [keep, admits, UInt32.toUInt32_toUInt64]
    | _ => rfl
  | _ => rcases kind with _ | _ | _ | _ | _ | _ | _ | _ | _ | _ | _ | _ | _ | ⟨_ | _⟩ | _ <;> rfl

@[simp] theorem keep_keep (kind : Kind) (record : Record) :
    kind.keep (kind.keep record) = kind.keep record := by
  cases record with
  | varint number value =>
    cases kind with
    | enum closed => cases closed <;> simp only [keep, UInt32.toUInt32_toUInt64]
    | _ => rfl
  | _ => rcases kind with _ | _ | _ | _ | _ | _ | _ | _ | _ | _ | _ | _ | _ | ⟨_ | _⟩ | _ <;> rfl

end Kind

namespace FieldSpec

theorem claims_iff {field : FieldSpec} {record : Record} :
    field.claims record = true ↔ record.number = field.number ∧
      record.shape = field.kind.shape ∧ field.kind.admits record = true := by
  simp [claims, and_assoc]

@[simp] theorem claims_canonical (field : FieldSpec) (record : Record) :
    field.claims (field.kind.canonical record) = field.claims record := by
  simp [claims]

@[simp] theorem claims_keep (field : FieldSpec) (record : Record) :
    field.claims (field.kind.keep record) = field.claims record := by
  simp [claims]

theorem unpack_of_shape {field : FieldSpec} {record : Record}
    (h : record.shape = field.kind.shape) : field.unpack record = some [record] := by
  cases record with
  | bytes number content => simp [unpack, ← h, Record.shape]
  | _ => rfl

theorem unpack_cases {field : FieldSpec} {record : Record} {pieces : List Record}
    (h : field.unpack record = some pieces) :
    pieces = [record] ∨
      field.isRepeated = true ∧ record.shape = .bytes ∧ field.kind.shape ≠ .bytes ∧
        field.kind.shape ≠ .group ∧
        ∀ piece ∈ pieces, piece.number = record.number ∧ piece.shape = field.kind.shape := by
  cases record with
  | bytes number content =>
    rw [unpack] at h
    split at h
    · next hrepeated =>
      split at h
      · next hshape =>
        obtain ⟨values, -, rfl⟩ := Option.map_eq_some_iff.mp h
        simp [hrepeated, hshape, Record.shape, Record.number]
      · next hshape =>
        obtain ⟨chunks, -, rfl⟩ := Option.map_eq_some_iff.mp h
        simp [hrepeated, hshape, Record.shape, Record.number]
      · next hshape =>
        obtain ⟨chunks, -, rfl⟩ := Option.map_eq_some_iff.mp h
        simp [hrepeated, hshape, Record.shape, Record.number]
      · exact .inl (Option.some.inj h).symm
    · exact .inl (Option.some.inj h).symm
  | _ => exact .inl (Option.some.inj h).symm

theorem unpack_of_mem {field : FieldSpec} {record piece : Record} {pieces : List Record}
    (h : field.unpack record = some pieces) (hpiece : piece ∈ pieces) :
    field.unpack piece = some [piece] ∧ piece.number = record.number ∧
      (piece = record ∨ piece.shape ≠ .group) := by
  obtain rfl | ⟨-, -, -, hgroup, hpieces⟩ := unpack_cases h
  · cases List.mem_singleton.mp hpiece
    exact ⟨h, rfl, .inl rfl⟩
  · obtain ⟨hnumber, hshape⟩ := hpieces piece hpiece
    exact ⟨unpack_of_shape hshape, hnumber, .inr (hshape ▸ hgroup)⟩

theorem insertByNumber_perm (field : FieldSpec) (fields : List FieldSpec) :
    (field.insertByNumber fields).Perm (field :: fields) := by
  induction fields with
  | nil => exact .refl _
  | cons other rest ih =>
    rw [insertByNumber]
    split
    · exact .refl _
    · exact (List.Perm.cons other ih).trans (.swap field other rest)

end FieldSpec

namespace Schema

/-- A schema without groups and message sets, in which the fields of a type differ in their numbers
and these fit into tags. -/
structure Regular (schema : Schema) : Prop where
  sets : schema.sets = []
  nodup : ∀ type, ((schema.fieldsOf type).map FieldSpec.number).Nodup
  number : ∀ type, ∀ field ∈ schema.fieldsOf type, Record.IsNumber field.number
  shape : ∀ type, ∀ field ∈ schema.fieldsOf type, field.kind.shape ≠ .group

variable {schema : Schema} {type : String}

theorem sortedFields_perm (schema : Schema) (type : String) :
    (schema.sortedFields type).Perm (schema.fieldsOf type) := by
  rw [sortedFields]
  induction schema.fieldsOf type with
  | nil => exact .refl _
  | cons field fields ih =>
    rw [List.foldr_cons]
    exact (FieldSpec.insertByNumber_perm field _).trans (ih.cons field)

theorem mem_sortedFields {field : FieldSpec} :
    field ∈ schema.sortedFields type ↔ field ∈ schema.fieldsOf type :=
  (sortedFields_perm schema type).mem_iff

theorem field?_eq_some_iff (h : schema.Regular) {number : Nat} {field : FieldSpec} :
    schema.field? type number = some field ↔
      field ∈ schema.fieldsOf type ∧ field.number = number := by
  have hnodup := h.nodup type
  rw [field?]
  constructor
  · intro hfind
    exact ⟨List.mem_of_find?_eq_some hfind, by simpa using List.find?_some hfind⟩
  · rintro ⟨hfield, rfl⟩
    generalize schema.fieldsOf type = fields at hnodup hfield
    induction fields with
    | nil => cases hfield
    | cons first more ih =>
      rw [List.map_cons, List.nodup_cons] at hnodup
      rcases List.mem_cons.mp hfield with rfl | hmore
      · simp
      · have hne : first.number ≠ field.number := fun heq =>
          hnodup.1 (heq ▸ List.mem_map_of_mem hmore)
        rw [List.find?_cons_of_neg (by simpa using hne)]
        exact ih hnodup.2 hmore

theorem Regular.eq_of_number (h : schema.Regular) {field other : FieldSpec}
    (hfield : field ∈ schema.fieldsOf type) (hother : other ∈ schema.fieldsOf type)
    (hnumber : field.number = other.number) : field = other := by
  have hfirst := (field?_eq_some_iff h).mpr ⟨hfield, hnumber⟩
  rw [(field?_eq_some_iff h).mpr ⟨hother, rfl⟩] at hfirst
  exact (Option.some.inj hfirst).symm

-- ---------------------------------------------------------------------------
-- Elements
-- ---------------------------------------------------------------------------

/-- What a record is taken apart into. -/
def pieces? (schema : Schema) (type : String) (record : Record) : Option (List Record) :=
  match schema.field? type record.number with
  | some field => field.unpack record
  | none => some [record]

theorem unpack_eq_some_iff (h : schema.Regular) {records elements : List Record} :
    schema.unpack type records = some elements ↔
      ∃ parts, records.mapM (schema.pieces? type) = some parts ∧ parts.flatten = elements := by
  simp only [unpack, unwrap, h.sets, List.contains_nil, Bool.false_eq_true, if_false,
    Option.bind_eq_bind, Option.bind_eq_some_iff, Option.pure_def, Option.some.injEq]
  rfl

theorem unpack_nil (h : schema.Regular) {elements : List Record} :
    schema.unpack type [] = some elements ↔ elements = [] := by
  simp [unpack_eq_some_iff h, eq_comm]

theorem unpack_cons (h : schema.Regular) {record : Record} {more elements : List Record} :
    schema.unpack type (record :: more) = some elements ↔
      ∃ pieces rest, schema.pieces? type record = some pieces ∧
        schema.unpack type more = some rest ∧ elements = pieces ++ rest := by
  simp only [unpack_eq_some_iff h, List.mapM_cons, Option.bind_eq_bind, Option.bind_eq_some_iff,
    Option.pure_def, Option.some.injEq]
  constructor
  · rintro ⟨_, ⟨pieces, hpieces, parts, hparts, rfl⟩, rfl⟩
    exact ⟨pieces, _, hpieces, ⟨parts, hparts, rfl⟩, List.flatten_cons⟩
  · rintro ⟨pieces, _, hpieces, ⟨parts, hparts, rfl⟩, rfl⟩
    exact ⟨_, ⟨pieces, hpieces, parts, hparts, rfl⟩, List.flatten_cons⟩

theorem unpack_append (h : schema.Regular) {records others elements : List Record} :
    schema.unpack type (records ++ others) = some elements ↔
      ∃ first second, schema.unpack type records = some first ∧
        schema.unpack type others = some second ∧ elements = first ++ second := by
  induction records generalizing elements with
  | nil => simp [unpack_nil h]
  | cons record more ih =>
    simp only [List.cons_append, unpack_cons h, ih]
    constructor
    · rintro ⟨pieces, _, hpieces, ⟨first, second, hfirst, hsecond, rfl⟩, rfl⟩
      exact ⟨_, second, ⟨pieces, first, hpieces, hfirst, rfl⟩, hsecond, by simp⟩
    · rintro ⟨_, second, ⟨pieces, first, hpieces, hfirst, rfl⟩, hsecond, rfl⟩
      exact ⟨pieces, _, hpieces, ⟨first, second, hfirst, hsecond, rfl⟩, by simp⟩

def IsSettled (schema : Schema) (type : String) (record : Record) : Prop :=
  schema.pieces? type record = some [record]

theorem unpack_of_isSettled (h : schema.Regular) {records : List Record}
    (hsettled : ∀ record ∈ records, schema.IsSettled type record) :
    schema.unpack type records = some records := by
  induction records with
  | nil => exact (unpack_nil h).mpr rfl
  | cons record more ih =>
    obtain ⟨hrecord, hmore⟩ := List.forall_mem_cons.mp hsettled
    exact (unpack_cons h).mpr ⟨[record], more, hrecord, ih hmore, rfl⟩

theorem mem_of_unpack (h : schema.Regular) {records elements : List Record}
    (hunpack : schema.unpack type records = some elements) {element : Record}
    (helement : element ∈ elements) :
    ∃ record ∈ records, ∃ pieces, schema.pieces? type record = some pieces ∧ element ∈ pieces := by
  induction records generalizing elements with
  | nil =>
    cases (unpack_nil h).mp hunpack
    cases helement
  | cons record more ih =>
    obtain ⟨pieces, rest, hpieces, hmore, rfl⟩ := (unpack_cons h).mp hunpack
    rcases List.mem_append.mp helement with hfirst | hrest
    · exact ⟨record, by simp, pieces, hpieces, hfirst⟩
    · obtain ⟨other, hother, hfound⟩ := ih hmore hrest
      exact ⟨other, by simp [hother], hfound⟩

theorem piece_of_pieces? {record piece : Record} {pieces : List Record}
    (h : schema.pieces? type record = some pieces) (hpiece : piece ∈ pieces) :
    schema.IsSettled type piece ∧ piece.number = record.number ∧
      (piece = record ∨ piece.shape ≠ .group) := by
  rw [pieces?] at h
  rw [IsSettled, pieces?]
  split at h
  · next field hfield =>
    obtain ⟨hunpack, hnumber, hshape⟩ := FieldSpec.unpack_of_mem h hpiece
    rw [hnumber, hfield]
    exact ⟨hunpack, rfl, hshape⟩
  · next hfield =>
    cases h
    cases List.mem_singleton.mp hpiece
    rw [hfield]
    exact ⟨rfl, rfl, .inl rfl⟩

theorem elements_of_unpack {records elements : List Record}
    (h : schema.unpack type records = some elements) : schema.elements type records = elements := by
  rw [Schema.elements, h, Option.getD_some]

theorem isSettled_of_shape (h : schema.Regular) {field : FieldSpec} {record : Record}
    (hfield : field ∈ schema.fieldsOf type) (hnumber : record.number = field.number)
    (hshape : record.shape = field.kind.shape) : schema.IsSettled type record := by
  rw [IsSettled, pieces?, (field?_eq_some_iff h).mpr ⟨hfield, hnumber.symm⟩]
  exact FieldSpec.unpack_of_shape hshape

-- ---------------------------------------------------------------------------
-- Claimed and unclaimed records
-- ---------------------------------------------------------------------------

def values (schema : Schema) (type : String) (field : FieldSpec) (records : List Record) :
    List Record :=
  (schema.elements type records).filter field.claims

/-- What is kept of a record that no field claims. -/
def leftover (schema : Schema) (type : String) (record : Record) : Option Record :=
  match schema.field? type record.number with
  | none => some record
  | some field =>
    if field.claims record then none
    else if record.shape = field.kind.shape then some (field.kind.keep record)
    else some record

theorem unclaimed_eq (schema : Schema) (type : String) (records : List Record) :
    schema.unclaimed type records =
      (schema.elements type records).filterMap (schema.leftover type) := rfl

theorem leftover_of_claims (h : schema.Regular) {field : FieldSpec} {record : Record}
    (hfield : field ∈ schema.fieldsOf type) (hclaims : field.claims record = true) :
    schema.leftover type record = none := by
  have hnumber := (FieldSpec.claims_iff.mp hclaims).1
  rw [leftover, (field?_eq_some_iff h).mpr ⟨hfield, hnumber.symm⟩]
  simp [hclaims]

/-- No field claims a record of which something is kept. It is kept itself or, where only its value
is refused, with the bits that were looked at. -/
theorem leftover_cases (h : schema.Regular) {record kept : Record}
    (hkept : schema.leftover type record = some kept) :
    (∀ field ∈ schema.fieldsOf type, field.claims record = false) ∧
      (kept = record ∨ ∃ field ∈ schema.fieldsOf type, record.number = field.number ∧
        record.shape = field.kind.shape ∧ kept = field.kind.keep record) := by
  rw [leftover] at hkept
  split at hkept
  · next hnone =>
    cases hkept
    refine ⟨fun field hfield => ?_, .inl rfl⟩
    rw [Bool.eq_false_iff]
    intro hclaims
    have hnumber := (FieldSpec.claims_iff.mp hclaims).1
    rw [(field?_eq_some_iff h).mpr ⟨hfield, hnumber.symm⟩] at hnone
    cases hnone
  · next field hsome =>
    obtain ⟨hfield, hnumber⟩ := (field?_eq_some_iff h).mp hsome
    split at hkept
    · cases hkept
    · next hrefused =>
      refine ⟨fun other hother => ?_, ?_⟩
      · rw [Bool.eq_false_iff]
        intro hclaims
        have hsame := (FieldSpec.claims_iff.mp hclaims).1
        cases h.eq_of_number hfield hother (hnumber.trans hsame)
        exact hrefused hclaims
      · split at hkept
        · next hshape =>
          exact .inr ⟨field, hfield, hnumber.symm, hshape, (Option.some.inj hkept).symm⟩
        · exact .inl (Option.some.inj hkept).symm

theorem leftover_kept (h : schema.Regular) {record kept : Record}
    (hkept : schema.leftover type record = some kept) :
    schema.leftover type kept = some kept := by
  obtain ⟨hclaims, rfl | ⟨field, hfield, hnumber, hshape, rfl⟩⟩ := leftover_cases h hkept
  · exact hkept
  · have hsome := (field?_eq_some_iff h).mpr ⟨hfield, hnumber.symm⟩
    simp [leftover, hsome, hclaims field hfield, hshape]

theorem claims_kept (h : schema.Regular) {record kept : Record}
    (hkept : schema.leftover type record = some kept) :
    ∀ field ∈ schema.fieldsOf type, field.claims kept = false :=
  (leftover_cases h (leftover_kept h hkept)).1

theorem isSettled_kept (h : schema.Regular) {record kept : Record}
    (hkept : schema.leftover type record = some kept) (hsettled : schema.IsSettled type record) :
    schema.IsSettled type kept := by
  obtain ⟨-, rfl | ⟨field, hfield, hnumber, hshape, rfl⟩⟩ := leftover_cases h hkept
  · exact hsettled
  · exact isSettled_of_shape h hfield (by simpa using hnumber) (by simpa using hshape)

end Schema

end SchemaGen.Wire
