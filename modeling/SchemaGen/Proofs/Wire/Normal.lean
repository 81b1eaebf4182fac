import Mathlib.Data.List.Forall2
import SchemaGen.Proofs.Wire.Elements

/-!
# Normal forms

The normal form of records under a type is what they are once read and written again. It is readable
when they are (`Schema.readable_normal`), it is its own normal form (`Schema.normal_normal`), and a
greater depth does not change it (`Schema.normal_mono`).
-/

namespace SchemaGen.Wire.Schema

variable {schema : Schema} {type : String}

-- ---------------------------------------------------------------------------
-- The parts of a normal form
-- ---------------------------------------------------------------------------

def written (schema : Schema) : (depth : Nat) → FieldSpec → List Record → List Record
  | 0, field, values => scalars field values
  | depth + 1, field, values =>
    match field.kind.messageType? with
    | none => scalars field values
    | some inner =>
      (field.submessages depth values).map fun members =>
        field.wrap (schema.normal depth inner members)

theorem normal_eq (schema : Schema) (depth : Nat) (type : String) (records : List Record) :
    schema.normal depth type records =
      ((schema.sortedFields type).flatMap fun field =>
        schema.written depth field (schema.values type field records)) ++
      schema.unclaimed type records := by
  cases depth <;> rfl

theorem mem_scalars {field : FieldSpec} {values : List Record} {record : Record}
    (h : record ∈ scalars field values) :
    ∃ value ∈ values, record = field.kind.canonical value := by
  have hmap : record ∈ values.map field.kind.canonical := by
    rw [scalars] at h
    split at h
    · exact h
    · exact List.mem_of_getLast? (Option.mem_toList.mp h)
  obtain ⟨value, hvalue, rfl⟩ := List.mem_map.mp hmap
  exact ⟨value, hvalue, rfl⟩

theorem claims_wrap {field : FieldSpec} {inner : String}
    (hinner : field.kind.messageType? = some inner)
    (hshape : field.kind.shape ≠ .group) (members : List Record) :
    field.claims (field.wrap members) = true := by
  cases hkind : field.kind with
  | message type =>
    simp [FieldSpec.wrap, FieldSpec.claims, hkind, Record.number, Record.shape, Kind.shape,
      Kind.admits]
  | group type => exact absurd (by rw [hkind]; rfl) hshape
  | _ => rw [hkind] at hinner; cases hinner

theorem claims_written {depth : Nat} {field : FieldSpec} (hshape : field.kind.shape ≠ .group)
    {values : List Record} (hvalues : ∀ value ∈ values, field.claims value = true)
    {record : Record} (h : record ∈ schema.written depth field values) :
    field.claims record = true := by
  have hscalars : record ∈ scalars field values → field.claims record = true := by
    intro h
    obtain ⟨value, hvalue, rfl⟩ := mem_scalars h
    rw [FieldSpec.claims_canonical, hvalues value hvalue]
  cases depth with
  | zero => exact hscalars h
  | succ depth =>
    rw [written] at h
    split at h
    · exact hscalars h
    · next inner hinner =>
      obtain ⟨members, -, rfl⟩ := List.mem_map.mp h
      exact claims_wrap hinner hshape _

theorem claims_of_mem_values {field : FieldSpec} {records : List Record} {value : Record}
    (h : value ∈ schema.values type field records) : field.claims value = true :=
  (List.mem_filter.mp h).2

section

variable {depth : Nat} {records : List Record}

theorem mem_normal {record : Record} :
    record ∈ schema.normal depth type records ↔
      (∃ field ∈ schema.fieldsOf type,
        record ∈ schema.written depth field (schema.values type field records)) ∨
      record ∈ schema.unclaimed type records := by
  simp only [normal_eq, List.mem_append, List.mem_flatMap, mem_sortedFields]

theorem isSettled_normal (h : schema.Regular) {elements : List Record}
    (hunpack : schema.unpack type records = some elements) :
    ∀ record ∈ schema.normal depth type records, schema.IsSettled type record := by
  intro record hrecord
  rcases mem_normal.mp hrecord with ⟨field, hfield, hwritten⟩ | hunclaimed
  · have hclaims := claims_written (h.shape type field hfield)
      (fun value => claims_of_mem_values) hwritten
    obtain ⟨hnumber, hshape, -⟩ := FieldSpec.claims_iff.mp hclaims
    exact isSettled_of_shape h hfield hnumber hshape
  · rw [unclaimed_eq, elements_of_unpack hunpack] at hunclaimed
    obtain ⟨element, helement, hkept⟩ := List.mem_filterMap.mp hunclaimed
    obtain ⟨_, -, pieces, hpieces, hpiece⟩ := mem_of_unpack h hunpack helement
    exact isSettled_kept h hkept (piece_of_pieces? hpieces hpiece).1

theorem unpack_normal (h : schema.Regular) {elements : List Record}
    (hunpack : schema.unpack type records = some elements) :
    schema.unpack type (schema.normal depth type records) =
      some (schema.normal depth type records) :=
  unpack_of_isSettled h (isSettled_normal h hunpack)

theorem filter_flatMap_of_mem {fields : List FieldSpec} {field : FieldSpec}
    (hnodup : (fields.map FieldSpec.number).Nodup) (hfield : field ∈ fields)
    {parts : FieldSpec → List Record} {test : Record → Bool}
    (hown : ∀ record ∈ parts field, test record = true)
    (hother : ∀ other ∈ fields, other.number ≠ field.number → ∀ record ∈ parts other,
      test record = false) :
    (fields.flatMap parts).filter test = parts field := by
  induction fields with
  | nil => cases hfield
  | cons first more ih =>
    obtain ⟨hfresh, hnodup⟩ := List.nodup_cons.mp hnodup
    obtain ⟨hfirst, hmore⟩ := List.forall_mem_cons.mp hother
    rw [List.flatMap_cons, List.filter_append]
    rcases List.mem_cons.mp hfield with rfl | hlater
    · have hrest : (more.flatMap parts).filter test = [] := by
        simp only [List.filter_eq_nil_iff, List.mem_flatMap, forall_exists_index, and_imp]
        intro record other hmem hrecord
        have hne : other.number ≠ field.number := fun heq =>
          hfresh (heq ▸ List.mem_map_of_mem hmem)
        simp [hmore other hmem hne record hrecord]
      rw [hrest, List.append_nil, List.filter_eq_self.mpr hown]
    · have hne : first.number ≠ field.number := fun heq =>
        hfresh (heq ▸ List.mem_map_of_mem hlater)
      have hnone : (parts first).filter test = [] :=
        List.filter_eq_nil_iff.mpr fun record hrecord => by simp [hfirst hne record hrecord]
      rw [hnone, List.nil_append]
      exact ih hnodup hlater hmore

theorem number_of_mem_written (h : schema.Regular) {field : FieldSpec}
    (hfield : field ∈ schema.fieldsOf type) {record : Record}
    (hrecord : record ∈ schema.written depth field (schema.values type field records)) :
    record.number = field.number :=
  (FieldSpec.claims_iff.mp (claims_written (h.shape type field hfield)
    (fun _ => claims_of_mem_values) hrecord)).1

theorem values_normal (h : schema.Regular) {elements : List Record}
    (hunpack : schema.unpack type records = some elements) {field : FieldSpec}
    (hfield : field ∈ schema.fieldsOf type) :
    schema.values type field (schema.normal depth type records) =
      schema.written depth field (schema.values type field records) := by
  have hleft : (schema.unclaimed type records).filter field.claims = [] := by
    refine List.filter_eq_nil_iff.mpr fun record hrecord => ?_
    obtain ⟨element, -, hkept⟩ := List.mem_filterMap.mp hrecord
    simp [claims_kept h hkept field hfield]
  have hnodup := ((sortedFields_perm schema type).map FieldSpec.number).nodup_iff.mpr (h.nodup type)
  rw [values, elements_of_unpack (unpack_normal h hunpack), normal_eq, List.filter_append, hleft,
    List.append_nil]
  refine filter_flatMap_of_mem hnodup (mem_sortedFields.mpr hfield) ?_ ?_
  · exact fun record => claims_written (h.shape type field hfield) fun _ => claims_of_mem_values
  · intro other hother hne record hrecord
    rw [Bool.eq_false_iff]
    intro hclaims
    have hnumber := number_of_mem_written h (mem_sortedFields.mp hother) hrecord
    exact hne (hnumber.symm.trans (FieldSpec.claims_iff.mp hclaims).1)

theorem unclaimed_normal (h : schema.Regular) {elements : List Record}
    (hunpack : schema.unpack type records = some elements) :
    schema.unclaimed type (schema.normal depth type records) = schema.unclaimed type records := by
  rw [unclaimed_eq, elements_of_unpack (unpack_normal h hunpack), normal_eq,
    List.filterMap_append]
  have hclaimed : ((schema.sortedFields type).flatMap fun field =>
      schema.written depth field (schema.values type field records)).filterMap
        (schema.leftover type) = [] := by
    simp only [List.filterMap_eq_nil_iff, List.mem_flatMap, mem_sortedFields]
    rintro record ⟨field, hfield, hrecord⟩
    exact leftover_of_claims h hfield (claims_written (h.shape type field hfield)
      (fun _ => claims_of_mem_values) hrecord)
  have hkept : ∀ record ∈ schema.unclaimed type records,
      schema.leftover type record = some record := by
    intro record hrecord
    obtain ⟨element, -, hkept⟩ := List.mem_filterMap.mp hrecord
    exact leftover_kept h hkept
  rw [hclaimed, List.nil_append]
  exact (List.filterMap_congr hkept).trans List.filterMap_some

end

-- ---------------------------------------------------------------------------
-- Readable records
-- ---------------------------------------------------------------------------

/-- Whether a value of a field can be read. -/
def reads (schema : Schema) : (depth : Nat) → FieldSpec → Record → Bool
  | 0, field, value => field.kind.messageType?.isNone && field.kind.accepts value
  | depth + 1, field, value =>
    match field.kind.messageType? with
    | none => field.kind.accepts value
    | some inner =>
      match value.members? depth with
      | none => false
      | some members => schema.readable depth inner members

theorem readable_iff {depth : Nat} {records : List Record} :
    schema.readable depth type records = true ↔
      ∃ elements, schema.unpack type records = some elements ∧
        ∀ field ∈ schema.fieldsOf type, ∀ value ∈ schema.values type field records,
          schema.reads depth field value = true := by
  have hboth : schema.readable depth type records =
      match schema.unpack type records with
      | none => false
      | some elements => (schema.fieldsOf type).all fun field =>
        (elements.filter field.claims).all (schema.reads depth field) := by
    cases depth <;> rfl
  rw [hboth]
  cases hunpack : schema.unpack type records with
  | none => simp
  | some elements =>
    simp only [values, elements_of_unpack hunpack, List.all_eq_true, Option.some.injEq,
      exists_eq_left']

theorem reads_of_messageType?_eq_none {depth : Nat} {field : FieldSpec}
    (h : field.kind.messageType? = none) (value : Record) :
    schema.reads depth field value = field.kind.accepts value := by
  cases depth <;> simp [reads, h]

theorem reads_iff_of_messageType? {depth : Nat} {field : FieldSpec} {inner : String}
    (h : field.kind.messageType? = some inner) {value : Record} :
    schema.reads depth field value = true ↔ ∃ less members, depth = less + 1 ∧
      value.members? less = some members ∧ schema.readable less inner members = true := by
  cases depth with
  | zero => simp [reads, h]
  | succ depth =>
    cases hmembers : value.members? depth with
    | none => simp [reads, h, hmembers]
    | some members => simp [reads, h, hmembers]

theorem values_append (h : schema.Regular) {records others first second : List Record}
    (hfirst : schema.unpack type records = some first)
    (hsecond : schema.unpack type others = some second) (field : FieldSpec) :
    schema.values type field (records ++ others) =
      schema.values type field records ++ schema.values type field others := by
  have hboth := (unpack_append h).mpr ⟨first, second, hfirst, hsecond, rfl⟩
  simp only [values, elements_of_unpack hboth, elements_of_unpack hfirst,
    elements_of_unpack hsecond, List.filter_append]

theorem readable_append (h : schema.Regular) {depth : Nat} {records others : List Record} :
    schema.readable depth type (records ++ others) = true ↔
      schema.readable depth type records = true ∧ schema.readable depth type others = true := by
  simp only [readable_iff]
  constructor
  · rintro ⟨elements, hunpack, hreads⟩
    obtain ⟨first, second, hfirst, hsecond, rfl⟩ := (unpack_append h).mp hunpack
    simp only [values_append h hfirst hsecond, List.forall_mem_append] at hreads
    exact ⟨⟨first, hfirst, fun field hfield => (hreads field hfield).1⟩,
      second, hsecond, fun field hfield => (hreads field hfield).2⟩
  · rintro ⟨⟨first, hfirst, hreads⟩, second, hsecond, hothers⟩
    refine ⟨_, (unpack_append h).mpr ⟨first, second, hfirst, hsecond, rfl⟩, ?_⟩
    simp only [values_append h hfirst hsecond, List.forall_mem_append]
    exact fun field hfield => ⟨hreads field hfield, hothers field hfield⟩

theorem readable_nil (h : schema.Regular) (depth : Nat) (type : String) :
    schema.readable depth type [] = true := by
  have hunpack : schema.unpack type [] = some [] := unpack_of_isSettled h (by simp)
  exact readable_iff.mpr ⟨[], hunpack, by simp [values, elements_of_unpack hunpack]⟩

theorem readable_flatMap (h : schema.Regular) {depth : Nat} {α : Type} {parts : List α}
    {records : α → List Record} (hparts : ∀ part ∈ parts,
      schema.readable depth type (records part) = true) :
    schema.readable depth type (parts.flatMap records) = true := by
  induction parts with
  | nil => exact readable_nil h depth type
  | cons part more ih =>
    obtain ⟨hpart, hmore⟩ := List.forall_mem_cons.mp hparts
    rw [List.flatMap_cons]
    exact (readable_append h).mpr ⟨hpart, ih hmore⟩

-- ---------------------------------------------------------------------------
-- Submessages
-- ---------------------------------------------------------------------------

theorem submessage_of_readable (h : schema.Regular) {depth : Nat} {records : List Record}
    (hreadable : schema.readable (depth + 1) type records = true) {field : FieldSpec}
    (hfield : field ∈ schema.fieldsOf type) {inner : String}
    (hinner : field.kind.messageType? = some inner) :
    ∀ members ∈ field.submessages depth (schema.values type field records),
      schema.readable depth inner members = true ∧ ∀ record ∈ members, record.Tidy depth := by
  obtain ⟨elements, hunpack, hreads⟩ := readable_iff.mp hreadable
  have hvalue : ∀ value ∈ schema.values type field records,
      schema.readable depth inner (value.members depth) = true ∧
        ∀ record ∈ value.members depth, record.Tidy depth := by
    intro value hvalue
    obtain ⟨less, members, hless, hmembers, hread⟩ :=
      (reads_iff_of_messageType? hinner).mp (hreads field hfield value hvalue)
    cases hless
    have hshape := (FieldSpec.claims_iff.mp (claims_of_mem_values hvalue)).2.1
    rw [Record.members, hmembers, Option.getD_some]
    refine ⟨hread, ?_⟩
    cases value with
    | bytes number content => exact Record.tidy_of_readAll hmembers
    | group number group => exact absurd hshape.symm (h.shape type field hfield)
    | _ => cases hmembers
  intro members hmembers
  rw [FieldSpec.submessages] at hmembers
  split at hmembers
  · obtain ⟨value, hmem, rfl⟩ := List.mem_map.mp hmembers
    exact hvalue value hmem
  · split at hmembers
    · cases hmembers
    · cases List.mem_singleton.mp hmembers
      refine ⟨readable_flatMap h fun value hmem => (hvalue value hmem).1, ?_⟩
      intro record hrecord
      obtain ⟨value, hmem, hrecord⟩ := List.mem_flatMap.mp hrecord
      exact (hvalue value hmem).2 record hrecord

theorem tidy_normal (h : schema.Regular) {depth limit : Nat} {records elements : List Record}
    (hunpack : schema.unpack type records = some elements)
    (htidy : ∀ record ∈ records, record.Tidy limit) :
    ∀ record ∈ schema.normal depth type records, record.Tidy limit := by
  intro record hrecord
  rcases mem_normal.mp hrecord with ⟨field, hfield, hwritten⟩ | hunclaimed
  · obtain ⟨hnumber, hshape, -⟩ := FieldSpec.claims_iff.mp
      (claims_written (h.shape type field hfield) (fun _ => claims_of_mem_values) hwritten)
    refine Record.tidy_of_shape (hshape ▸ h.shape type field hfield) ?_
    rw [hnumber]
    exact h.number type field hfield
  · rw [unclaimed_eq, elements_of_unpack hunpack] at hunclaimed
    obtain ⟨element, helement, hkept⟩ := List.mem_filterMap.mp hunclaimed
    obtain ⟨source, hsource, pieces, hpieces, hpiece⟩ := mem_of_unpack h hunpack helement
    obtain ⟨-, hnumber, hshape⟩ := piece_of_pieces? hpieces hpiece
    have helement : element.Tidy limit := by
      rcases hshape with rfl | hshape
      · exact htidy _ hsource
      · exact Record.tidy_of_shape hshape (hnumber ▸ (htidy source hsource).number)
    obtain ⟨-, rfl | ⟨field, hfield, -, hfieldShape, rfl⟩⟩ := leftover_cases h hkept
    · exact helement
    · refine Record.tidy_of_shape ?_ (by simpa using helement.number)
      rw [Kind.shape_keep, hfieldShape]
      exact h.shape type field hfield

theorem members?_wrap (h : schema.Regular) {field : FieldSpec}
    (hfield : field ∈ schema.fieldsOf type) {inner : String}
    (hinner : field.kind.messageType? = some inner) {depth : Nat} {members : List Record}
    (htidy : ∀ record ∈ members, record.Tidy depth)
    (hshort : Record.IsShort (Record.encodeAll members)) :
    (field.wrap members).members? depth = some members := by
  cases hkind : field.kind with
  | message type =>
    rw [FieldSpec.wrap, hkind]
    exact Record.readAll_encodeAll htidy hshort
  | group type => exact absurd (by rw [hkind]; rfl) (h.shape _ field hfield)
  | _ => rw [hkind] at hinner; cases hinner

theorem written_of_messageType? {depth : Nat} {field : FieldSpec} {inner : String}
    (h : field.kind.messageType? = some inner) (values : List Record) :
    schema.written (depth + 1) field values = (field.submessages depth values).map fun members =>
      field.wrap (schema.normal depth inner members) := by
  simp [written, h]

theorem written_of_messageType?_eq_none {depth : Nat} {field : FieldSpec}
    (h : field.kind.messageType? = none) (values : List Record) :
    schema.written depth field values = scalars field values := by
  cases depth <;> simp [written, h]

section

variable {depth : Nat} {records : List Record} {field : FieldSpec} {inner : String}

theorem isShort_submessage (h : schema.Regular)
    (hshort : Record.IsShort (Record.encodeAll (schema.normal (depth + 1) type records)))
    (hfield : field ∈ schema.fieldsOf type) (hinner : field.kind.messageType? = some inner)
    {members : List Record}
    (hmembers : members ∈ field.submessages depth (schema.values type field records)) :
    Record.IsShort (Record.encodeAll (schema.normal depth inner members)) := by
  have hmem : field.wrap (schema.normal depth inner members) ∈
      schema.normal (depth + 1) type records := by
    refine mem_normal.mpr (.inl ⟨field, hfield, ?_⟩)
    rw [written_of_messageType? hinner]
    exact List.mem_map_of_mem hmembers
  cases hkind : field.kind with
  | message type =>
    rw [FieldSpec.wrap, hkind] at hmem
    exact hshort.of_bytes_mem hmem
  | group type => exact absurd (by rw [hkind]; rfl) (h.shape _ field hfield)
  | _ => rw [hkind] at hinner; cases hinner

/-- The submessages of a normal form are the normal forms of the submessages. -/
theorem submessages_written (h : schema.Regular)
    (hreadable : schema.readable (depth + 1) type records = true)
    (hshort : Record.IsShort (Record.encodeAll (schema.normal (depth + 1) type records)))
    (hfield : field ∈ schema.fieldsOf type) (hinner : field.kind.messageType? = some inner) :
    field.submessages depth (schema.written (depth + 1) field
        (schema.values type field records)) =
      (field.submessages depth (schema.values type field records)).map
        (schema.normal depth inner) := by
  have hback : ∀ members ∈ field.submessages depth (schema.values type field records),
      (field.wrap (schema.normal depth inner members)).members depth =
        schema.normal depth inner members := by
    intro members hmembers
    obtain ⟨hread, htidy⟩ := submessage_of_readable h hreadable hfield hinner members hmembers
    obtain ⟨elements, hunpack, -⟩ := readable_iff.mp hread
    rw [Record.members, members?_wrap h hfield hinner (tidy_normal h hunpack htidy)
      (isShort_submessage h hshort hfield hinner hmembers), Option.getD_some]
  rw [written_of_messageType? hinner]
  generalize schema.values type field records = values at hback
  cases hrepeated : field.isRepeated with
  | true =>
    simp only [FieldSpec.submessages, hrepeated, if_true, List.map_map] at hback ⊢
    refine List.map_congr_left fun value hvalue => ?_
    exact hback _ (List.mem_map_of_mem hvalue)
  | false =>
    cases values with
    | nil => simp [FieldSpec.submessages, hrepeated]
    | cons value more =>
      simp only [FieldSpec.submessages, hrepeated, Bool.false_eq_true, if_false, List.isEmpty_cons,
        List.mem_singleton, forall_eq, List.map_cons, List.map_nil, List.flatMap_cons,
        List.flatMap_nil, List.append_nil] at hback ⊢
      rw [hback]

end

-- ---------------------------------------------------------------------------
-- Reading and writing again
-- ---------------------------------------------------------------------------

theorem readable_normal (h : schema.Regular) {depth : Nat} {type : String} {records : List Record}
    (hreadable : schema.readable depth type records = true)
    (hshort : Record.IsShort (Record.encodeAll (schema.normal depth type records))) :
    schema.readable depth type (schema.normal depth type records) = true := by
  induction depth using Nat.strongRecOn generalizing type records with
  | _ depth ih =>
    obtain ⟨elements, hunpack, hreads⟩ := readable_iff.mp hreadable
    refine readable_iff.mpr ⟨_, unpack_normal h hunpack, fun field hfield value hvalue => ?_⟩
    rw [values_normal h hunpack hfield] at hvalue
    cases hinner : field.kind.messageType? with
    | none =>
      rw [written_of_messageType?_eq_none hinner] at hvalue
      obtain ⟨source, hsource, rfl⟩ := mem_scalars hvalue
      have haccepts := hreads field hfield source hsource
      rw [reads_of_messageType?_eq_none hinner] at haccepts ⊢
      rwa [Kind.accepts_canonical]
    | some inner =>
      cases depth with
      | zero =>
        obtain ⟨source, hsource, rfl⟩ := mem_scalars hvalue
        obtain ⟨less, -, hless, -⟩ :=
          (reads_iff_of_messageType? hinner).mp (hreads field hfield source hsource)
        cases hless
      | succ depth =>
        rw [written_of_messageType? hinner] at hvalue
        obtain ⟨members, hmembers, rfl⟩ := List.mem_map.mp hvalue
        obtain ⟨hread, htidy⟩ := submessage_of_readable h hreadable hfield hinner members hmembers
        obtain ⟨inside, hinside, -⟩ := readable_iff.mp hread
        have hshort := isShort_submessage h hshort hfield hinner hmembers
        exact (reads_iff_of_messageType? hinner).mpr ⟨depth, _, rfl,
          members?_wrap h hfield hinner (tidy_normal h hinside htidy) hshort,
          ih depth (Nat.lt_succ_self depth) hread hshort⟩

theorem scalars_scalars (field : FieldSpec) (values : List Record) :
    scalars field (scalars field values) = scalars field values := by
  cases hrepeated : field.isRepeated with
  | true => simp [scalars, hrepeated]
  | false =>
    simp only [scalars, hrepeated, Bool.false_eq_true, if_false, List.getLast?_map]
    cases values.getLast? <;> simp

theorem normal_normal (h : schema.Regular) {depth : Nat} {type : String} {records : List Record}
    (hreadable : schema.readable depth type records = true)
    (hshort : Record.IsShort (Record.encodeAll (schema.normal depth type records))) :
    schema.normal depth type (schema.normal depth type records) =
      schema.normal depth type records := by
  induction depth using Nat.strongRecOn generalizing type records with
  | _ depth ih =>
    obtain ⟨elements, hunpack, -⟩ := readable_iff.mp hreadable
    have hfields : ∀ field ∈ schema.sortedFields type,
        schema.written depth field (schema.values type field (schema.normal depth type records)) =
          schema.written depth field (schema.values type field records) := by
      intro field hfield
      rw [mem_sortedFields] at hfield
      rw [values_normal h hunpack hfield]
      cases hinner : field.kind.messageType? with
      | none => simp only [written_of_messageType?_eq_none hinner, scalars_scalars]
      | some inner =>
        cases depth with
        | zero => exact scalars_scalars field _
        | succ depth =>
          rw [written_of_messageType? hinner, submessages_written h hreadable hshort hfield hinner,
            written_of_messageType? hinner, List.map_map]
          refine List.map_congr_left fun members hmembers => ?_
          have hread := (submessage_of_readable h hreadable hfield hinner members hmembers).1
          exact congrArg field.wrap (ih depth (Nat.lt_succ_self depth) hread
            (isShort_submessage h hshort hfield hinner hmembers))
    rw [normal_eq, unclaimed_normal h hunpack, List.flatMap_congr hfields, ← normal_eq]

theorem members?_mono {depth more : Nat} (hle : depth ≤ more) {value : Record}
    {members : List Record} (h : value.members? depth = some members) :
    value.members? more = some members := by
  cases value with
  | bytes number content => exact Record.readAll_mono hle h
  | group number group => exact h
  | _ => cases h

theorem readable_mono {depth more : Nat} (hle : depth ≤ more) {type : String}
    {records : List Record} (h : schema.readable depth type records = true) :
    schema.readable more type records = true := by
  induction depth using Nat.strongRecOn generalizing more type records with
  | _ depth ih =>
    obtain ⟨elements, hunpack, hreads⟩ := readable_iff.mp h
    refine readable_iff.mpr ⟨elements, hunpack, fun field hfield value hvalue => ?_⟩
    have hvalue := hreads field hfield value hvalue
    cases hinner : field.kind.messageType? with
    | none => rwa [reads_of_messageType?_eq_none hinner] at hvalue ⊢
    | some inner =>
      obtain ⟨less, members, rfl, hmembers, hread⟩ := (reads_iff_of_messageType? hinner).mp hvalue
      obtain ⟨more, rfl⟩ : ∃ less, more = less + 1 := ⟨more - 1, by omega⟩
      exact (reads_iff_of_messageType? hinner).mpr ⟨more, members, rfl,
        members?_mono (by omega) hmembers, ih less (Nat.lt_succ_self less) (by omega) hread⟩

theorem values_eq_nil_or_depth {depth : Nat} {records : List Record}
    (h : schema.readable depth type records = true) {field : FieldSpec}
    (hfield : field ∈ schema.fieldsOf type) {inner : String}
    (hinner : field.kind.messageType? = some inner) :
    schema.values type field records = [] ∨ ∃ less, depth = less + 1 := by
  obtain ⟨elements, -, hreads⟩ := readable_iff.mp h
  cases hvalues : schema.values type field records with
  | nil => exact .inl rfl
  | cons value rest =>
    obtain ⟨less, -, hdepth, -⟩ :=
      (reads_iff_of_messageType? hinner).mp (hreads field hfield value (by simp [hvalues]))
    exact .inr ⟨less, hdepth⟩

theorem submessages_mono {depth more : Nat} (hle : depth ≤ more) {records : List Record}
    (h : schema.readable (depth + 1) type records = true) {field : FieldSpec}
    (hfield : field ∈ schema.fieldsOf type) {inner : String}
    (hinner : field.kind.messageType? = some inner) :
    field.submessages more (schema.values type field records) =
      field.submessages depth (schema.values type field records) := by
  obtain ⟨elements, -, hreads⟩ := readable_iff.mp h
  have hmembers : ∀ value ∈ schema.values type field records,
      value.members more = value.members depth := by
    intro value hvalue
    obtain ⟨less, members, hless, hmembers, -⟩ :=
      (reads_iff_of_messageType? hinner).mp (hreads field hfield value hvalue)
    cases hless
    rw [Record.members, Record.members, hmembers, members?_mono hle hmembers]
  rw [FieldSpec.submessages, FieldSpec.submessages, List.map_congr_left hmembers,
    List.flatMap_congr hmembers]

theorem written_nil (schema : Schema) (depth : Nat) (field : FieldSpec) :
    schema.written depth field [] = [] := by
  cases depth with
  | zero => simp [written, scalars]
  | succ depth =>
    rw [written]
    split <;> simp [scalars, FieldSpec.submessages]

theorem normal_mono (h : schema.Regular) {depth more : Nat} (hle : depth ≤ more) {type : String}
    {records : List Record} (hreadable : schema.readable depth type records = true) :
    schema.normal more type records = schema.normal depth type records := by
  induction depth using Nat.strongRecOn generalizing more type records with
  | _ depth ih =>
    have hfields : ∀ field ∈ schema.sortedFields type,
        schema.written more field (schema.values type field records) =
          schema.written depth field (schema.values type field records) := by
      intro field hfield
      rw [mem_sortedFields] at hfield
      cases hinner : field.kind.messageType? with
      | none => simp only [written_of_messageType?_eq_none hinner]
      | some inner =>
        obtain hnil | ⟨less, rfl⟩ := values_eq_nil_or_depth hreadable hfield hinner
        · rw [hnil, written_nil, written_nil]
        · obtain ⟨more, rfl⟩ : ∃ less, more = less + 1 := ⟨more - 1, by omega⟩
          rw [written_of_messageType? hinner, written_of_messageType? hinner,
            submessages_mono (by omega) hreadable hfield hinner]
          refine List.map_congr_left fun members hmembers => ?_
          have hinside := (submessage_of_readable h hreadable hfield hinner members hmembers).1
          rw [ih less (Nat.lt_succ_self less) (by omega) hinside]
    rw [normal_eq, List.flatMap_congr hfields, ← normal_eq]

-- ---------------------------------------------------------------------------
-- Some of the records
-- ---------------------------------------------------------------------------

theorem readable_iff_forall (h : schema.Regular) {depth : Nat} {records : List Record} :
    schema.readable depth type records = true ↔
      ∀ record ∈ records, schema.readable depth type [record] = true := by
  induction records with
  | nil => simpa using readable_nil h depth type
  | cons record more ih =>
    rw [List.forall_mem_cons, ← ih, ← readable_append h, List.singleton_append]

/-- A test that does not depend on taking records apart may be made before or after that. -/
theorem unpack_filter (h : schema.Regular) {records elements : List Record}
    (hunpack : schema.unpack type records = some elements) {test : Record → Bool}
    (htest : ∀ record pieces, schema.pieces? type record = some pieces →
      ∀ piece ∈ pieces, test piece = test record) :
    schema.unpack type (records.filter test) = some (elements.filter test) := by
  induction records generalizing elements with
  | nil =>
    cases (unpack_nil h).mp hunpack
    exact hunpack
  | cons record more ih =>
    obtain ⟨pieces, rest, hpieces, hmore, rfl⟩ := (unpack_cons h).mp hunpack
    have hsame := htest record pieces hpieces
    rw [List.filter_append]
    cases hrecord : test record with
    | true =>
      rw [hrecord] at hsame
      rw [List.filter_cons_of_pos hrecord, List.filter_eq_self.mpr hsame]
      exact (unpack_cons h).mpr ⟨pieces, _, hpieces, ih hmore, rfl⟩
    | false =>
      have hnone : pieces.filter test = [] :=
        List.filter_eq_nil_iff.mpr fun piece hpiece => by simp [hsame piece hpiece, hrecord]
      rw [List.filter_cons_of_neg (by simp [hrecord]), hnone]
      exact ih hmore

theorem filter_eq_self_or_nil {test : Record → Bool} {value : Bool} {records : List Record}
    (h : ∀ record ∈ records, test record = value) :
    records.filter test = if value then records else [] := by
  cases value with
  | true => exact List.filter_eq_self.mpr h
  | false => exact List.filter_eq_nil_iff.mpr fun record hrecord => by simp [h record hrecord]

section

variable {depth : Nat} {records elements : List Record} {test : Record → Bool}

theorem filter_written (h : schema.Regular) (hunpack : schema.unpack type records = some elements)
    (hfiltered : schema.unpack type (records.filter test) = some (elements.filter test))
    {field : FieldSpec} (hfield : field ∈ schema.fieldsOf type) {value : Bool}
    (hclaimed : ∀ record, field.claims record = true → test record = value) :
    (schema.written depth field (schema.values type field records)).filter test =
      schema.written depth field (schema.values type field (records.filter test)) := by
  have hvalues : schema.values type field (records.filter test) =
      (schema.values type field records).filter test := by
    simp only [values, elements_of_unpack hfiltered, elements_of_unpack hunpack,
      List.filter_filter, Bool.and_comm]
  rw [hvalues, filter_eq_self_or_nil fun record hrecord =>
      hclaimed record (claims_written (h.shape type field hfield)
        (fun _ => claims_of_mem_values) hrecord),
    filter_eq_self_or_nil fun record hrecord => hclaimed record (claims_of_mem_values hrecord)]
  cases value with
  | true => rfl
  | false => exact (written_nil schema depth field).symm

theorem filter_unclaimed (h : schema.Regular) (hunpack : schema.unpack type records = some elements)
    (hfiltered : schema.unpack type (records.filter test) = some (elements.filter test))
    (hleft : ∀ record, schema.IsSettled type record →
      (∀ field ∈ schema.fieldsOf type, field.claims record = false) → test record = true) :
    (schema.unclaimed type records).filter test =
      schema.unclaimed type (records.filter test) := by
  have hsettled : ∀ element ∈ elements, schema.IsSettled type element := by
    intro element helement
    obtain ⟨_, -, pieces, hpieces, hpiece⟩ := mem_of_unpack h hunpack helement
    exact (piece_of_pieces? hpieces hpiece).1
  rw [unclaimed_eq, unclaimed_eq, elements_of_unpack hunpack, elements_of_unpack hfiltered]
  have hkept : (elements.filterMap (schema.leftover type)).filter test =
      elements.filterMap (schema.leftover type) := by
    refine List.filter_eq_self.mpr fun record hrecord => ?_
    obtain ⟨element, helement, hkept⟩ := List.mem_filterMap.mp hrecord
    exact hleft record (isSettled_kept h hkept (hsettled element helement)) (claims_kept h hkept)
  rw [hkept, List.filterMap_filter]
  refine List.filterMap_congr fun element helement => ?_
  cases hleftover : schema.leftover type element with
  | none => simp
  | some kept =>
    have hunclaimed := (leftover_cases h hleftover).1
    simp [hleft element (hsettled element helement) hunclaimed]

/-- A test that tells the records of some fields from all others picks the same from a normal form
as from the records. -/
theorem filter_normal (h : schema.Regular) (hunpack : schema.unpack type records = some elements)
    {isTaken : FieldSpec → Bool}
    (htest : ∀ record pieces, schema.pieces? type record = some pieces →
      ∀ piece ∈ pieces, test piece = test record)
    (hclaimed : ∀ field ∈ schema.fieldsOf type, ∀ record, field.claims record = true →
      test record = !isTaken field)
    (hleft : ∀ record, schema.IsSettled type record →
      (∀ field ∈ schema.fieldsOf type, field.claims record = false) → test record = true) :
    (schema.normal depth type records).filter test =
      schema.normal depth type (records.filter test) := by
  have hfiltered := unpack_filter h hunpack htest
  have hfields : ∀ field ∈ schema.sortedFields type,
      (schema.written depth field (schema.values type field records)).filter test =
        schema.written depth field (schema.values type field (records.filter test)) := by
    intro field hfield
    rw [mem_sortedFields] at hfield
    exact filter_written h hunpack hfiltered hfield (hclaimed field hfield)
  rw [normal_eq, normal_eq, List.filter_append, filter_unclaimed h hunpack hfiltered hleft,
    List.filter_flatMap, List.flatMap_congr hfields]

end

end SchemaGen.Wire.Schema
