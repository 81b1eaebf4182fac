import Mathlib.Data.List.Nodup
import SchemaGen.Proofs.Wire.Alike

/-!
# Replacing the parts of a message

A message is written part by part, each part for one field. Where the records of a part are replaced
by others that are alike, and that take as much room as the normal form of the part, the same holds
of the whole message (`Replaces.append`), and of the messages around it (`Replaces.messages`).
-/

namespace SchemaGen.Wire.Schema

variable {schema : Schema}

-- ---------------------------------------------------------------------------
-- Values of one field
-- ---------------------------------------------------------------------------

section

variable {type : String} {field : FieldSpec} {values : List Record}

theorem unpack_of_claims (h : schema.Regular) (hfield : field ∈ schema.fieldsOf type)
    (hclaims : ∀ value ∈ values, field.claims value = true) :
    schema.unpack type values = some values := by
  refine unpack_of_isSettled h fun value hvalue => ?_
  obtain ⟨hnumber, hshape, -⟩ := FieldSpec.claims_iff.mp (hclaims value hvalue)
  exact isSettled_of_shape h hfield hnumber hshape

theorem values_of_claims (h : schema.Regular) (hfield : field ∈ schema.fieldsOf type)
    (hclaims : ∀ value ∈ values, field.claims value = true) {other : FieldSpec}
    (hother : other ∈ schema.fieldsOf type) :
    schema.values type other values = if other = field then values else [] := by
  rw [Schema.values, elements_of_unpack (unpack_of_claims h hfield hclaims)]
  split
  · next heq => exact List.filter_eq_self.mpr (heq ▸ hclaims)
  · next hne =>
    refine List.filter_eq_nil_iff.mpr fun value hvalue hboth => ?_
    have hnumber := (FieldSpec.claims_iff.mp (hclaims value hvalue)).1
    exact hne (h.eq_of_number hother hfield
      ((FieldSpec.claims_iff.mp hboth).1.symm.trans hnumber))

theorem readable_of_claims (h : schema.Regular) (hfield : field ∈ schema.fieldsOf type)
    (hclaims : ∀ value ∈ values, field.claims value = true) {depth : Nat}
    (hreads : ∀ value ∈ values, schema.reads depth field value = true) :
    schema.readable depth type values = true := by
  refine readable_iff.mpr ⟨_, unpack_of_claims h hfield hclaims, ?_⟩
  intro other hother value hvalue
  rw [values_of_claims h hfield hclaims hother] at hvalue
  split at hvalue
  · next heq => exact heq ▸ hreads value hvalue
  · cases hvalue

theorem flatMap_eq_of_mem {α β : Type} {parts : List α} (hnodup : parts.Nodup) {part : α}
    (hpart : part ∈ parts) {items : α → List β}
    (hother : ∀ other ∈ parts, other ≠ part → items other = []) :
    parts.flatMap items = items part := by
  induction parts with
  | nil => cases hpart
  | cons first more ih =>
    obtain ⟨hfresh, hnodup⟩ := List.nodup_cons.mp hnodup
    obtain ⟨hfirst, hmore⟩ := List.forall_mem_cons.mp hother
    rw [List.flatMap_cons]
    rcases List.mem_cons.mp hpart with rfl | hlater
    · have hrest : more.flatMap items = [] := List.flatMap_eq_nil_iff.mpr fun other hmem =>
        hmore other hmem fun heq => hfresh (heq ▸ hmem)
      rw [hrest, List.append_nil]
    · rw [hfirst fun heq => hfresh (heq ▸ hlater), List.nil_append, ih hnodup hlater hmore]

theorem normal_of_claims (h : schema.Regular) (hfield : field ∈ schema.fieldsOf type)
    (hclaims : ∀ value ∈ values, field.claims value = true) (depth : Nat) :
    schema.normal depth type values = schema.written depth field values := by
  have hunclaimed : schema.unclaimed type values = [] := by
    rw [unclaimed_eq, elements_of_unpack (unpack_of_claims h hfield hclaims),
      List.filterMap_eq_nil_iff]
    exact fun value hvalue => leftover_of_claims h hfield (hclaims value hvalue)
  have hnodup : (schema.sortedFields type).Nodup :=
    (sortedFields_perm schema type).symm.nodup (List.Nodup.of_map _ (h.nodup type))
  rw [normal_eq, hunclaimed, List.append_nil,
    flatMap_eq_of_mem hnodup (mem_sortedFields.mpr hfield)]
  · rw [values_of_claims h hfield hclaims hfield, if_pos rfl]
  · intro other hother hne
    rw [values_of_claims h hfield hclaims (mem_sortedFields.mp hother), if_neg hne, written_nil]

end

-- ---------------------------------------------------------------------------
-- Room
-- ---------------------------------------------------------------------------

/-- Normal forms of parts with values of different fields take the room of the normal form of the
whole. -/
theorem length_normal_append (h : schema.Regular) {type : String}
    {records others first second : List Record}
    (hfirst : schema.unpack type records = some first)
    (hsecond : schema.unpack type others = some second)
    (hapart : ∀ field ∈ schema.fieldsOf type,
      schema.values type field records = [] ∨ schema.values type field others = []) (depth : Nat) :
    (Record.encodeAll (schema.normal depth type (records ++ others))).length =
      (Record.encodeAll (schema.normal depth type records)).length +
        (Record.encodeAll (schema.normal depth type others)).length := by
  have hwritten : ∀ fields : List FieldSpec, (∀ field ∈ fields, field ∈ schema.fieldsOf type) →
      (Record.encodeAll (fields.flatMap fun field => schema.written depth field
          (schema.values type field records ++ schema.values type field others))).length =
        (Record.encodeAll (fields.flatMap fun field =>
          schema.written depth field (schema.values type field records))).length +
        (Record.encodeAll (fields.flatMap fun field =>
          schema.written depth field (schema.values type field others))).length := by
    intro fields hfields
    induction fields with
    | nil => rfl
    | cons field more ih =>
      obtain ⟨hfield, hmore⟩ := List.forall_mem_cons.mp hfields
      simp only [List.flatMap_cons, Record.encodeAll_append, List.length_append, ih hmore]
      rcases hapart field hfield with hnil | hnil
      · simp only [hnil, List.nil_append, written_nil, Record.encodeAll, List.length_nil]
        omega
      · simp only [hnil, List.append_nil, written_nil, Record.encodeAll, List.length_nil]
        omega
  simp only [normal_eq, Record.encodeAll_append, List.length_append, values_append h hfirst hsecond,
    unclaimed_append h hfirst hsecond, hwritten _ fun _ => mem_sortedFields.mp]
  omega

theorem eq_nil_or_singleton {α : Type} {items : List α} (h : items.length ≤ 1) :
    items = [] ∨ ∃ item, items = [item] := by
  obtain hzero | hone := Nat.le_one_iff_eq_zero_or_eq_one.mp h
  · exact .inl (List.length_eq_zero_iff.mp hzero)
  · exact .inr (List.length_eq_one_iff.mp hone)

theorem length_encodeAll_map_bytes {α : Type} (number : Nat) {items : List α}
    {first second : α → Bytes} (h : ∀ item ∈ items, (first item).length = (second item).length) :
    (Record.encodeAll (items.map fun item => .bytes number (first item))).length =
      (Record.encodeAll (items.map fun item => .bytes number (second item))).length := by
  induction items with
  | nil => rfl
  | cons item more ih =>
    obtain ⟨hitem, hmore⟩ := List.forall_mem_cons.mp h
    simp [Record.encodeAll, Record.encode, Record.delimited, hitem, ih hmore]

-- ---------------------------------------------------------------------------
-- Replacements
-- ---------------------------------------------------------------------------

/-- Tidy records that are alike to others and take as much room as their normal form. -/
structure Substitute (schema : Schema) (depth : Nat) (type : String)
    (records others : List Record) : Prop extends schema.Alike depth type records others where
  tidy : ∀ record ∈ records, record.Tidy depth
  room : (Record.encodeAll records).length =
    (Record.encodeAll (schema.normal depth type others)).length

/-- Records in the place of others, which have values for the fields of the listed numbers and
shapes only. They are a substitute as long as the others and their normal form are short enough to
be read back. -/
structure Replaces (schema : Schema) (depth : Nat) (type : String) (owned : List (Nat × Shape))
    (records others : List Record) : Prop where
  tidy : ∀ record ∈ others, record.Tidy depth
  unpacks : ∃ elements, schema.unpack type others = some elements
  owns : ∀ field ∈ schema.fieldsOf type, (field.number, field.kind.shape) ∉ owned →
    schema.values type field others = []
  readable : Record.IsShort (Record.encodeAll others) → schema.readable depth type others = true
  substitute : Record.IsShort (Record.encodeAll others) →
    Record.IsShort (Record.encodeAll (schema.normal depth type others)) →
    schema.Substitute depth type records others

namespace Replaces

variable {depth : Nat} {type : String}

theorem nil (h : schema.Regular) {owned : List (Nat × Shape)} :
    schema.Replaces depth type owned [] [] := by
  have hunpack : schema.unpack type [] = some [] := (unpack_nil h).mpr rfl
  have hvalues : ∀ field, schema.values type field [] = [] := fun field => by
    rw [values, elements_of_unpack hunpack, List.filter_nil]
  have hnormal : schema.normal depth type [] = [] := by
    rw [normal_eq, unclaimed_eq, elements_of_unpack hunpack, List.filterMap_nil, List.append_nil,
      List.flatMap_eq_nil_iff]
    exact fun field _ => by rw [hvalues, written_nil]
  exact ⟨by simp, ⟨[], hunpack⟩, fun field _ _ => hvalues field, fun _ => readable_nil h depth type,
    fun _ _ => ⟨.refl (readable_nil h depth type), by simp, by rw [hnormal]⟩⟩

/-- Parts are replaced side by side where they have values of different fields. -/
theorem append (h : schema.Regular) {owned foreign : List (Nat × Shape)}
    {records others more rest : List Record}
    (hrecords : schema.Replaces depth type owned records others)
    (hmore : schema.Replaces depth type foreign more rest)
    (hdisjoint : ∀ entry ∈ owned, entry ∉ foreign) :
    schema.Replaces depth type (owned ++ foreign) (records ++ more) (others ++ rest) := by
  obtain ⟨first, hfirst⟩ := hrecords.unpacks
  obtain ⟨second, hsecond⟩ := hmore.unpacks
  have hshort : Record.IsShort (Record.encodeAll (others ++ rest)) →
      Record.IsShort (Record.encodeAll others) ∧ Record.IsShort (Record.encodeAll rest) :=
    fun hshort => ⟨hshort.of_length_le (Record.length_encodeAll_le (List.sublist_append_left _ _)),
      hshort.of_length_le (Record.length_encodeAll_le (List.sublist_append_right _ _))⟩
  have hlength := length_normal_append h hfirst hsecond (fun field hfield => by
    by_cases howned : (field.number, field.kind.shape) ∈ owned
    · exact .inr (hmore.owns field hfield (hdisjoint _ howned))
    · exact .inl (hrecords.owns field hfield howned)) depth
  have hunpack := (unpack_append h).mpr ⟨first, second, hfirst, hsecond, rfl⟩
  refine ⟨fun record hrecord => ?_, ⟨_, hunpack⟩,
    fun field hfield hnot => ?_, fun hwhole => ?_, fun hwhole hnormal => ?_⟩
  · rcases List.mem_append.mp hrecord with hleft | hright
    · exact hrecords.tidy record hleft
    · exact hmore.tidy record hright
  · rw [List.mem_append, not_or] at hnot
    rw [values_append h hfirst hsecond, hrecords.owns field hfield hnot.1,
      hmore.owns field hfield hnot.2, List.append_nil]
  · exact (readable_append h).mpr ⟨hrecords.readable (hshort hwhole).1,
      hmore.readable (hshort hwhole).2⟩
  · have hleft := hrecords.substitute (hshort hwhole).1 (hnormal.of_length_le (by omega))
    have hright := hmore.substitute (hshort hwhole).2 (hnormal.of_length_le (by omega))
    refine ⟨hleft.toAlike.append h hright.toAlike, fun record hrecord => ?_, ?_⟩
    · rcases List.mem_append.mp hrecord with hmem | hmem
      · exact hleft.tidy record hmem
      · exact hright.tidy record hmem
    · rw [hlength, Record.encodeAll_append, List.length_append, hleft.room, hright.room]

theorem scalars (h : schema.Regular) {field : FieldSpec} (hfield : field ∈ schema.fieldsOf type)
    (hscalar : field.kind.messageType? = none) {values : List Record}
    (hclaims : ∀ value ∈ values, field.claims value = true)
    (hcanonical : ∀ value ∈ values, field.kind.canonical value = value)
    (haccepts : ∀ value ∈ values, field.kind.accepts value = true)
    (hcount : field.isRepeated = true ∨ values.length ≤ 1) :
    schema.Replaces depth type [(field.number, field.kind.shape)] values values := by
  have htidy : ∀ value ∈ values, value.Tidy depth := by
    intro value hvalue
    obtain ⟨hnumber, hshape, -⟩ := FieldSpec.claims_iff.mp (hclaims value hvalue)
    exact Record.tidy_of_shape (hshape ▸ h.shape type field hfield)
      (hnumber ▸ h.number type field hfield)
  have hreadable : schema.readable depth type values = true :=
    readable_of_claims h hfield hclaims fun value hvalue => by
      rw [reads_of_messageType?_eq_none hscalar, haccepts value hvalue]
  have hnormal : schema.normal depth type values = values := by
    have hmap : values.map field.kind.canonical = values := by
      simpa using List.map_congr_left hcanonical
    rw [normal_of_claims h hfield hclaims, written_of_messageType?_eq_none hscalar, Schema.scalars,
      hmap]
    rcases hcount with hrepeated | hlength
    · rw [hrepeated, if_pos rfl]
    · obtain rfl | ⟨value, rfl⟩ := eq_nil_or_singleton hlength
      · simp
      · simp
  refine ⟨htidy, ⟨values, unpack_of_claims h hfield hclaims⟩, fun other hother hnot => ?_,
    fun _ => hreadable, fun _ _ => ⟨.refl hreadable, htidy, by rw [hnormal]⟩⟩
  rw [values_of_claims h hfield hclaims hother, if_neg]
  rintro rfl
  exact hnot (List.mem_singleton.mpr rfl)

end Replaces

-- ---------------------------------------------------------------------------
-- Messages inside
-- ---------------------------------------------------------------------------

section

variable {α : Type} {depth number : Nat} {type inner : String} {cardinality : Cardinality}
  {items : List α} {write : α → List Record}

def messageRecords (number : Nat) (items : List α) (write : α → List Record) : List Record :=
  items.map fun item => .bytes number (Record.encodeAll (write item))

theorem claims_messageRecords (field : FieldSpec) (hkind : field.kind = .message inner) :
    ∀ record ∈ messageRecords field.number items write, field.claims record = true := by
  intro record hrecord
  obtain ⟨item, -, rfl⟩ := List.mem_map.mp hrecord
  simp [FieldSpec.claims, Record.number, Record.shape, hkind, Kind.shape, Kind.admits]

theorem tidy_messageRecords (h : schema.Regular)
    (hfield : ⟨number, .message inner, cardinality⟩ ∈ schema.fieldsOf type) :
    ∀ record ∈ messageRecords number items write, record.Tidy depth := by
  intro record hrecord
  obtain ⟨item, -, rfl⟩ := List.mem_map.mp hrecord
  exact Record.tidy_of_shape (by simp [Record.shape]) (h.number type _ hfield)

theorem readable_messageRecords (h : schema.Regular)
    (hfield : ⟨number, .message inner, cardinality⟩ ∈ schema.fieldsOf type)
    (hitems : ∀ item ∈ items,
      Record.readAll depth (Record.encodeAll (write item)) = some (write item) ∧
        schema.readable depth inner (write item) = true) :
    schema.readable (depth + 1) type (messageRecords number items write) = true := by
  refine readable_of_claims h hfield (claims_messageRecords _ rfl) fun record hrecord => ?_
  obtain ⟨item, hitem, rfl⟩ := List.mem_map.mp hrecord
  exact (reads_iff_of_messageType? rfl).mpr ⟨depth, write item, rfl, hitems item hitem⟩

theorem normal_messageRecords (h : schema.Regular)
    (hfield : ⟨number, .message inner, cardinality⟩ ∈ schema.fieldsOf type)
    (hcount : cardinality = .repeated ∨ items.length ≤ 1)
    (hread : ∀ item ∈ items,
      Record.readAll depth (Record.encodeAll (write item)) = some (write item)) :
    schema.normal (depth + 1) type (messageRecords number items write) =
      messageRecords number items fun item => schema.normal depth inner (write item) := by
  have hclaims : ∀ record ∈ messageRecords number items write,
      (⟨number, .message inner, cardinality⟩ : FieldSpec).claims record = true :=
    claims_messageRecords ⟨number, .message inner, cardinality⟩ rfl
  have hmembers : ∀ item ∈ items,
      (Record.bytes number (Record.encodeAll (write item))).members depth = write item := by
    intro item hitem
    rw [Record.members, Record.members?, hread item hitem, Option.getD_some]
  have hmessages : FieldSpec.submessages ⟨number, .message inner, cardinality⟩ depth
      (messageRecords number items write) = items.map write := by
    rw [FieldSpec.submessages, messageRecords]
    rcases hcount with rfl | hlength
    · rw [if_pos (show FieldSpec.isRepeated _ = true from rfl), List.map_map]
      exact List.map_congr_left hmembers
    · obtain rfl | ⟨item, rfl⟩ := eq_nil_or_singleton hlength
      · simp
      · simp [hmembers item]
  rw [normal_of_claims h hfield hclaims, written_of_messageType? rfl, hmessages, List.map_map]
  rfl

theorem isShort_of_messageRecords
    (hshort : Record.IsShort (Record.encodeAll (messageRecords number items write))) :
    ∀ item ∈ items, Record.IsShort (Record.encodeAll (write item)) :=
  fun _ hitem => hshort.of_bytes_mem (List.mem_map_of_mem hitem)

theorem substitute_messageRecords (h : schema.Regular)
    (hfield : ⟨number, .message inner, cardinality⟩ ∈ schema.fieldsOf type)
    (hcount : cardinality = .repeated ∨ items.length ≤ 1) {rewrite : α → List Record}
    (hitems : ∀ item ∈ items, schema.Substitute depth inner (rewrite item) (write item))
    (hread : ∀ item ∈ items,
      Record.readAll depth (Record.encodeAll (write item)) = some (write item))
    (hshort : Record.IsShort
      (Record.encodeAll (schema.normal (depth + 1) type (messageRecords number items write)))) :
    schema.Substitute (depth + 1) type (messageRecords number items rewrite)
      (messageRecords number items write) := by
  have hnormal := normal_messageRecords h hfield hcount hread
  rw [hnormal] at hshort
  -- the new content of a message takes the room of its normal form, so it is read back too
  have hreread : ∀ item ∈ items,
      Record.readAll depth (Record.encodeAll (rewrite item)) = some (rewrite item) := by
    intro item hitem
    have hroom := Nat.le_of_eq (hitems item hitem).room
    exact Record.readAll_encodeAll (hitems item hitem).tidy
      ((isShort_of_messageRecords hshort item hitem).of_length_le hroom)
  refine ⟨⟨?_, ?_, ?_⟩, tidy_messageRecords h hfield, ?_⟩
  · exact readable_messageRecords h hfield fun item hitem =>
      ⟨hreread item hitem, (hitems item hitem).left⟩
  · exact readable_messageRecords h hfield fun item hitem =>
      ⟨hread item hitem, (hitems item hitem).right⟩
  · rw [normal_messageRecords h hfield hcount hreread, hnormal]
    exact List.map_congr_left fun item hitem =>
      congrArg (fun members => Record.bytes number (Record.encodeAll members))
        (hitems item hitem).same
  · rw [hnormal]
    exact length_encodeAll_map_bytes number fun item hitem => (hitems item hitem).room

end

/-- Messages are replaced inside a message where each of them is replaced. -/
theorem Replaces.messages (h : schema.Regular) {α : Type} {depth number : Nat}
    {type inner : String} {cardinality : Cardinality} {items : List α}
    {write rewrite : α → List Record}
    (hfield : ⟨number, .message inner, cardinality⟩ ∈ schema.fieldsOf type)
    (hcount : cardinality = .repeated ∨ items.length ≤ 1)
    (hitems : ∀ item ∈ items, 0 < depth ∧ ∃ owned,
      schema.Replaces (depth - 1) inner owned (rewrite item) (write item)) :
    schema.Replaces depth type [(number, .bytes)] (messageRecords number items rewrite)
      (messageRecords number items write) := by
  by_cases hnil : items = []
  · subst hnil
    exact nil h
  obtain ⟨first, hfirst⟩ := List.exists_mem_of_ne_nil items hnil
  obtain ⟨depth, rfl⟩ := Nat.exists_eq_succ_of_ne_zero (Nat.ne_of_gt (hitems first hfirst).1)
  have hclaims : ∀ record ∈ messageRecords number items write,
      (⟨number, .message inner, cardinality⟩ : FieldSpec).claims record = true :=
    claims_messageRecords ⟨number, .message inner, cardinality⟩ rfl
  have hread : Record.IsShort (Record.encodeAll (messageRecords number items write)) →
      ∀ item ∈ items, Record.readAll depth (Record.encodeAll (write item)) = some (write item) := by
    intro hshort item hitem
    obtain ⟨-, owned, hreplaces⟩ := hitems item hitem
    exact Record.readAll_encodeAll hreplaces.tidy (isShort_of_messageRecords hshort item hitem)
  refine ⟨tidy_messageRecords h hfield, ⟨_, unpack_of_claims h hfield hclaims⟩,
    fun other hother hnot => ?_, fun hshort => ?_, fun hshort hnormal => ?_⟩
  · rw [values_of_claims h hfield hclaims hother, if_neg]
    rintro rfl
    exact hnot (List.mem_singleton.mpr rfl)
  · refine readable_messageRecords h hfield fun item hitem => ⟨hread hshort item hitem, ?_⟩
    obtain ⟨-, owned, hreplaces⟩ := hitems item hitem
    exact hreplaces.readable (isShort_of_messageRecords hshort item hitem)
  · refine substitute_messageRecords h hfield hcount (fun item hitem => ?_) (hread hshort) hnormal
    rw [normal_messageRecords h hfield hcount (hread hshort)] at hnormal
    obtain ⟨-, owned, hreplaces⟩ := hitems item hitem
    exact hreplaces.substitute (isShort_of_messageRecords hshort item hitem)
      (isShort_of_messageRecords hnormal item hitem)

end SchemaGen.Wire.Schema
