import SchemaGen.Proofs.Fallible
import SchemaGen.Proofs.Wire.Normal

/-!
# Records with one meaning

Records are alike when their normal forms agree. Whether a message can be written depends on its
records only up to that (`Alike.complete_eq`), and parts may be exchanged for parts that are alike
(`Alike.append`).
-/

namespace SchemaGen.Wire.Schema

variable {schema : Schema}

/-- Readable records that are the same once read and written again. -/
structure Alike (schema : Schema) (depth : Nat) (type : String) (records others : List Record) :
    Prop where
  left : schema.readable depth type records = true
  right : schema.readable depth type others = true
  same : schema.normal depth type records = schema.normal depth type others

namespace Alike

variable {depth : Nat} {type : String} {records others : List Record}

theorem refl (h : schema.readable depth type records = true) :
    schema.Alike depth type records records := ⟨h, h, rfl⟩

theorem normal (h : schema.Regular) (hreadable : schema.readable depth type records = true)
    (hshort : Record.IsShort (Record.encodeAll (schema.normal depth type records))) :
    schema.Alike depth type (schema.normal depth type records) records :=
  ⟨readable_normal h hreadable hshort, hreadable, normal_normal h hreadable hshort⟩

theorem written_eq (h : schema.Regular) (halike : schema.Alike depth type records others)
    {field : FieldSpec} (hfield : field ∈ schema.fieldsOf type) :
    schema.written depth field (schema.values type field records) =
      schema.written depth field (schema.values type field others) := by
  obtain ⟨elements, hunpack, -⟩ := readable_iff.mp halike.left
  obtain ⟨second, hsecond, -⟩ := readable_iff.mp halike.right
  rw [← values_normal h hunpack hfield, halike.same, values_normal h hsecond hfield]

theorem unclaimed_eq (h : schema.Regular) (halike : schema.Alike depth type records others) :
    schema.unclaimed type records = schema.unclaimed type others := by
  obtain ⟨elements, hunpack, -⟩ := readable_iff.mp halike.left
  obtain ⟨second, hsecond, -⟩ := readable_iff.mp halike.right
  calc schema.unclaimed type records
      = schema.unclaimed type (schema.normal depth type records) :=
        (unclaimed_normal h hunpack).symm
    _ = schema.unclaimed type (schema.normal depth type others) := by rw [halike.same]
    _ = schema.unclaimed type others := unclaimed_normal h hsecond

end Alike

theorem normal_congr {depth : Nat} {type : String} {records others : List Record}
    (hwritten : ∀ field ∈ schema.fieldsOf type,
      schema.written depth field (schema.values type field records) =
        schema.written depth field (schema.values type field others))
    (hunclaimed : schema.unclaimed type records = schema.unclaimed type others) :
    schema.normal depth type records = schema.normal depth type others := by
  rw [normal_eq, normal_eq, hunclaimed,
    List.flatMap_congr fun field hfield => hwritten field (mem_sortedFields.mp hfield)]

-- ---------------------------------------------------------------------------
-- Submessages
-- ---------------------------------------------------------------------------

theorem forall₂_of_map_eq {α β : Type} {key : α → β} {related : α → α → Prop}
    {first second : List α}
    (h : first.map key = second.map key)
    (himp : ∀ a ∈ first, ∀ b ∈ second, key a = key b → related a b) :
    List.Forall₂ related first second := by
  induction first generalizing second with
  | nil =>
    cases second with
    | nil => exact .nil
    | cons b more => cases h
  | cons a rest ih =>
    cases second with
    | nil => cases h
    | cons b more =>
      obtain ⟨hkey, hrest⟩ := List.cons.inj h
      refine .cons (himp a (by simp) b (by simp) hkey) (ih hrest fun x hx y hy => ?_)
      exact himp x (by simp [hx]) y (by simp [hy])

theorem wrap_inj (h : schema.Regular) {type inner : String} {field : FieldSpec}
    (hfield : field ∈ schema.fieldsOf type) (hinner : field.kind.messageType? = some inner)
    {depth : Nat} {members others : List Record}
    (hmembers : ∀ record ∈ members, record.Tidy depth)
    (hothers : ∀ record ∈ others, record.Tidy depth)
    (hwrap : field.wrap members = field.wrap others) : members = others := by
  cases hkind : field.kind with
  | message type =>
    simp only [FieldSpec.wrap, hkind, Record.bytes.injEq, true_and] at hwrap
    exact Record.encodeAll_inj hmembers hothers hwrap
  | group type => exact absurd (by rw [hkind]; rfl) (h.shape _ field hfield)
  | _ => rw [hkind] at hinner; cases hinner

namespace Alike

variable {depth : Nat} {type : String} {records others : List Record}

/-- The submessages of records that are alike are alike one by one. -/
theorem submessages (h : schema.Regular) (halike : schema.Alike (depth + 1) type records others)
    {field : FieldSpec} (hfield : field ∈ schema.fieldsOf type) {inner : String}
    (hinner : field.kind.messageType? = some inner) :
    List.Forall₂ (schema.Alike depth inner)
      (field.submessages depth (schema.values type field records))
      (field.submessages depth (schema.values type field others)) := by
  have hwritten := halike.written_eq h hfield
  rw [written_of_messageType? hinner, written_of_messageType? hinner] at hwritten
  refine forall₂_of_map_eq hwritten fun members hmembers more hmore hwrap => ?_
  obtain ⟨hread, htidy⟩ := submessage_of_readable h halike.left hfield hinner members hmembers
  obtain ⟨hread', htidy'⟩ := submessage_of_readable h halike.right hfield hinner more hmore
  obtain ⟨_, hunpack, -⟩ := readable_iff.mp hread
  obtain ⟨_, hunpack', -⟩ := readable_iff.mp hread'
  exact ⟨hread, hread', wrap_inj h hfield hinner (tidy_normal h hunpack htidy)
    (tidy_normal h hunpack' htidy') hwrap⟩

end Alike

-- ---------------------------------------------------------------------------
-- Parts
-- ---------------------------------------------------------------------------

theorem unclaimed_append (h : schema.Regular) {type : String}
    {records others first second : List Record}
    (hfirst : schema.unpack type records = some first)
    (hsecond : schema.unpack type others = some second) :
    schema.unclaimed type (records ++ others) =
      schema.unclaimed type records ++ schema.unclaimed type others := by
  have hboth := (unpack_append h).mpr ⟨first, second, hfirst, hsecond, rfl⟩
  simp only [unclaimed_eq, elements_of_unpack hboth, elements_of_unpack hfirst,
    elements_of_unpack hsecond, List.filterMap_append]

theorem submessages_append (field : FieldSpec) (depth : Nat) (values others : List Record) :
    field.submessages depth (values ++ others) =
      let parts := field.submessages depth values ++ field.submessages depth others
      if field.isRepeated then parts else if parts.isEmpty then [] else [parts.flatten] := by
  cases hrepeated : field.isRepeated with
  | true => simp [FieldSpec.submessages, hrepeated]
  | false =>
    cases values <;> cases others <;> simp [FieldSpec.submessages, hrepeated]

theorem scalars_append (field : FieldSpec) (values others : List Record) :
    scalars field (values ++ others) =
      let parts := scalars field values ++ scalars field others
      if field.isRepeated then parts else parts.getLast?.toList := by
  cases hrepeated : field.isRepeated with
  | true => simp [scalars, hrepeated]
  | false =>
    simp only [scalars, hrepeated, Bool.false_eq_true, if_false, List.getLast?_map,
      List.getLast?_append]
    cases values.getLast? <;> cases others.getLast? <;> simp

namespace Alike

theorem map_wrap_eq {depth : Nat} {inner : String} {field : FieldSpec}
    {parts others : List (List Record)} (h : List.Forall₂ (schema.Alike depth inner) parts others) :
    (parts.map fun members => field.wrap (schema.normal depth inner members)) =
      others.map fun members => field.wrap (schema.normal depth inner members) :=
  (Fallible.map_eq_map_of_forall₂ (h.imp fun _ _ halike => by rw [halike.same])).symm

theorem map_merged_eq {depth : Nat} {inner : String} {field : FieldSpec}
    {parts others : List (List Record)} (h : List.Forall₂ (schema.Alike depth inner) parts others)
    (hwhole : schema.Alike depth inner parts.flatten others.flatten) {repeated : Bool} :
    ((if repeated then parts else if parts.isEmpty then [] else [parts.flatten]).map
        fun members => field.wrap (schema.normal depth inner members)) =
      (if repeated then others else if others.isEmpty then [] else [others.flatten]).map
        fun members => field.wrap (schema.normal depth inner members) := by
  cases repeated with
  | true => exact map_wrap_eq h
  | false =>
    cases h with
    | nil => rfl
    | cons => exact congrArg (fun members => [field.wrap members]) hwhole.same

theorem flatten_of_append {depth : Nat} {type : String} (h : schema.Regular)
    (happend : ∀ {records others more rest : List Record},
      schema.Alike depth type records others → schema.Alike depth type more rest →
      schema.Alike depth type (records ++ more) (others ++ rest))
    {parts others : List (List Record)}
    (hparts : List.Forall₂ (schema.Alike depth type) parts others) :
    schema.Alike depth type parts.flatten others.flatten := by
  induction hparts with
  | nil => exact refl (readable_nil h depth type)
  | cons hpart _ ih => exact happend hpart ih

theorem append (h : schema.Regular) {depth : Nat} {type : String}
    {records others more rest : List Record} (hrecords : schema.Alike depth type records others)
    (hmore : schema.Alike depth type more rest) :
    schema.Alike depth type (records ++ more) (others ++ rest) := by
  induction depth using Nat.strongRecOn generalizing type records others more rest with
  | _ depth ih =>
    obtain ⟨_, hunpack, -⟩ := readable_iff.mp hrecords.left
    obtain ⟨_, hunpack', -⟩ := readable_iff.mp hrecords.right
    obtain ⟨_, hunpackMore, -⟩ := readable_iff.mp hmore.left
    obtain ⟨_, hunpackRest, -⟩ := readable_iff.mp hmore.right
    refine ⟨(readable_append h).mpr ⟨hrecords.left, hmore.left⟩,
      (readable_append h).mpr ⟨hrecords.right, hmore.right⟩, normal_congr ?_ ?_⟩
    · intro field hfield
      have hfirst := hrecords.written_eq h hfield
      have hsecond := hmore.written_eq h hfield
      rw [values_append h hunpack hunpackMore, values_append h hunpack' hunpackRest]
      cases hinner : field.kind.messageType? with
      | none =>
        simp only [written_of_messageType?_eq_none hinner] at hfirst hsecond ⊢
        rw [scalars_append, scalars_append, hfirst, hsecond]
      | some inner =>
        cases depth with
        | zero =>
          simp only [written] at hfirst hsecond ⊢
          rw [scalars_append, scalars_append, hfirst, hsecond]
        | succ depth =>
          -- the messages of both parts are alike, and so is what they make together
          have hparts := List.rel_append (hrecords.submessages h hfield hinner)
            (hmore.submessages h hfield hinner)
          have hwhole := flatten_of_append h (ih depth (Nat.lt_succ_self depth)) hparts
          simp only [written_of_messageType? hinner, submessages_append]
          exact map_merged_eq hparts hwhole
    · rw [unclaimed_append h hunpack hunpackMore, unclaimed_append h hunpack' hunpackRest,
        hrecords.unclaimed_eq h, hmore.unclaimed_eq h]

end Alike

-- ---------------------------------------------------------------------------
-- Completeness
-- ---------------------------------------------------------------------------

def completes (schema : Schema) : (depth : Nat) → FieldSpec → List Record → Bool
  | 0, field, values => field.kind.messageType?.isNone || values.isEmpty
  | depth + 1, field, values =>
    match field.kind.messageType? with
    | none => true
    | some inner => (field.submessages depth values).all (schema.complete depth inner)

theorem any_claims (schema : Schema) (type : String) (records : List Record) (field : FieldSpec) :
    (schema.elements type records).any field.claims =
      !(schema.values type field records).isEmpty := by
  rw [values]
  induction schema.elements type records with
  | nil => rfl
  | cons record more ih => cases hclaims : field.claims record <;> simp [hclaims, ih]

theorem complete_eq (schema : Schema) (depth : Nat) (type : String) (records : List Record) :
    schema.complete depth type records = (schema.fieldsOf type).all fun field =>
      (field.cardinality != .required || !(schema.values type field records).isEmpty) &&
        schema.completes depth field (schema.values type field records) := by
  have hall : ∀ (fields : List FieldSpec) (first second : FieldSpec → Bool),
      (fields.all first && fields.all second) =
        fields.all fun field => first field && second field := by
    intro fields first second
    induction fields with
    | nil => rfl
    | cons field more ih =>
      simp only [List.all_cons, ← ih]
      cases first field <;> cases second field <;> simp
  cases depth with
  | zero => simp only [complete, hasRequired, any_claims, hall, Bool.not_not]; rfl
  | succ depth => simp only [complete, hasRequired, any_claims, hall]; rfl

theorem written_eq_nil_iff {depth : Nat} {field : FieldSpec} {values : List Record} :
    schema.written depth field values = [] ↔ values = [] := by
  have hscalars : scalars field values = [] ↔ values = [] := by
    rw [scalars]
    split <;> simp
  cases depth with
  | zero => exact hscalars
  | succ depth =>
    rw [written]
    split
    · exact hscalars
    · rw [List.map_eq_nil_iff, FieldSpec.submessages]
      split
      · simp
      · split <;> simp_all

theorem all_eq_of_forall₂ {α : Type} {test : α → Bool} {related : α → α → Prop}
    {first second : List α} (h : List.Forall₂ related first second)
    (htest : ∀ a b, related a b → test a = test b) : first.all test = second.all test := by
  induction h with
  | nil => rfl
  | cons hhead _ ih => rw [List.all_cons, List.all_cons, htest _ _ hhead, ih]

theorem Alike.values_eq_nil_iff (h : schema.Regular) {depth : Nat} {type : String}
    {records others : List Record} (halike : schema.Alike depth type records others)
    {field : FieldSpec} (hfield : field ∈ schema.fieldsOf type) :
    schema.values type field records = [] ↔ schema.values type field others = [] := by
  rw [← written_eq_nil_iff, halike.written_eq h hfield, written_eq_nil_iff]

/-- Whether a message can be written depends on its records only up to their normal form. -/
theorem Alike.complete_eq (h : schema.Regular) {depth more : Nat} (hle : depth ≤ more)
    {type : String} {records others : List Record}
    (halike : schema.Alike depth type records others) :
    schema.complete more type records = schema.complete more type others := by
  induction depth using Nat.strongRecOn generalizing more type records others with
  | _ depth ih =>
    rw [Schema.complete_eq, Schema.complete_eq]
    rw [Bool.eq_iff_iff, List.all_eq_true, List.all_eq_true]
    refine forall₂_congr fun field hfield => ?_
    have hempty : (schema.values type field records).isEmpty =
        (schema.values type field others).isEmpty := by
      rw [Bool.eq_iff_iff, List.isEmpty_iff, List.isEmpty_iff]
      exact halike.values_eq_nil_iff h hfield
    have hcompletes : schema.completes more field (schema.values type field records) =
        schema.completes more field (schema.values type field others) := by
      cases hinner : field.kind.messageType? with
      | none => cases more <;> simp [completes, hinner]
      | some inner =>
        obtain hnil | ⟨less, rfl⟩ := values_eq_nil_or_depth halike.left hfield hinner
        · rw [hnil, (halike.values_eq_nil_iff h hfield).mp hnil]
        · obtain ⟨more, rfl⟩ : ∃ less, more = less + 1 := ⟨more - 1, by omega⟩
          simp only [completes, hinner, submessages_mono (show less ≤ more by omega) halike.left
            hfield hinner, submessages_mono (show less ≤ more by omega) halike.right hfield hinner]
          exact all_eq_of_forall₂ (halike.submessages h hfield hinner) fun _ _ hmembers =>
            ih less (Nat.lt_succ_self less) (by omega) hmembers
    rw [hempty, hcompletes]

end SchemaGen.Wire.Schema
