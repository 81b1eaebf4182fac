import SchemaGen.Proofs.Wire.Normal
import SchemaGen.Wire.Value

/-!
# Unknown numbers

Records under a number that a schema does not know come through reading and writing as they are, and
in their order. So options that one schema has kept unread can be read by a larger one, and a
singular field has the value of the last record that was there from the start.
-/

namespace SchemaGen.Wire

namespace Schema

variable {schema : Schema} {type : String} {number : Nat}

theorem filter_pieces? (hsingle : ∀ field, schema.field? type number = some field →
      field.isRepeated = false) {record : Record} {pieces : List Record}
    (h : schema.pieces? type record = some pieces) :
    pieces.filter (·.number == number) = [record].filter (·.number == number) := by
  by_cases hnumber : record.number = number
  · have hpieces : pieces = [record] := by
      rw [pieces?, hnumber] at h
      cases hfield : schema.field? type number with
      | none => simpa [hfield, eq_comm] using h
      | some field =>
        rw [hfield] at h
        obtain hsame | ⟨hrepeated, -⟩ := FieldSpec.unpack_cases h
        · exact hsame
        · rw [hsingle field hfield] at hrepeated
          cases hrepeated
    rw [hpieces]
  · have hothers : ∀ piece ∈ pieces, piece.number ≠ number := by
      intro piece hpiece
      rw [(piece_of_pieces? h hpiece).2.1]
      exact hnumber
    simpa [hnumber] using hothers

theorem filter_elements (hplain : type ∉ schema.sets)
    (hsingle : ∀ field, schema.field? type number = some field → field.isRepeated = false)
    (records : List Record) :
    (schema.elements type records).filter (·.number == number) =
      records.filter (·.number == number) := by
  have hparts : ∀ parts, records.mapM (schema.pieces? type) = some parts →
      parts.flatten.filter (·.number == number) = records.filter (·.number == number) := by
    induction records with
    | nil =>
      intro parts hparts
      cases hparts
      rfl
    | cons record more ih =>
      intro parts hparts
      rw [List.mapM_cons] at hparts
      obtain ⟨pieces, hpieces, hparts⟩ := Option.bind_eq_some_iff.mp hparts
      obtain ⟨rest, hrest, hparts⟩ := Option.bind_eq_some_iff.mp hparts
      cases hparts
      rw [List.flatten_cons, List.filter_append, filter_pieces? hsingle hpieces, ih rest hrest,
        ← List.filter_append, List.singleton_append]
  have hunpack : schema.unpack type records =
      (records.mapM (schema.pieces? type)).map List.flatten := by
    simp only [unpack, unwrap, List.contains_eq_mem, hplain, decide_false, Bool.false_eq_true,
      if_false, Option.map_eq_bind]
    rfl
  rw [elements, hunpack]
  cases hfound : records.mapM (schema.pieces? type) with
  | none => rfl
  | some parts => exact hparts parts hfound

theorem filter_filterMap_leftover (h : schema.Regular) (hnone : schema.field? type number = none)
    (records : List Record) :
    (records.filterMap (schema.leftover type)).filter (·.number == number) =
      records.filter (·.number == number) := by
  have hkept : ∀ record, (schema.leftover type record).filter (·.number == number) =
      if record.number == number then some record else none := by
    intro record
    by_cases hnumber : record.number = number
    · simp [leftover, hnumber, hnone]
    · cases hleftover : schema.leftover type record with
      | none => simp [hnumber]
      | some kept =>
        have hsame : kept.number = record.number := by
          obtain ⟨-, rfl | ⟨field, -, -, -, rfl⟩⟩ := leftover_cases h hleftover
          · rfl
          · exact Kind.number_keep field.kind record
        simp [hsame, hnumber]
  rw [List.filter_filterMap, ← List.filterMap_eq_filter]
  exact List.filterMap_congr fun record _ => hkept record

/-- What stands under an unknown number is written as it was read. -/
theorem filter_normal_of_unknown (h : schema.Regular) (hnone : schema.field? type number = none)
    (depth : Nat) (records : List Record) :
    (schema.normal depth type records).filter (·.number == number) =
      records.filter (·.number == number) := by
  have hwritten : ((schema.sortedFields type).flatMap fun field =>
      schema.written depth field (schema.values type field records)).filter
        (·.number == number) = [] := by
    rw [List.filter_eq_nil_iff]
    intro record hrecord hnumber
    obtain ⟨field, hfield, hrecord⟩ := List.mem_flatMap.mp hrecord
    have hfield := mem_sortedFields.mp hfield
    have hsame := number_of_mem_written h hfield hrecord
    rw [beq_iff_eq.mp hnumber] at hsame
    rw [(field?_eq_some_iff h).mpr ⟨hfield, hsame.symm⟩] at hnone
    cases hnone
  have hplain : type ∉ schema.sets := by simp [h.sets]
  rw [normal_eq, List.filter_append, hwritten, List.nil_append, unclaimed_eq,
    filter_filterMap_leftover h hnone, filter_elements hplain (by simp [hnone])]

end Schema

namespace FieldSpec

variable {field : FieldSpec}

theorem value?_congr {records others : List Record}
    (h : records.filter (·.number == field.number) = others.filter (·.number == field.number)) :
    field.value? records = field.value? others := by
  have hclaimed : ∀ records : List Record, records.filter field.claims =
      (records.filter (·.number == field.number)).filter field.claims := by
    intro records
    rw [List.filter_filter]
    refine List.filter_congr fun record _ => ?_
    simp only [claims]
    grind
  rw [value?, value?, hclaimed, h, ← hclaimed]

/-- A field that claims the records with a content of some sort has the last such content as its
value. -/
theorem value?_eq_getLast? {α : Type} {content? : Record → Option α} {value : α → Value}
    (ofContent : α → Record)
    (hclaims : ∀ record, (if field.claims record then some record else none) =
      (content? record).map ofContent)
    (hvalue : ∀ content, field.kind.value (ofContent content) = value content)
    (records : List Record) :
    field.value? records = (records.filterMap content?).getLast?.map value := by
  have hclaimed : records.filter field.claims = (records.filterMap content?).map ofContent := by
    rw [← List.filterMap_eq_filter, List.map_filterMap]
    exact List.filterMap_congr fun record _ => hclaims record
  rw [value?, hclaimed, List.getLast?_map, Option.map_map]
  exact congrArg (Option.map · _) (funext hvalue)

theorem value?_bool (hkind : field.kind = .bool) (records : List Record) :
    field.value? records =
      (Record.varints field.number records).getLast?.map fun value => .bool (value != 0) := by
  refine value?_eq_getLast? (Record.varint field.number) (fun record => ?_) (fun value => ?_) records
  · cases record with
    | varint other value =>
      by_cases hother : other = field.number <;>
        simp [claims, Record.number, Record.shape, hkind, Kind.shape, Kind.admits, hother]
    | _ => simp [claims, Record.shape, hkind, Kind.shape]
  · rw [hkind]
    rfl

theorem value?_string {checked : Bool} (hkind : field.kind = .string checked)
    (records : List Record) :
    field.value? records =
      (Record.contents field.number records).getLast?.map .string := by
  refine value?_eq_getLast? (Record.bytes field.number) (fun record => ?_) (fun content => ?_) records
  · cases record with
    | bytes other content =>
      by_cases hother : other = field.number <;>
        simp [claims, Record.number, Record.shape, hkind, Kind.shape, Kind.admits, hother]
    | _ => simp [claims, Record.shape, hkind, Kind.shape]
  · rw [hkind]
    rfl

end FieldSpec

end SchemaGen.Wire
