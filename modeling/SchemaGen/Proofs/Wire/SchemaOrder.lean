import Mathlib.Data.List.Nodup
import Mathlib.Data.List.Perm.Basic
import SchemaGen.Wire.Schema

/-!
# Schemas that read alike

Reading looks up the field under a number and asks all fields of a type for their values. The order
in which a schema lists its types and their fields does not matter to either (`readable_eq`,
`elements_eq`).
-/

namespace SchemaGen

-- ---------------------------------------------------------------------------
-- Finding by keys that differ
-- ---------------------------------------------------------------------------

section

variable {α κ : Type} [DecidableEq κ] {key : α → κ} {entries others : List α}

theorem find?_eq_some_iff_of_nodup (hnodup : (entries.map key).Nodup) {wanted : κ} {entry : α} :
    entries.find? (key · == wanted) = some entry ↔ entry ∈ entries ∧ key entry = wanted := by
  constructor
  · intro hfound
    exact ⟨List.mem_of_find?_eq_some hfound, by simpa using List.find?_some hfound⟩
  · rintro ⟨hmem, rfl⟩
    cases hfound : entries.find? (key · == key entry) with
    | none => simpa using List.find?_eq_none.mp hfound entry hmem
    | some found =>
      have hkey : key found = key entry := by simpa using List.find?_some hfound
      exact congrArg some
        (List.inj_on_of_nodup_map hnodup (List.mem_of_find?_eq_some hfound) hmem hkey)

theorem find?_eq_of_perm (h : entries.Perm others) (hnodup : (entries.map key).Nodup) (wanted : κ) :
    entries.find? (key · == wanted) = others.find? (key · == wanted) := by
  refine Option.ext fun entry => ?_
  rw [find?_eq_some_iff_of_nodup hnodup,
    find?_eq_some_iff_of_nodup ((h.map key).nodup_iff.mp hnodup), h.mem_iff]

end

namespace Wire.Schema

/-- Schemas of the same types, with the same fields in any order. -/
structure Equivalent (schema other : Schema) : Prop where
  fields : ∀ type, (schema.fieldsOf type).Perm (other.fieldsOf type)
  found : ∀ type number, schema.field? type number = other.field? type number
  sets : ∀ type, schema.sets.contains type = other.sets.contains type

namespace Equivalent

variable {schema other : Schema} (h : schema.Equivalent other)
include h

theorem unpack_eq (type : String) (records : List Record) :
    schema.unpack type records = other.unpack type records := by
  simp only [unpack, unwrap, h.found, h.sets]

theorem elements_eq (type : String) (records : List Record) :
    schema.elements type records = other.elements type records := by
  rw [elements, elements, h.unpack_eq]

theorem all_fieldsOf (type : String) (test : FieldSpec → Bool) :
    (schema.fieldsOf type).all test = (other.fieldsOf type).all test := by
  rw [Bool.eq_iff_iff, List.all_eq_true, List.all_eq_true]
  exact forall_congr' fun field => imp_congr_left (h.fields type).mem_iff

theorem readable_eq (depth : Nat) (type : String) (records : List Record) :
    schema.readable depth type records = other.readable depth type records := by
  induction depth generalizing type records with
  | zero => simp only [readable, h.unpack_eq, h.all_fieldsOf]
  | succ depth ih => simp only [readable, h.unpack_eq, h.all_fieldsOf, ih]

end Equivalent

end Wire.Schema

end SchemaGen
