import SchemaGen.Proofs.Descriptor.PoolOrder

/-!
# Extensions in a pool

An accepted file brings each of its extensions into the pool, with the number and the type that it
was declared with (`exists_standsFor`). An extension has a number that the extended type leaves to
extensions, and that no field of the type's own bears (`Orderly`). Here references need not be in
full, so what an extension extends is known only through the pool.
-/

namespace SchemaGen.Descriptor

open Fallible

-- ---------------------------------------------------------------------------
-- What an extension comes to
-- ---------------------------------------------------------------------------

/-- An extension in a pool is what a declared field came to. -/
structure StandsFor (extension : Extension) (field : Field) : Prop where
  number : extension.field.number = field.numberValue.toInt.toNat
  bool : field.type = some .bool → extension.field.kind = .bool
  string : field.type = some .string → ∃ checked, extension.field.kind = .string checked

namespace Pool

theorem standsFor_of_extensionOf? {pool : Pool} {context : Context} {field : Field}
    {extension : Extension} (h : pool.extensionOf? context field = some extension) :
    StandsFor extension field := by
  obtain ⟨extended, -, h⟩ := Option.bind_eq_some_iff.mp h
  obtain ⟨meaning, hmeaning, h⟩ := Option.bind_eq_some_iff.mp h
  cases h
  have hscalar : ∀ type, field.type = some type → type = .bool ∨ type = .string →
      meaning = .scalar type := by
    rintro type htype (rfl | rfl)
    · cases hreference : field.typeName <;>
        simp_all [extensionMeaning?, meaning?]
    · cases hreference : field.typeName <;>
        simp_all [extensionMeaning?, meaning?]
  constructor
  case number => rfl
  case bool =>
    intro htype
    rw [hscalar _ htype (.inl rfl)]
    rfl
  case string =>
    intro htype
    rw [hscalar _ htype (.inr rfl)]
    exact ⟨_, rfl⟩

-- ---------------------------------------------------------------------------
-- One file
-- ---------------------------------------------------------------------------

structure Orderly (pool : Pool) : Prop where
  unambiguous : pool.Unambiguous
  ranges : ∀ type ∈ pool.messages, ∀ range ∈ type.ranges, 1 ≤ range.start
  fits : ∀ extension ∈ pool.extensions, ∃ type ∈ pool.messages, type.name = extension.extendee ∧
    ∀ own ∈ type.fields, own.number ≠ extension.field.number

theorem start_of_messageRefusal? {pool : Pool} {context : Context} {message : Message}
    (h : pool.messageRefusal? context message = none) {range : NumberRange}
    (hrange : range ∈ message.numberRanges) : 1 ≤ range.start := by
  simp only [messageRefusal?] at h
  split at h
  · cases h
  · next hranges =>
    simp only [Bool.not_eq_true', Bool.not_eq_false, Bool.and_eq_true, List.all_eq_true] at hranges
    have hsound := hranges.1 range hrange
    simp only [rangeIsSound, Bool.and_eq_true, decide_eq_true_eq] at hsound
    exact hsound.1.1

/-- Taking in a file leaves names as they are, so a reference means the same type before the fields
of the types are known. -/
theorem name_extended?_declare {pool : Pool} {dialect : Dialect} {file : File} {context : Context}
    {field : Field} {type again : MessageType}
    (htype : (pool.enter dialect file).extended? context field = some type)
    (hagain : (pool.declare dialect file).extended? context field = some again) :
    again.name = type.name := by
  obtain ⟨reference, hreference, htype⟩ := Option.bind_eq_some_iff.mp htype
  obtain ⟨reference', hreference', hagain⟩ := Option.bind_eq_some_iff.mp hagain
  cases Option.some.inj (hreference.symm.trans hreference')
  obtain ⟨name, hname, htype⟩ := Option.bind_eq_some_iff.mp htype
  obtain ⟨name', hname', hagain⟩ := Option.bind_eq_some_iff.mp hagain
  have hsame : name = name' := Option.some.inj (hname.symm.trans hname')
  have hfound := List.find?_some htype
  have hfound' := List.find?_some hagain
  simp_all

theorem fits_of_sound {pool : Pool} {dialect : Dialect} {file : File} {context : Context}
    {field : Field} {extension : Extension}
    (hranges : ∀ type ∈ (pool.enter dialect file).messages, ∀ range ∈ type.ranges, 1 ≤ range.start)
    (hsound : (pool.enter dialect file).extensionIsSound context field = true)
    (hextension : (pool.declare dialect file).extensionOf? context field = some extension) :
    ∃ type ∈ (pool.enter dialect file).messages, type.name = extension.extendee ∧
      ∀ own ∈ type.fields, own.number ≠ extension.field.number := by
  simp only [extensionIsSound, Bool.and_eq_true] at hsound
  obtain ⟨type, htype, hmeanings⟩ := (Option.any_eq_true _ _).mp hsound.2
  obtain ⟨meaning, -, hfits⟩ := (Option.any_eq_true _ _).mp hmeanings
  obtain ⟨again, hagain, hextension⟩ := Option.bind_eq_some_iff.mp hextension
  obtain ⟨_, -, hextension⟩ := Option.bind_eq_some_iff.mp hextension
  cases hextension
  have hmem : type ∈ (pool.enter dialect file).messages := by
    obtain ⟨_, -, htype⟩ := Option.bind_eq_some_iff.mp htype
    obtain ⟨_, -, htype⟩ := Option.bind_eq_some_iff.mp htype
    exact List.mem_of_find?_eq_some htype
  refine ⟨type, hmem, (name_extended?_declare htype hagain).symm, ?_⟩
  simp only [fitsExtended, Bool.and_eq_true, Bool.not_eq_true', List.any_eq_true,
    NumberRange.contains, decide_eq_true_eq, List.any_eq_false, beq_iff_eq] at hfits
  obtain ⟨-, ⟨⟨range, hrange, hstart, -⟩, hown⟩, -⟩ := hfits
  have hpositive := hranges type hmem range hrange
  intro own hmemOwn hnumber
  apply hown own hmemOwn
  simp only [specOf] at hnumber
  omega

theorem orderly_add {pool after : Pool} {file : File} (hpool : pool.Orderly)
    (h : pool.add file = .ok after) : after.Orderly := by
  have hafter := unambiguous_add hpool.unambiguous h
  obtain ⟨dialect, hdialect, rfl, hrefusal⟩ := add_eq_ok h
  obtain ⟨-, -, -, -, hmessages, hextensions, -⟩ := refusal?_eq_none_iff.mp hrefusal
  obtain ⟨hsound, -⟩ := of_extensionRefusal? hextensions
  have hranges : ∀ type ∈ (pool.enter dialect file).messages, ∀ range ∈ type.ranges,
      1 ≤ range.start := by
    intro type htype range hrange
    rcases List.mem_append.mp htype with hold | hnew
    · exact hpool.ranges type hold range hrange
    · obtain ⟨placed, hplaced, rfl⟩ := List.mem_map.mp hnew
      exact start_of_messageRefusal? (hmessages placed hplaced) hrange
  refine ⟨hafter, hranges, ?_⟩
  intro extension hextension
  rcases List.mem_append.mp hextension with hold | hnew
  · obtain ⟨type, htype, hfits⟩ := hpool.fits extension hold
    exact ⟨type, List.mem_append_left _ htype, hfits⟩
  · obtain ⟨placed, hplaced, hextension⟩ := List.mem_filterMap.mp hnew
    exact fits_of_sound hranges (hsound placed hplaced) hextension

section

variable (pool : Pool) (dialect : Dialect) (file : File)

theorem isSome_resolveMessage?_declare (scope reference : String) :
    ((pool.declare dialect file).resolveMessage? scope reference).isSome =
      ((pool.enter dialect file).resolveMessage? scope reference).isSome := by
  have hmessage : ∀ name, ((pool.declare dialect file).message? name).isSome =
      ((pool.enter dialect file).message? name).isSome := by
    intro name
    simp only [message?, declare, enter, List.find?_append, List.find?_map, Option.isSome_or,
      Option.isSome_map]
    rfl
  have hresolve : (pool.declare dialect file).resolve? scope reference =
      (pool.enter dialect file).resolve? scope reference := rfl
  unfold resolveMessage?
  rw [hresolve]
  cases (pool.enter dialect file).resolve? scope reference with
  | none => rfl
  | some name => exact hmessage name

theorem isSome_extensionMeaning?_declare {context : Context} {field : Field}
    (h : ((pool.enter dialect file).extensionMeaning? context field).isSome = true) :
    ((pool.declare dialect file).extensionMeaning? context field).isSome = true := by
  have henum : (pool.declare dialect file).resolveEnum? = (pool.enter dialect file).resolveEnum? :=
    rfl
  simp only [extensionMeaning?, meaning?, henum] at h ⊢
  cases htype : field.type with
  | some type =>
    cases hreference : field.typeName <;>
      cases type <;> simp_all [isSome_resolveMessage?_declare]
  | none =>
    cases hreference : field.typeName with
    | none => rfl
    | some reference =>
      have hmessage := pool.isSome_resolveMessage?_declare dialect file context.scope reference
      rw [htype, hreference] at h
      dsimp only at h ⊢
      -- a message type is looked for first, and there is one in both pools or in neither
      cases hfound : (pool.declare dialect file).resolveMessage? context.scope reference with
      | some type => rfl
      | none =>
        have hnone : (pool.enter dialect file).resolveMessage? context.scope reference = none := by
          simpa [hfound] using hmessage.symm
        rw [hnone] at h
        exact h

theorem isSome_extensionOf?_declare {context : Context} {field : Field}
    (h : ((pool.enter dialect file).extensionOf? context field).isSome = true) :
    ((pool.declare dialect file).extensionOf? context field).isSome = true := by
  obtain ⟨extension, hextension⟩ := Option.isSome_iff_exists.mp h
  obtain ⟨type, htype, hextension⟩ := Option.bind_eq_some_iff.mp hextension
  obtain ⟨meaning, hmeaning, -⟩ := Option.bind_eq_some_iff.mp hextension
  obtain ⟨reference, hreference, htype⟩ := Option.bind_eq_some_iff.mp htype
  have hextended : ((pool.declare dialect file).extended? context field).isSome = true := by
    simp [extended?, hreference, isSome_resolveMessage?_declare, htype]
  have hmeant : ((pool.declare dialect file).extensionMeaning? context field).isSome = true :=
    pool.isSome_extensionMeaning?_declare dialect file (by simp [hmeaning])
  obtain ⟨again, hagain⟩ := Option.isSome_iff_exists.mp hextended
  obtain ⟨meaning', hmeaning'⟩ := Option.isSome_iff_exists.mp hmeant
  simp [extensionOf?, hagain, hmeaning']

end

/-- Every extension of an accepted file is in the pool, under its full name. -/
theorem exists_standsFor_add {pool after : Pool} {file : File} (h : pool.add file = .ok after)
    {entry : String × Field} (hentry : entry ∈ file.scopedExtensions) :
    ∃ extension ∈ after.extensions, extension.name = qualify entry.1 entry.2.nameText ∧
      StandsFor extension entry.2 := by
  obtain ⟨dialect, hdialect, rfl, hrefusal⟩ := add_eq_ok h
  obtain ⟨-, -, -, -, -, hextensions, -⟩ := refusal?_eq_none_iff.mp hrefusal
  obtain ⟨hsound, -⟩ := of_extensionRefusal? hextensions
  rw [← file.map_scoped_placedExtensions dialect] at hentry
  obtain ⟨placed, hplaced, rfl⟩ := List.mem_map.mp hentry
  have hentered := isSome_extensionOf?_of_sound (hsound placed hplaced)
  obtain ⟨extension, hextension⟩ := Option.isSome_iff_exists.mp
    (isSome_extensionOf?_declare pool dialect file hentered)
  refine ⟨extension, ?_, name_of_extensionIn? hextension, standsFor_of_extensionOf? hextension⟩
  exact List.mem_append_right _ (List.mem_filterMap.mpr ⟨placed, hplaced, hextension⟩)

-- ---------------------------------------------------------------------------
-- Files one after the other
-- ---------------------------------------------------------------------------

section

variable {files : List File} {base pool : Pool} (h : files.foldlM add base = .ok pool)
include h

theorem orderly_foldlM (hbase : base.Orderly) : pool.Orderly := by
  induction files generalizing base with
  | nil =>
    cases h
    exact hbase
  | cons file more ih =>
    obtain ⟨middle, hadd, hrest⟩ := bind_eq_ok.mp h
    exact ih hrest (orderly_add hbase hadd)

theorem subset_foldlM : base.messages ⊆ pool.messages ∧ base.extensions ⊆ pool.extensions := by
  induction files generalizing base with
  | nil =>
    cases h
    exact ⟨List.Subset.refl _, List.Subset.refl _⟩
  | cons file more ih =>
    obtain ⟨middle, hadd, hrest⟩ := bind_eq_ok.mp h
    obtain ⟨dialect, -, rfl, -⟩ := add_eq_ok hadd
    obtain ⟨hmessages, hextensions⟩ := ih hrest
    exact ⟨List.Subset.trans (List.subset_append_left _ _) hmessages,
      List.Subset.trans (List.subset_append_left _ _) hextensions⟩

theorem exists_standsFor {file : File} (hfile : file ∈ files) {entry : String × Field}
    (hentry : entry ∈ file.scopedExtensions) :
    ∃ extension ∈ pool.extensions, extension.name = qualify entry.1 entry.2.nameText ∧
      StandsFor extension entry.2 := by
  induction files generalizing base with
  | nil => cases hfile
  | cons first more ih =>
    obtain ⟨middle, hadd, hrest⟩ := bind_eq_ok.mp h
    rcases List.mem_cons.mp hfile with rfl | hmore
    · obtain ⟨extension, hmem, hextension⟩ := exists_standsFor_add hadd hentry
      exact ⟨extension, (subset_foldlM hrest).2 hmem, hextension⟩
    · exact ih hrest hmore

end

-- ---------------------------------------------------------------------------
-- Extensions in the schema
-- ---------------------------------------------------------------------------

theorem Unambiguous.notMem_sets {pool : Pool} (h : pool.Unambiguous) {type : MessageType}
    (htype : type ∈ pool.messages) (hplain : type.form = .plain) :
    type.name ∉ pool.schema.sets := by
  intro hmem
  obtain ⟨other, hother, hname⟩ := List.mem_map.mp hmem
  obtain ⟨hother, hform⟩ := List.mem_filter.mp hother
  obtain rfl := List.inj_on_of_nodup_map h.nodup_messages hother htype hname
  simp [hplain] at hform

namespace Orderly

variable {pool : Pool} (h : pool.Orderly)
include h

theorem number_ne {extension : Extension} (hextension : extension ∈ pool.extensions)
    {type : MessageType} (htype : type ∈ pool.messages) (hname : type.name = extension.extendee)
    {own : Wire.FieldSpec} (hown : own ∈ type.fields) : own.number ≠ extension.field.number := by
  obtain ⟨other, hother, hsame, hfits⟩ := h.fits extension hextension
  obtain rfl := List.inj_on_of_nodup_map h.unambiguous.nodup_messages hother htype
    (hsame.trans hname.symm)
  exact hfits own hown

theorem field?_schema {extension : Extension} (hextension : extension ∈ pool.extensions) :
    pool.schema.field? extension.extendee extension.field.number = some extension.field := by
  obtain ⟨type, htype, hname, hfits⟩ := h.fits extension hextension
  have hown : type.fields.find? (·.number == extension.field.number) = none := by
    simpa using hfits
  have hadded : (pool.extensionFields extension.extendee).find?
      (·.number == extension.field.number) = some extension.field := by
    refine (find?_eq_some_iff_of_nodup (h.unambiguous.nodup_extensionFields _)).mpr ⟨?_, rfl⟩
    exact List.mem_map_of_mem (List.mem_filter.mpr ⟨hextension, by simp⟩)
  rw [Wire.Schema.field?, fieldsOf_schema,
    h.unambiguous.message?_eq_some_iff.mpr ⟨htype, hname⟩, Option.elim_some, List.find?_append,
    hown, hname, hadded]
  rfl

end Orderly

theorem orderly_standard : Standard.pool.Orderly where
  unambiguous := unambiguous_standard
  ranges := by decide +kernel
  fits extension hextension := by cases hextension

end Pool

end SchemaGen.Descriptor
