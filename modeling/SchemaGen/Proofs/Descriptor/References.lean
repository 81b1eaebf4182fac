import Mathlib.Data.List.Perm.Subperm
import SchemaGen.Descriptor.Pool
import SchemaGen.Proofs.Wire.SchemaOrder

/-!
# References in full

A reference that starts with a dot is a full name and needs no scope. In a pool where every name
stands for one thing, what such references mean stays when the pool grows: the fields of a file that
is settled come to the same in a larger pool (`map_typeOf_of_known`), and so do its extensions
(`filterMap_extensionIn?_of_known`).
-/

namespace SchemaGen.Descriptor

-- ---------------------------------------------------------------------------
-- References in full
-- ---------------------------------------------------------------------------

def IsFull (reference : String) : Prop := ∀ c ∈ reference.toList.head?, c = '.'

instance : DecidablePred IsFull := fun reference =>
  Option.decidableForallMem reference.toList.head?

def fullName? (reference : String) : Option String :=
  match reference.toList with
  | '.' :: name => some (String.ofList name)
  | _ => none

/-- A field that refers in full to its type and to what it extends. -/
structure Field.RefersInFull (field : Field) : Prop where
  type : ∀ reference ∈ field.typeName, IsFull reference
  extended : ∀ reference ∈ field.extendee, IsFull reference

instance (field : Field) : Decidable field.RefersInFull :=
  decidable_of_iff ((∀ reference ∈ field.typeName, IsFull reference) ∧
      ∀ reference ∈ field.extendee, IsFull reference)
    ⟨fun h => ⟨h.1, h.2⟩, fun h => ⟨h.type, h.extended⟩⟩

structure File.RefersInFull (file : File) : Prop where
  fields : ∀ located ∈ file.allMessages, ∀ field ∈ located.message.fields, field.RefersInFull
  extensions : ∀ entry ∈ file.scopedExtensions, entry.2.RefersInFull

instance (file : File) : Decidable file.RefersInFull :=
  decidable_of_iff
    ((∀ located ∈ file.allMessages, ∀ field ∈ located.message.fields, field.RefersInFull) ∧
      ∀ entry ∈ file.scopedExtensions, entry.2.RefersInFull)
    ⟨fun h => ⟨h.1, h.2⟩, fun h => ⟨h.fields, h.extensions⟩⟩

-- ---------------------------------------------------------------------------
-- Unambiguous pools
-- ---------------------------------------------------------------------------

theorem firstRepeated?_eq_none {α : Type} [BEq α] [LawfulBEq α] {members : List α} :
    firstRepeated? members = none ↔ members.Nodup := by
  induction members with
  | nil => simp [firstRepeated?]
  | cons first more ih =>
    rw [firstRepeated?, List.nodup_cons, ← ih]
    by_cases hmem : first ∈ more
    · simp [hmem]
    · simp [hmem]

namespace Pool

def tableNames (pool : Pool) : List String :=
  pool.messages.map MessageType.name ++
    (pool.enums.map EnumType.name ++ pool.extensions.map Extension.name)

def extensionNumbers (pool : Pool) : List (String × Nat) :=
  pool.extensions.map fun extension => (extension.extendee, extension.field.number)

/-- Every name in the tables is a symbol and stands for one thing, and every number of a type stands
for one extension. -/
structure Unambiguous (pool : Pool) : Prop where
  named : pool.tableNames.Subperm pool.symbols
  names : pool.tableNames.Nodup
  numbers : pool.extensionNumbers.Nodup

theorem resolve?_bind {pool : Pool} {α : Type} {table : String → Option α}
    (htable : ∀ name value, table name = some value → name ∈ pool.symbols) (scope : String)
    {reference : String} (hfull : IsFull reference) :
    (pool.resolve? scope reference).bind table = (fullName? reference).bind table := by
  rw [IsFull] at hfull
  rw [resolve?, fullName?]
  cases hchars : reference.toList with
  | nil => rfl
  | cons c name =>
    obtain rfl : c = '.' := hfull c (by simp [hchars])
    show (pool.symbols.find? (· == String.ofList name)).bind table = table (String.ofList name)
    cases hfound : pool.symbols.find? (· == String.ofList name) with
    | some found =>
      obtain rfl : found = String.ofList name := by simpa using List.find?_some hfound
      rfl
    | none =>
      cases hvalue : table (String.ofList name) with
      | none => rfl
      | some value => simpa using List.find?_eq_none.mp hfound _ (htable _ value hvalue)

namespace Unambiguous

variable {pool : Pool} (h : pool.Unambiguous)
include h

theorem nodup_messages : (pool.messages.map MessageType.name).Nodup :=
  (List.nodup_append.mp h.names).1

theorem nodup_enums : (pool.enums.map EnumType.name).Nodup :=
  (List.nodup_append.mp (List.nodup_append.mp h.names).2.1).1

theorem nodup_extensions : (pool.extensions.map Extension.name).Nodup :=
  (List.nodup_append.mp (List.nodup_append.mp h.names).2.1).2.1

theorem message?_eq_some_iff {name : String} {type : MessageType} :
    pool.message? name = some type ↔ type ∈ pool.messages ∧ type.name = name :=
  find?_eq_some_iff_of_nodup h.nodup_messages

theorem enum?_eq_some_iff {name : String} {enum : EnumType} :
    pool.enum? name = some enum ↔ enum ∈ pool.enums ∧ enum.name = name :=
  find?_eq_some_iff_of_nodup h.nodup_enums

theorem message?_eq_none_of_enum? {name : String} {enum : EnumType}
    (henum : pool.enum? name = some enum) : pool.message? name = none := by
  cases hmessage : pool.message? name with
  | none => rfl
  | some type =>
    obtain ⟨hmem, rfl⟩ := h.enum?_eq_some_iff.mp henum
    obtain ⟨hmem', hname⟩ := h.message?_eq_some_iff.mp hmessage
    refine absurd hname ((List.nodup_append.mp h.names).2.2 _ ?_ _ ?_)
    · exact List.mem_map_of_mem hmem'
    · exact List.mem_append_left _ (List.mem_map_of_mem hmem)

theorem resolveMessage?_eq (scope : String) {reference : String} (hfull : IsFull reference) :
    pool.resolveMessage? scope reference = (fullName? reference).bind pool.message? := by
  refine resolve?_bind (fun name type htype => ?_) scope hfull
  obtain ⟨hmem, rfl⟩ := h.message?_eq_some_iff.mp htype
  exact h.named.subset (List.mem_append_left _ (List.mem_map_of_mem hmem))

theorem resolveEnum?_eq (scope : String) {reference : String} (hfull : IsFull reference) :
    pool.resolveEnum? scope reference = (fullName? reference).bind pool.enum? := by
  refine resolve?_bind (fun name enum henum => ?_) scope hfull
  obtain ⟨hmem, rfl⟩ := h.enum?_eq_some_iff.mp henum
  exact h.named.subset
    (List.mem_append_right _ (List.mem_append_left _ (List.mem_map_of_mem hmem)))

end Unambiguous

-- ---------------------------------------------------------------------------
-- What stays when a pool grows
-- ---------------------------------------------------------------------------

/-- Another pool has the message types and enums of a pool. The fields of a message type may differ,
since no reference looks at them. -/
structure KnownTo (pool other : Pool) : Prop where
  messages : ∀ type ∈ pool.messages, ∃ again ∈ other.messages,
    again.name = type.name ∧ again.form = type.form
  enums : pool.enums ⊆ other.enums

section

variable {pool other : Pool} (hpool : pool.Unambiguous) (hother : other.Unambiguous)
  (hknown : pool.KnownTo other)
include hpool hother hknown

theorem resolveMessage?_of_known {scope reference : String} (hfull : IsFull reference)
    {type : MessageType} (h : pool.resolveMessage? scope reference = some type) :
    ∃ again, other.resolveMessage? scope reference = some again ∧ again.name = type.name ∧
      again.form = type.form := by
  rw [hpool.resolveMessage?_eq scope hfull] at h
  obtain ⟨name, hname, htype⟩ := Option.bind_eq_some_iff.mp h
  obtain ⟨hmem, rfl⟩ := hpool.message?_eq_some_iff.mp htype
  obtain ⟨again, hagain, hsame, hform⟩ := hknown.messages type hmem
  refine ⟨again, ?_, hsame, hform⟩
  rw [hother.resolveMessage?_eq scope hfull, hname]
  exact hother.message?_eq_some_iff.mpr ⟨hagain, hsame⟩

theorem resolveEnum?_of_known {scope reference : String} (hfull : IsFull reference)
    {enum : EnumType} (h : pool.resolveEnum? scope reference = some enum) :
    other.resolveEnum? scope reference = some enum ∧
      other.resolveMessage? scope reference = none := by
  rw [hpool.resolveEnum?_eq scope hfull] at h
  obtain ⟨name, hname, henum⟩ := Option.bind_eq_some_iff.mp h
  obtain ⟨hmem, hsame⟩ := hpool.enum?_eq_some_iff.mp henum
  have hagain := hother.enum?_eq_some_iff.mpr ⟨hknown.enums hmem, hsame⟩
  rw [hother.resolveEnum?_eq scope hfull, hother.resolveMessage?_eq scope hfull, hname]
  exact ⟨hagain, hother.message?_eq_none_of_enum? hagain⟩

/-- What a field means stays, as far as it shows on the wire. -/
theorem meaning?_of_known {scope : String} {features : Features} {owner : Form} {field : Field}
    (hfull : ∀ reference ∈ field.typeName, IsFull reference) {meaning : Meaning}
    (h : pool.meaning? scope features owner field = some meaning) :
    ∃ again, other.meaning? scope features owner field = some again ∧
      again.kind features = meaning.kind features := by
  rw [meaning?] at h
  split at h
  · next reference htype hname =>
    obtain ⟨type, hresolved, rfl⟩ := Option.map_eq_some_iff.mp h
    obtain ⟨again, hagain, hsame, hform⟩ :=
      resolveMessage?_of_known hpool hother hknown (hfull reference hname) hresolved
    refine ⟨plainMessage features owner again, ?_, ?_⟩
    · simp [meaning?, htype, hname, hagain]
    · simp [plainMessage, Meaning.kind, hsame, hform]
  · next reference htype hname =>
    obtain ⟨type, hresolved, rfl⟩ := Option.map_eq_some_iff.mp h
    obtain ⟨again, hagain, hsame, -⟩ :=
      resolveMessage?_of_known hpool hother hknown (hfull reference hname) hresolved
    refine ⟨.message again true, ?_, ?_⟩
    · simp [meaning?, htype, hname, hagain]
    · simp [Meaning.kind, hsame]
  · next reference htype hname =>
    obtain ⟨enum, hresolved, rfl⟩ := Option.map_eq_some_iff.mp h
    obtain ⟨hagain, -⟩ :=
      resolveEnum?_of_known hpool hother hknown (hfull reference hname) hresolved
    refine ⟨.enum enum, ?_, rfl⟩
    simp [meaning?, htype, hname, hagain]
  · cases h
  · cases h
  · cases h
  · cases h
    refine ⟨_, ?_, rfl⟩
    simp [meaning?, *]
  · cases h
  · next reference htype hname =>
    -- without a type the reference is tried as a message first
    have hreference := hfull reference hname
    split at h
    · next type hresolved =>
      cases h
      obtain ⟨again, hagain, hsame, hform⟩ :=
        resolveMessage?_of_known hpool hother hknown hreference hresolved
      refine ⟨plainMessage features owner again, ?_, ?_⟩
      · simp [meaning?, htype, hname, hagain]
      · simp [plainMessage, Meaning.kind, hsame, hform]
    · obtain ⟨enum, hresolved, rfl⟩ := Option.map_eq_some_iff.mp h
      obtain ⟨hagain, hnone⟩ := resolveEnum?_of_known hpool hother hknown hreference hresolved
      refine ⟨.enum enum, ?_, rfl⟩
      simp [meaning?, htype, hname, hagain, hnone]
  · next htype hname =>
    cases h
    refine ⟨_, ?_, rfl⟩
    simp [meaning?, htype, hname]

theorem fieldSpec?_of_known {context : Context} {message : Message} {field : Field}
    (hfull : field.RefersInFull) {spec : Wire.FieldSpec}
    (h : pool.fieldSpec? context message field = some spec) :
    other.fieldSpec? context message field = some spec := by
  obtain ⟨meaning, hmeaning, rfl⟩ := Option.map_eq_some_iff.mp h
  obtain ⟨again, hagain, hkind⟩ := meaning?_of_known hpool hother hknown hfull.type hmeaning
  rw [fieldSpec?, fieldMeaning?, hagain, Option.map_some, specOf, specOf, hkind]

theorem extensionOf?_of_known {context : Context} {field : Field} (hfull : field.RefersInFull)
    {extension : Extension} (h : pool.extensionOf? context field = some extension) :
    other.extensionOf? context field = some extension := by
  obtain ⟨extended, hextended, h⟩ := Option.bind_eq_some_iff.mp h
  obtain ⟨meaning, hmeaning, h⟩ := Option.bind_eq_some_iff.mp h
  cases h
  obtain ⟨reference, hreference, hresolved⟩ := Option.bind_eq_some_iff.mp hextended
  obtain ⟨type, htype, hname, -⟩ := resolveMessage?_of_known hpool hother hknown
    (hfull.extended reference hreference) hresolved
  obtain ⟨again, hagain, hkind⟩ := meaning?_of_known hpool hother hknown hfull.type hmeaning
  simp [extensionOf?, extended?, extensionMeaning?, hreference, htype, hagain, hname, specOf, hkind]

end

end Pool

-- ---------------------------------------------------------------------------
-- The declarations of a file
-- ---------------------------------------------------------------------------

namespace File

def messagesInPlace (file : File) : List (Context × Message) :=
  file.dialect?.elim [] file.placedMessages

def extensionsInPlace (file : File) : List (Context × Field) :=
  file.dialect?.elim [] file.placedExtensions

def enumTypes (file : File) : List EnumType :=
  file.dialect?.elim [] fun dialect =>
    (file.placedEnums dialect).map fun placed => Pool.enumType placed.1 placed.2

def outermostNames (file : File) : List String :=
  file.messages.map fun message => qualify file.packageText message.nameText

theorem map_scope_placedMessages (file : File) (dialect : Dialect) :
    (file.placedMessages dialect).map (·.1.scope) =
      file.allMessages.map fun located => file.scopeOf located.path := by
  simp [placedMessages, contextOf, Function.comp_def]

theorem map_scoped_placedExtensions (file : File) (dialect : Dialect) :
    (file.placedExtensions dialect).map (fun placed => (placed.1.scope, placed.2)) =
      file.scopedExtensions := by
  simp [placedExtensions, scopedExtensions, placedMessages, contextOf, context,
    List.map_flatMap, List.flatMap_map, Function.comp_def]

theorem map_scoped_placedEnums (file : File) (dialect : Dialect) :
    (file.placedEnums dialect).map (fun placed => (placed.1.scope, placed.2)) =
      file.scopedEnums := by
  simp [placedEnums, scopedEnums, placedMessages, contextOf, context, List.map_flatMap,
    List.flatMap_map, Function.comp_def]

theorem RefersInFull.messagesInPlace {file : File} (h : file.RefersInFull)
    {placed : Context × Message} (hplaced : placed ∈ file.messagesInPlace) :
    ∀ field ∈ placed.2.fields, field.RefersInFull := by
  rw [File.messagesInPlace] at hplaced
  cases hdialect : file.dialect? with
  | none => simp [hdialect] at hplaced
  | some dialect =>
    rw [hdialect] at hplaced
    obtain ⟨located, hlocated, rfl⟩ := List.mem_map.mp hplaced
    exact h.fields located hlocated

theorem RefersInFull.extensionsInPlace {file : File} (h : file.RefersInFull)
    {placed : Context × Field} (hplaced : placed ∈ file.extensionsInPlace) :
    placed.2.RefersInFull := by
  rw [File.extensionsInPlace] at hplaced
  cases hdialect : file.dialect? with
  | none => simp [hdialect] at hplaced
  | some dialect =>
    rw [hdialect] at hplaced
    refine h.extensions (placed.1.scope, placed.2) ?_
    rw [← file.map_scoped_placedExtensions dialect]
    exact List.mem_map.mpr ⟨placed, hplaced, rfl⟩

end File

namespace Pool

def typeOf (pool : Pool) (placed : Context × Message) : MessageType :=
  ⟨placed.1.scope, placed.2.fields.filterMap (pool.fieldSpec? placed.1 placed.2),
    placed.2.numberRanges, placed.2.form⟩

def extensionIn? (pool : Pool) (placed : Context × Field) : Option Extension :=
  pool.extensionOf? placed.1 placed.2

/-- All that a file refers to is in the pool. -/
structure Settles (pool : Pool) (file : File) : Prop where
  fields : ∀ placed ∈ file.messagesInPlace, ∀ field ∈ placed.2.fields,
    (pool.fieldSpec? placed.1 placed.2 field).isSome
  extensions : ∀ placed ∈ file.extensionsInPlace, (pool.extensionIn? placed).isSome

section

variable {pool other : Pool} (hpool : pool.Unambiguous) (hother : other.Unambiguous)
  (hknown : pool.KnownTo other) {file : File} (hfull : file.RefersInFull)
  (hsettled : pool.Settles file)
include hpool hother hknown hfull hsettled

theorem Settles.of_known : other.Settles file := by
  constructor
  · intro placed hplaced field hfield
    obtain ⟨spec, hspec⟩ :=
      Option.isSome_iff_exists.mp (hsettled.fields placed hplaced field hfield)
    rw [fieldSpec?_of_known hpool hother hknown (hfull.messagesInPlace hplaced field hfield) hspec]
    rfl
  · intro placed hplaced
    obtain ⟨extension, hextension⟩ :=
      Option.isSome_iff_exists.mp (hsettled.extensions placed hplaced)
    rw [extensionIn?, extensionOf?_of_known hpool hother hknown (hfull.extensionsInPlace hplaced)
      hextension]
    rfl

theorem map_typeOf_of_known :
    file.messagesInPlace.map other.typeOf = file.messagesInPlace.map pool.typeOf := by
  refine List.map_congr_left fun placed hplaced => ?_
  rw [typeOf, typeOf]
  congr 1
  refine List.filterMap_congr fun field hfield => ?_
  obtain ⟨spec, hspec⟩ := Option.isSome_iff_exists.mp (hsettled.fields placed hplaced field hfield)
  rw [hspec]
  exact fieldSpec?_of_known hpool hother hknown (hfull.messagesInPlace hplaced field hfield) hspec

theorem filterMap_extensionIn?_of_known :
    file.extensionsInPlace.filterMap other.extensionIn? =
      file.extensionsInPlace.filterMap pool.extensionIn? := by
  refine List.filterMap_congr fun placed hplaced => ?_
  obtain ⟨extension, hextension⟩ := Option.isSome_iff_exists.mp (hsettled.extensions placed hplaced)
  rw [hextension]
  exact extensionOf?_of_known hpool hother hknown (hfull.extensionsInPlace hplaced) hextension

end

end Pool

end SchemaGen.Descriptor
