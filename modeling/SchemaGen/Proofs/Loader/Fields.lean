import SchemaGen.Proofs.CollectionLiteral
import SchemaGen.Proofs.Descriptor.Nesting
import SchemaGen.Proofs.Loader.Retry
import SchemaGen.Proofs.Options.Declarations
import SchemaGen.Proofs.Outline

/-!
# Loaded fields

What the load of a file makes of its fields. A field is a list when it is labelled as repeated,
unless it refers to a map entry of its file (`load_shapes_fields`). Its type in a schema follows from
its type and its reference (`convertField_target`). A leading dot of the reference is dropped twice,
once for the loaded field and once for its type, so that the timestamp is also met behind two dots.
-/

namespace SchemaGen

open Options (Reader)
open Descriptor (File Message Field Located Request StandsIn latest?)
open Fallible

-- ---------------------------------------------------------------------------
-- Fields of a load
-- ---------------------------------------------------------------------------

/-- What a load has stored is made from the file that a name stands for, field by field. -/
theorem Loader.fields_of_load {request : Request} {reader : Option Reader}
    {entry : String × SchemaFile}
    (h : entry ∈ ({ request, reader } : Loader).load.2.files.entries) :
    ∃ file used, latest? request.files entry.1 = some file ∧
      List.Forall₂ (fun message record => List.Forall₂ (fun field loaded =>
          convertField used (mapEntries file) field = .ok loaded) message.fields record.fields)
        file.messages entry.2.messages := by
  obtain hold | ⟨used, file, -, hfile, hconverted⟩ := mem_files_load h
  · cases hold
  · refine ⟨file, used, hfile, (convertFile_ok hconverted).2.2.imp ?_⟩
    intro message record hdescribes
    exact fields_of_convertMessage hdescribes.converted

-- ---------------------------------------------------------------------------
-- Map entries
-- ---------------------------------------------------------------------------

/-- A file has a map entry of a name: a message that is marked as one, stands inside another one,
and has the name with those of the package and of the messages around it. -/
def Descriptor.File.HasMapEntry (file : File) (name : String) : Prop :=
  ∃ around entry, StandsIn file.messages around entry ∧ around ≠ [] ∧ entry.isMapEntry = true ∧
    joinNames (file.packageText :: (around ++ [entry]).map Message.nameText) = name

theorem mem_mapEntries {file : File} {name : String} :
    name ∈ mapEntries file ↔ file.HasMapEntry name := by
  simp only [mapEntries, List.mem_map, List.mem_filter, File.mem_innerMessages, File.HasMapEntry]
  constructor
  · rintro ⟨⟨around, entry⟩, ⟨⟨hstands, hsome⟩, hentry⟩, hname⟩
    exact ⟨around, entry, hstands, hsome, hentry, hname⟩
  · rintro ⟨around, entry, hstands, hsome, hentry, hname⟩
    exact ⟨⟨around, entry⟩, ⟨⟨hstands, hsome⟩, hentry⟩, hname⟩

def insideOf (names : List String) (message : Message) : List (List String × Message) :=
  (message.nested.map fun inner => (names ++ [inner.nameText], inner)).reverse

theorem mem_insideOf {names : List String} {message : Message} {entry : List String × Message} :
    entry ∈ insideOf names message ↔
      ∃ inner ∈ message.nested, (names ++ [inner.nameText], inner) = entry := by
  simp [insideOf]

/-- The names of the map entries inside messages that wait. The first one is taken from the stack,
and the messages inside it are put on top of the others. -/
def gather (package : String) : List (List String × Message) → List String
  | [] => []
  | (names, message) :: waiting =>
    ((insideOf names message).filter (·.2.isMapEntry)).map (fun entry =>
        joinNames (package :: entry.1)) ++
      gather package (insideOf names message ++ waiting)
termination_by waiting => (waiting.map fun entry => sizeOf entry.2).sum
decreasing_by
  have hnested := Options.sum_sizeOf_nested_lt message
  simp [insideOf, List.sum_reverse, Function.comp_def]
  omega

/-- What the search finds in a file, with the last one of its messages on top. -/
def gathered (file : File) : List String :=
  gather file.packageText
    (file.messages.map fun message => ([message.nameText], message)).reverse

theorem mem_gather {package name : String} {waiting : List (List String × Message)} :
    name ∈ gather package waiting ↔ ∃ entry ∈ waiting, ∃ around message,
      StandsIn entry.2.nested around message ∧ message.isMapEntry = true ∧
        joinNames (package :: (entry.1 ++ (around ++ [message]).map Message.nameText)) = name := by
  fun_induction gather package waiting with
  | case1 => simp
  | case2 names message waiting ih =>
    -- an entry right inside the message is found now, a deeper one by way of what is pushed
    simp only [List.mem_append, ih, or_and_right, exists_or, ← or_assoc, List.mem_cons,
      exists_eq_left]
    apply or_congr_left
    constructor
    · rintro (hfound | ⟨_, hpushed, around, entry, hstands, hmarked, hname⟩)
      · obtain ⟨_, hkept, hname⟩ := List.mem_map.mp hfound
        obtain ⟨hinside, hmarked⟩ := List.mem_filter.mp hkept
        obtain ⟨inner, hinner, rfl⟩ := mem_insideOf.mp hinside
        exact ⟨[], inner, .outermost hinner, hmarked, by simpa using hname⟩
      · obtain ⟨inner, hinner, rfl⟩ := mem_insideOf.mp hpushed
        exact ⟨inner :: around, entry, .inside hinner hstands, hmarked, by simpa using hname⟩
    · rintro ⟨around, entry, hstands, hmarked, hname⟩
      cases hstands with
      | outermost hentry =>
        left
        have hinside : (names ++ [entry.nameText], entry) ∈ insideOf names message :=
          mem_insideOf.mpr ⟨entry, hentry, rfl⟩
        exact List.mem_map.mpr ⟨_, List.mem_filter.mpr ⟨hinside, hmarked⟩, hname⟩
      | @inside _ around inner _ hinner hrest =>
        right
        exact ⟨_, mem_insideOf.mpr ⟨inner, hinner, rfl⟩, around, entry, hrest, hmarked,
          by simpa using hname⟩

theorem mem_gathered {file : File} {name : String} :
    name ∈ gathered file ↔ file.HasMapEntry name := by
  simp only [gathered, mem_gather, List.mem_reverse, List.mem_map, File.HasMapEntry]
  constructor
  · rintro ⟨_, ⟨outer, houter, rfl⟩, around, entry, hstands, hmarked, hname⟩
    exact ⟨outer :: around, entry, .inside houter hstands, by simp, hmarked, by simpa using hname⟩
  · rintro ⟨around, entry, hstands, hinner, hmarked, hname⟩
    obtain ⟨outer, around, rfl⟩ := List.exists_cons_of_ne_nil hinner
    obtain ⟨houter, hrest⟩ := StandsIn.cons_iff.mp hstands
    exact ⟨_, ⟨outer, houter, rfl⟩, around, entry, hrest, hmarked, by simpa using hname⟩

-- ---------------------------------------------------------------------------
-- Lists and maps
-- ---------------------------------------------------------------------------

/-- A field of a message type, with or without a message of its own. -/
def Descriptor.Field.IsReference (field : Field) : Prop :=
  field.typeValue = .message ∨ field.typeValue = .group

def Descriptor.File.IsMapField (file : File) (field : Field) : Prop :=
  field.IsReference ∧ file.HasMapEntry (Names.stripDot field.typeNameText)

theorem isEntryOf_kindOf {file : File} {field : Field} :
    (kindOf field).isEntryOf (mapEntries file) = true ↔ file.IsMapField field := by
  unfold File.IsMapField Field.IsReference kindOf
  cases field.typeValue <;> simp [FieldKind.isEntryOf, mem_mapEntries]

def HasBracket (text : String) : Prop := '[' ∈ text.toList ∨ ']' ∈ text.toList

instance (text : String) : Decidable (HasBracket text) := by
  unfold HasBracket
  infer_instance

/-- What becomes of a field of a file: whether it is a list, and how its type is then written, in
brackets that stand nowhere else after its name. -/
structure LoadedShape (file : File) (field : Field) (loaded : SchemaField) : Prop where
  name : loaded.name = field.nameText
  repeated : loaded.repeated = true ↔ field.labelValue = .repeated ∧ ¬file.IsMapField field
  list : field.labelValue = .repeated → ¬file.IsMapField field →
    loaded.typeExpression = "[" ++ loaded.target.expression ++ "]"
  map : file.IsMapField field → loaded.typeExpression = loaded.target.expression
  bare : ¬HasBracket loaded.target.expression
  written : ∃ front back, ¬HasBracket front ∧ ¬HasBracket back ∧
    ModuleText.field loaded = loaded.name ++ ": " ++ front ++ loaded.typeExpression ++ back

theorem not_hasBracket_keys (flags : Flags) :
    ¬HasBracket (", " ++ ", ".intercalate (flags.keys.map (· ++ ": true")) ++ " \x7d") := by
  obtain ⟨unique, required, indexed⟩ := flags
  cases unique <;> cases required <;> cases indexed <;> decide

theorem exists_field_eq (loaded : SchemaField) :
    ∃ front back, ¬HasBracket front ∧ ¬HasBracket back ∧
      ModuleText.field loaded = loaded.name ++ ": " ++ front ++ loaded.typeExpression ++ back := by
  unfold ModuleText.field
  split
  · exact ⟨"", "", by decide, by decide, by simp⟩
  · next hkeys =>
    refine ⟨"\x7b type: ", _, by decide, not_hasBracket_keys loaded.flags, ?_⟩
    have hsome : loaded.flags.keys.map (· ++ ": true") ≠ [] := by simpa using hkeys
    obtain ⟨key, more, hkeys⟩ := List.exists_cons_of_ne_nil hsome
    simp [← String.toList_inj, hkeys]

theorem loadedShape_of_convertField {reader : Reader} {file : File} {field : Field}
    {loaded : SchemaField} (h : convertField reader (mapEntries file) field = .ok loaded) :
    LoadedShape file field loaded := by
  obtain ⟨hname, -, hrepeated, -⟩ := convertField_ok h
  have hiff : loaded.repeated = true ↔ field.labelValue = .repeated ∧ ¬file.IsMapField field := by
    simp [hrepeated, ← isEntryOf_kindOf]
  refine ⟨hname, hiff, ?_, ?_, ?_, exists_field_eq loaded⟩
  · intro hlabel hmap
    simp [SchemaField.typeExpression, hiff.mpr ⟨hlabel, hmap⟩]
  · intro hmap
    have hplain : ¬loaded.repeated = true := fun hlist => (hiff.mp hlist).2 hmap
    simp [SchemaField.typeExpression, hplain]
  · cases loaded.target <;> decide

/-- A module has a line, with whole lines before it and after it in its text. -/
def ModuleText.HasLine (target : Target) (schema : SchemaFile) (record : SchemaMessage)
    (line : String) : Prop :=
  ∃ before after, lines target schema record = before ++ line :: after ∧
    (content target schema record).toList =
      ended before ++ line.toList ++ '\n' :: ended after

theorem ModuleText.hasLine_of_mem {target : Target} {schema : SchemaFile} {record : SchemaMessage}
    {line : String} (h : line ∈ lines target schema record) : HasLine target schema record line := by
  obtain ⟨before, after, hlines⟩ := List.append_of_mem h
  refine ⟨before, after, hlines, ?_⟩
  rw [content, toList_intercalate_newline (List.ne_nil_of_mem h), hlines, ended_append]
  simp [ended]

/-- Every field has a line of its own in the module, whatever the module is generated for. -/
theorem hasLine_field {record : SchemaMessage} {loaded : SchemaField} (schema : SchemaFile)
    (target : Target) (h : loaded ∈ record.fields) :
    ∃ ending ∈ ["", ","],
      ModuleText.HasLine target schema record ("  " ++ ModuleText.field loaded ++ ending) := by
  obtain ⟨index, hindex, rfl⟩ := List.mem_iff_getElem.mp h
  refine ⟨if index + 1 < record.fields.length then "," else "", by split <;> simp, ?_⟩
  have hline : "  " ++ ModuleText.field record.fields[index] ++
      (if index + 1 < record.fields.length then "," else "") ∈
        ModuleText.fieldLines record.fields := by
    rw [ModuleText.fieldLines_eq_mapIdx]
    exact List.mem_mapIdx.mpr ⟨index, hindex, rfl⟩
  apply ModuleText.hasLine_of_mem
  simp [ModuleText.lines, ModuleText.schemaLines, hline]

/-- Of the fields that a load has stored, those are lists that are labelled as repeated and are no
maps, and each is so written in the text of its module. Map entries are what the search with a stack
finds. -/
theorem Loader.load_shapes_fields {request : Request} {reader : Option Reader}
    {entry : String × SchemaFile}
    (h : entry ∈ ({ request, reader } : Loader).load.2.files.entries) :
    ∃ file, latest? request.files entry.1 = some file ∧
      List.Forall₂ (fun message record =>
          List.Forall₂ (LoadedShape file) message.fields record.fields ∧
          ∀ loaded ∈ record.fields, ∀ target, ∃ ending ∈ ["", ","],
            ModuleText.HasLine target entry.2 record ("  " ++ ModuleText.field loaded ++ ending))
        file.messages entry.2.messages ∧
      ∀ name, name ∈ gathered file ↔ file.HasMapEntry name := by
  obtain ⟨file, used, hfile, hfields⟩ := fields_of_load h
  refine ⟨file, hfile, hfields.imp ?_, fun name => mem_gathered⟩
  intro message record hmessage
  constructor
  · exact hmessage.imp fun field loaded => loadedShape_of_convertField
  · intro loaded hloaded target
    exact hasLine_field entry.2 target hloaded

/-- A file with one map entry right inside a message and one deeper, with a marked message that
stands inside no other one, and with references to each of them. -/
def shelfFile : File where
  name := some "shelf.proto"
  package := some "shop"
  messages := [
    { name := some "Shelf",
      fields := [
        { name := some "labels", label := some .repeated, type := some .message,
          typeName := some ".shop.Shelf.Box.LabelsEntry" },
        { name := some "tags", label := some .repeated, type := some .group,
          typeName := some "shop.Shelf.TagsEntry" },
        { name := some "boxes", label := some .repeated, type := some .message,
          typeName := some ".shop.Shelf.Box" },
        { name := some "pairs", label := some .repeated, type := some .message,
          typeName := some ".shop.Pair" },
        { name := some "far", label := some .repeated, type := some .message,
          typeName := some "..shop.Shelf.TagsEntry" },
        { name := some "width", type := some .double }],
      nested := [
        { name := some "Box",
          nested := [{ name := some "LabelsEntry", options := some [.varint 7 1] }] },
        { name := some "TagsEntry", options := some [.varint 7 1] }] },
    { name := some "Pair", options := some [.varint 7 1] }]

def shelfRequest : Request := { files := [shelfFile], targets := ["shelf.proto"] }

def shelfSchema : SchemaFile where
  name := "shelf.proto"
  package := some "shop"
  messages := [
    { name := "Shelf", fullName := "shop.Shelf", collection := "shelfs",
      fields := [
        { name := "labels", number := 0, kind := .message "shop.Shelf.Box.LabelsEntry" },
        { name := "tags", number := 0, kind := .message "shop.Shelf.TagsEntry" },
        { name := "boxes", number := 0, kind := .message "shop.Shelf.Box", repeated := true },
        { name := "pairs", number := 0, kind := .message "shop.Pair", repeated := true },
        { name := "far", number := 0, kind := .message ".shop.Shelf.TagsEntry", repeated := true },
        { name := "width", number := 0, kind := .scalar 1 }] },
    { name := "Pair", fullName := "shop.Pair", collection := "pairs" }]

theorem Loader.load_shapes_shelf :
    ("shelf.proto", shelfSchema) ∈ ({ request := shelfRequest } : Loader).load.2.files.entries ∧
      List.Forall₂ (fun message record =>
          List.Forall₂ (LoadedShape shelfFile) message.fields record.fields)
        shelfFile.messages shelfSchema.messages ∧
      shelfSchema.messages.map (·.fields.map ModuleText.field) =
        [["labels: Schema.Types.Mixed", "tags: Schema.Types.Mixed", "boxes: [Schema.Types.Mixed]",
          "pairs: [Schema.Types.Mixed]", "far: [Schema.Types.Mixed]", "width: Number"], []] := by
  have hconverted : shelfRequest.converted ⟨[], { types := [] }, [], []⟩ = .ok [shelfSchema] := by
    decide +kernel
  have hentry : ("shelf.proto", shelfSchema) ∈
      ({ request := shelfRequest } : Loader).load.2.files.entries := by
    rw [files_load (load_of_converted rfl rfl hconverted).1]
    exact List.mem_singleton.mpr rfl
  obtain ⟨file, hfile, hshapes, -⟩ := load_shapes_fields hentry
  obtain rfl : shelfFile = file := Option.some.inj hfile
  exact ⟨hentry, hshapes.imp fun _ _ hmessage => hmessage.1, by decide⟩

-- ---------------------------------------------------------------------------
-- Types of fields
-- ---------------------------------------------------------------------------

/-- The type that a field is mapped to as it stands, with its reference as it is written. -/
def TargetType.ofField (field : Field) : TargetType :=
  match field.typeValue with
  | .message | .group => ofKind (.message field.typeNameText)
  | .enum => ofKind (.enum field.typeNameText)
  | type => ofScalar type.code

theorem stripDot_eq_dotted {reference name : String} :
    Names.stripDot reference = "." ++ name ↔ reference = ".." ++ name := by
  unfold Names.stripDot
  split
  · next rest hrest => simp [← String.toList_inj, hrest]
  · next hplain =>
    constructor
    · rintro rfl
      exact absurd (String.toList_append) (hplain name.toList)
    · rintro rfl
      exact absurd (String.toList_append) (hplain ('.' :: name.toList))

theorem ofKind_message_stripDot (reference : String) :
    TargetType.ofKind (.message (Names.stripDot reference)) =
      if reference ∈ ["", ".", ".."].map (· ++ TargetType.timestamp) then .date else .mixed := by
  have hfirst : TargetType.timestamp.toList.head? ≠ some '.' := by decide
  simp [TargetType.ofKind, Options.stripDot_eq_iff hfirst, stripDot_eq_dotted, or_assoc]

theorem ofKind_message (reference : String) :
    TargetType.ofKind (.message reference) =
      if reference ∈ ["", "."].map (· ++ TargetType.timestamp) then .date else .mixed := by
  have hfirst : TargetType.timestamp.toList.head? ≠ some '.' := by decide
  simp [TargetType.ofKind, Options.stripDot_eq_iff hfirst]

/-- The type of a loaded field, and where it differs from that of the field as it stands. -/
structure LoadedTarget (field : Field) (loaded : SchemaField) : Prop where
  reference : field.IsReference → loaded.target =
    if field.typeNameText ∈ ["", ".", ".."].map (· ++ TargetType.timestamp) then .date else .mixed
  enum : field.typeValue = .enum → loaded.target = .string
  scalar : ∀ code, loaded.kind = .scalar code ↔
    code = field.typeValue.code ∧ field.typeValue ∉ [.message, .group, .enum]
  table : ∀ code, loaded.kind = .scalar code →
    loaded.target = TargetType.ofScalar code ∧ code ∉ [10, 11, 14]
  agrees : loaded.target = TargetType.ofField field ↔
    ¬(field.IsReference ∧ field.typeNameText = ".." ++ TargetType.timestamp)

theorem kindOf_reference {field : Field} (h : field.IsReference) :
    kindOf field = .message (Names.stripDot field.typeNameText) := by
  obtain h | h := h <;> simp [kindOf, h]

theorem ofField_reference {field : Field} (h : field.IsReference) :
    TargetType.ofField field = TargetType.ofKind (.message field.typeNameText) := by
  obtain h | h := h <;> simp [TargetType.ofField, h]

theorem kindOf_eq_scalar {field : Field} {code : Int} :
    kindOf field = .scalar code ↔
      code = field.typeValue.code ∧ field.typeValue ∉ [.message, .group, .enum] := by
  unfold kindOf
  cases field.typeValue <;> simp [eq_comm]

theorem ofField_of_not_reference {field : Field} (h : ¬field.IsReference) :
    TargetType.ofField field = TargetType.ofKind (kindOf field) := by
  unfold Field.IsReference at h
  unfold TargetType.ofField kindOf
  cases htype : field.typeValue <;> simp_all [TargetType.ofKind]

theorem loadedTarget_of_kind {field : Field} {loaded : SchemaField}
    (h : loaded.kind = kindOf field) : LoadedTarget field loaded := by
  have htarget : loaded.target = TargetType.ofKind (kindOf field) := by rw [SchemaField.target, h]
  constructor
  case reference =>
    intro hreference
    rw [htarget, kindOf_reference hreference, ofKind_message_stripDot]
  case enum =>
    intro henum
    simp [htarget, kindOf, henum, TargetType.ofKind]
  case scalar =>
    intro code
    rw [h, kindOf_eq_scalar]
  case table =>
    intro code hcode
    obtain ⟨rfl, htype⟩ := kindOf_eq_scalar.mp (h.symm.trans hcode)
    constructor
    · simp [SchemaField.target, hcode, TargetType.ofKind]
    · revert htype
      cases field.typeValue <;> decide
  case agrees =>
    by_cases hreference : field.IsReference
    · -- the two differ in the reference that only the double drop takes for the timestamp
      rw [htarget, kindOf_reference hreference, ofField_reference hreference,
        ofKind_message_stripDot, ofKind_message]
      by_cases htwice : field.typeNameText = ".." ++ TargetType.timestamp
      · simp [hreference, htwice, TargetType.timestamp]
      · simp [hreference, htwice]
    · simp [htarget, ofField_of_not_reference hreference, hreference]

/-- A field is loaded unless its options cannot be read. A message other than the timestamp has no
type of its own, and the loaded field differs from the field as it stands for two dots only. -/
theorem convertField_target (reader : Reader) (entries : List String) (field : Field) :
    (∃ failure, reader.fieldFlags field.options = .error failure ∧
      convertField reader entries field = .error failure) ∨
    ∃ loaded, convertField reader entries field = .ok loaded ∧ LoadedTarget field loaded := by
  cases hflags : reader.fieldFlags field.options with
  | error failure =>
    left
    exact ⟨failure, rfl, by simp [convertField, hflags]⟩
  | ok flags =>
    right
    refine ⟨_, by simp only [convertField, hflags, ok_bind, pure_eq]; rfl, loadedTarget_of_kind rfl⟩

def dottedTime : Field where
  name := some "at"
  type := some .message
  typeName := some "..google.protobuf.Timestamp"

theorem target_dottedTime :
    ∃ loaded, convertField ⟨[], { types := [] }, [], []⟩ [] dottedTime = .ok loaded ∧
      loaded.target = .date ∧ ModuleText.field loaded = "at: Date" ∧
      TargetType.ofField dottedTime = .mixed :=
  ⟨_, rfl, by decide, by decide, by decide⟩

end SchemaGen
