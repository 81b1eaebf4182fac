import SchemaGen.Descriptor.Features
import SchemaGen.Proofs.Descriptor.Layout

/-!
# Canonical descriptors

A descriptor is canonical when its options and its other records are in their normal forms. What is
read from the normal form of a descriptor's records is the canonical form of what is read from the
records (`Request.ofRecords_normal`).
-/

namespace SchemaGen.Descriptor

open Wire (Record)

open Standard

-- ---------------------------------------------------------------------------
-- Other records for the same meaning
-- ---------------------------------------------------------------------------

/-- A way to rewrite records, by the type of the message that they make up. -/
abbrev Revision := String → List Record → List Record

namespace Field

def revise (revision : Revision) (field : Field) : Field :=
  { field with
    options := field.options.map (revision fieldOptions)
    rest := revision fieldDescriptor field.rest }

end Field

namespace EnumValue

def revise (revision : Revision) (value : EnumValue) : EnumValue :=
  { value with
    options := value.options.map (revision enumValueOptions)
    rest := revision enumValueDescriptor value.rest }

end EnumValue

namespace ReservedRange

/-- Ranges of numbers are of one type in messages and of another in enums. -/
def revise (revision : Revision) (type : String) (range : ReservedRange) : ReservedRange :=
  { range with rest := revision type range.rest }

end ReservedRange

namespace Enum

def revise (revision : Revision) (enum : Enum) : Enum :=
  { enum with
    values := enum.values.map (·.revise revision)
    options := enum.options.map (revision enumOptions)
    reserved := enum.reserved.map (·.revise revision enumReservedRange)
    rest := revision enumDescriptor enum.rest }

end Enum

namespace ExtensionRange

def revise (revision : Revision) (range : ExtensionRange) : ExtensionRange :=
  { range with
    options := range.options.map (revision extensionRangeOptions)
    rest := revision extensionRange range.rest }

end ExtensionRange

namespace Oneof

def revise (revision : Revision) (oneof : Oneof) : Oneof :=
  { oneof with
    options := oneof.options.map (revision oneofOptions)
    rest := revision oneofDescriptor oneof.rest }

end Oneof

namespace Message

mutual
def revise (revision : Revision) : Message → Message
  | ⟨name, fields, extensions, nested, enums, ranges, oneofs, options, reserved, rest⟩ =>
    { name
      fields := fields.map (·.revise revision)
      extensions := extensions.map (·.revise revision)
      nested := reviseAll revision nested
      enums := enums.map (·.revise revision)
      ranges := ranges.map (·.revise revision)
      oneofs := oneofs.map (·.revise revision)
      options := options.map (revision messageOptions)
      reserved := reserved.map (·.revise revision reservedRange)
      rest := revision messageDescriptor rest }
def reviseAll (revision : Revision) : List Message → List Message
  | [] => []
  | message :: more => message.revise revision :: reviseAll revision more
end

theorem reviseAll_eq (revision : Revision) (messages : List Message) :
    reviseAll revision messages = messages.map (revise revision) := by
  induction messages with
  | nil => rfl
  | cons message more ih => rw [reviseAll, ih, List.map_cons]

end Message

namespace Method

def revise (revision : Revision) (method : Method) : Method :=
  { method with
    options := method.options.map (revision methodOptions)
    rest := revision methodDescriptor method.rest }

end Method

namespace Service

def revise (revision : Revision) (service : Service) : Service :=
  { service with
    methods := service.methods.map (·.revise revision)
    options := service.options.map (revision serviceOptions)
    rest := revision serviceDescriptor service.rest }

end Service

namespace File

def revise (revision : Revision) (file : File) : File :=
  { file with
    messages := file.messages.map (·.revise revision)
    enums := file.enums.map (·.revise revision)
    services := file.services.map (·.revise revision)
    extensions := file.extensions.map (·.revise revision)
    options := file.options.map (revision fileOptions)
    rest := revision fileDescriptor file.rest }

end File

namespace Request

def revise (revision : Revision) (request : Request) : Request :=
  { request with
    files := request.files.map (·.revise revision)
    rest := revision generatorRequest request.rest }

end Request

/-- Readable records are put into their normal forms, those at most `top` deep. -/
def Normalizes (revision : Revision) (top : Nat) : Prop :=
  ∀ depth ≤ top, ∀ type records, Intact depth type records →
    revision type records = schema.normal depth type records

def canonical : Revision := schema.normal Wire.Schema.maxDepth

theorem normalizes_canonical : Normalizes canonical Wire.Schema.maxDepth :=
  fun _ hle _ _ h => Wire.Schema.normal_mono regular hle h.readable

-- ---------------------------------------------------------------------------
-- Reading normal forms
-- ---------------------------------------------------------------------------

section

variable {revision : Revision} {top depth limit number : Nat} {type inner : String}
  {records : List Record}

theorem merged?_revision (hrevision : Normalizes revision top) (h : Intact depth type records)
    (hle : depth ≤ limit + 1) (htop : depth ≤ top)
    (hfield : ⟨number, .message inner, .optional⟩ ∈ schema.fieldsOf type) :
    merged? limit number (schema.normal depth type records) =
      (merged? limit number records).map (revision inner) := by
  rw [merged?_normal h hle hfield]
  cases hmerged : merged? limit number records with
  | none => rfl
  | some members =>
    have hmembers := intact_merged h hle hfield hmerged
    exact congrArg some (hrevision (depth - 1) (by omega) inner members hmembers).symm

theorem filter_isOther_revision (hrevision : Normalizes revision top)
    {taken : List (Nat × Wire.Shape)} (hfields : AreFields type taken)
    (h : Intact depth type records) (htop : depth ≤ top) :
    (schema.normal depth type records).filter (isOther type taken) =
      revision type (records.filter (isOther type taken)) := by
  have hnormal := filter_isOther_normal hfields h
  have hothers : Intact depth type (records.filter (isOther type taken)) := by
    constructor
    · rw [Wire.Schema.readable_iff_forall regular]
      intro record hrecord
      have hmem := (List.mem_filter.mp hrecord).1
      exact (Wire.Schema.readable_iff_forall regular).mp h.readable record hmem
    · rw [← hnormal]
      exact h.short.of_length_le (Record.length_encodeAll_le List.filter_sublist)
  rw [hnormal, hrevision depth htop type _ hothers]

theorem others_revision (hrevision : Normalizes revision top)
    {taken : List (Nat × Wire.Shape)} {specs : List Wire.FieldSpec}
    (hlayout : OpenLayout type taken specs) (h : Intact depth type records) (htop : depth ≤ top) :
    others taken (schema.normal depth type records) = revision type (others taken records) := by
  rw [others_eq hlayout.opens, others_eq hlayout.opens,
    filter_isOther_revision hrevision hlayout.areFields h htop]

end

section

variable {revision : Revision} {top depth limit : Nat} {records : List Record}

theorem Field.ofRecords_normal (hrevision : Normalizes revision top)
    (h : Intact depth fieldDescriptor records) (hle : depth ≤ limit + 1)
    (htop : depth ≤ top) :
    ofRecords limit (schema.normal depth fieldDescriptor records) =
      (ofRecords limit records).revise revision := by
  obtain ⟨hname, hextendee, hnumber, hlabel, htype, htypeName, hdefault, hoptions, hindex, hjson,
    htracked⟩ := layouts.field.fields
  have hrest := filter_isOther_revision hrevision layouts.field.areFields h htop
  rw [isOther_eq] at hrest
  simp only [ofRecords, revise, Field.mk.injEq]
  exact ⟨lastText?_normal h hname, lastText?_normal h hextendee, lastNumber?_normal h hnumber,
    lastCode?_normal label_codes h hlabel, lastCode?_normal fieldType_codes h htype,
    lastText?_normal h htypeName, lastText?_normal h hdefault,
    merged?_revision hrevision h hle htop hoptions, lastNumber?_normal h hindex,
    lastText?_normal h hjson, lastFlag?_normal h htracked, hrest⟩

theorem EnumValue.ofRecords_normal (hrevision : Normalizes revision top)
    (h : Intact depth enumValueDescriptor records)
    (hle : depth ≤ limit + 1) (htop : depth ≤ top) :
    ofRecords limit (schema.normal depth enumValueDescriptor records) =
      (ofRecords limit records).revise revision := by
  obtain ⟨hname, hnumber, hoptions⟩ := layouts.enumValue.fields
  simp only [ofRecords, revise, EnumValue.mk.injEq]
  exact ⟨lastText?_normal h hname, lastNumber?_normal h hnumber,
    merged?_revision hrevision h hle htop hoptions,
    others_revision hrevision layouts.enumValue h htop⟩

theorem ReservedRange.ofRecords_normal (hrevision : Normalizes revision top) {type : String}
    (htype : type = reservedRange ∨ type = enumReservedRange) (h : Intact depth type records)
    (htop : depth ≤ top) :
    ofRecords (schema.normal depth type records) = (ofRecords records).revise revision type := by
  obtain ⟨hstart, hstop⟩ := (layout htype).fields
  simp only [ofRecords, revise, ReservedRange.mk.injEq]
  exact ⟨lastNumber?_normal h hstart, lastNumber?_normal h hstop,
    others_revision hrevision (layout htype) h htop⟩

theorem map_children_normal {α : Type} {type inner : String} {number : Nat}
    {ofRecords : List Record → α} {revise : α → α} (h : Intact depth type records)
    (hle : depth ≤ limit + 1)
    (hfield : ⟨number, .message inner, .repeated⟩ ∈ schema.fieldsOf type)
    (hread : ∀ members, Intact (depth - 1) inner members →
      ofRecords (schema.normal (depth - 1) inner members) = revise (ofRecords members)) :
    (children limit number (schema.normal depth type records)).map ofRecords =
      ((children limit number records).map ofRecords).map revise := by
  rw [children_normal h hle hfield, List.map_map, List.map_map]
  exact List.map_congr_left fun members hmembers =>
    hread members (intact_child h hle hfield hmembers)

theorem Enum.ofRecords_normal (hrevision : Normalizes revision top)
    (h : Intact depth enumDescriptor records) (hle : depth ≤ limit + 1)
    (htop : depth ≤ top) :
    ofRecords limit (schema.normal depth enumDescriptor records) =
      (ofRecords limit records).revise revision := by
  obtain ⟨hname, hvalues, hoptions, hreserved⟩ := layouts.enum.fields
  simp only [ofRecords, revise, Enum.mk.injEq]
  refine ⟨lastText?_normal h hname,
    map_children_normal h hle hvalues fun members hmembers => ?_,
    merged?_revision hrevision h hle htop hoptions,
    map_children_normal h hle hreserved fun members hmembers => ?_,
    others_revision hrevision layouts.enum h htop⟩
  · exact EnumValue.ofRecords_normal hrevision hmembers (by omega) (by omega)
  · exact ReservedRange.ofRecords_normal hrevision (.inr rfl) hmembers (by omega)

theorem ExtensionRange.ofRecords_normal (hrevision : Normalizes revision top)
    (h : Intact depth extensionRange records)
    (hle : depth ≤ limit + 1) (htop : depth ≤ top) :
    ofRecords limit (schema.normal depth extensionRange records) =
      (ofRecords limit records).revise revision := by
  obtain ⟨hstart, hstop, hoptions⟩ := layouts.extensionRange.fields
  simp only [ofRecords, revise, ExtensionRange.mk.injEq]
  exact ⟨lastNumber?_normal h hstart, lastNumber?_normal h hstop,
    merged?_revision hrevision h hle htop hoptions,
    others_revision hrevision layouts.extensionRange h htop⟩

theorem Oneof.ofRecords_normal (hrevision : Normalizes revision top)
    (h : Intact depth oneofDescriptor records)
    (hle : depth ≤ limit + 1) (htop : depth ≤ top) :
    ofRecords limit (schema.normal depth oneofDescriptor records) =
      (ofRecords limit records).revise revision := by
  obtain ⟨hname, hoptions⟩ := layouts.oneof.fields
  simp only [ofRecords, revise, Oneof.mk.injEq]
  exact ⟨lastText?_normal h hname, merged?_revision hrevision h hle htop hoptions,
    others_revision hrevision layouts.oneof h htop⟩

theorem Message.ofRecords_normal (hrevision : Normalizes revision top)
    (h : Intact depth messageDescriptor records) (hle : depth ≤ limit)
    (htop : depth ≤ top) :
    ofRecords limit (schema.normal depth messageDescriptor records) =
      (ofRecords limit records).revise revision := by
  induction limit generalizing depth records with
  | zero =>
    simp only [ofRecords, revise, reviseAll, Message.mk.injEq, List.map_nil, Option.map_none,
      true_and]
    exact ⟨lastText?_normal h layouts.messageName.fields,
      others_revision hrevision layouts.messageName h htop⟩
  | succ limit ih =>
    simp only [ofRecords, revise, reviseAll_eq, Message.mk.injEq]
    have hfields : ∀ members, Intact (depth - 1) fieldDescriptor members →
        Field.ofRecords limit (schema.normal (depth - 1) fieldDescriptor members) =
          (Field.ofRecords limit members).revise revision :=
      fun members hmembers => Field.ofRecords_normal hrevision hmembers (by omega) (by omega)
    obtain ⟨hname, hfield, hextension, hnested, henums, hranges, honeofs, hoptions, hreserved⟩ :=
      layouts.message.fields
    refine ⟨lastText?_normal h hname, map_children_normal h hle hfield hfields,
      map_children_normal h hle hextension hfields,
      map_children_normal h hle hnested fun members hmembers => ?_,
      map_children_normal h hle henums fun members hmembers => ?_,
      map_children_normal h hle hranges fun members hmembers => ?_,
      map_children_normal h hle honeofs fun members hmembers => ?_,
      merged?_revision hrevision h hle htop hoptions,
      map_children_normal h hle hreserved fun members hmembers => ?_,
      others_revision hrevision layouts.message h htop⟩
    · exact ih hmembers (by omega) (by omega)
    · exact Enum.ofRecords_normal hrevision hmembers (by omega) (by omega)
    · exact ExtensionRange.ofRecords_normal hrevision hmembers (by omega) (by omega)
    · exact Oneof.ofRecords_normal hrevision hmembers (by omega) (by omega)
    · exact ReservedRange.ofRecords_normal hrevision (.inl rfl) hmembers (by omega)

theorem Method.ofRecords_normal (hrevision : Normalizes revision top)
    (h : Intact depth methodDescriptor records)
    (hle : depth ≤ limit + 1) (htop : depth ≤ top) :
    ofRecords limit (schema.normal depth methodDescriptor records) =
      (ofRecords limit records).revise revision := by
  obtain ⟨hname, hinput, houtput, hoptions⟩ := layouts.method.fields
  simp only [ofRecords, revise, Method.mk.injEq]
  exact ⟨lastText?_normal h hname, lastText?_normal h hinput, lastText?_normal h houtput,
    merged?_revision hrevision h hle htop hoptions, others_revision hrevision layouts.method h htop⟩

theorem Service.ofRecords_normal (hrevision : Normalizes revision top)
    (h : Intact depth serviceDescriptor records)
    (hle : depth ≤ limit + 1) (htop : depth ≤ top) :
    ofRecords limit (schema.normal depth serviceDescriptor records) =
      (ofRecords limit records).revise revision := by
  obtain ⟨hname, hmethods, hoptions⟩ := layouts.service.fields
  simp only [ofRecords, revise, Service.mk.injEq]
  exact ⟨lastText?_normal h hname,
    map_children_normal h hle hmethods fun members hmembers =>
      Method.ofRecords_normal hrevision hmembers (by omega) (by omega),
    merged?_revision hrevision h hle htop hoptions,
    others_revision hrevision layouts.service h htop⟩

theorem File.ofRecords_normal (hrevision : Normalizes revision top)
    (h : Intact depth fileDescriptor records) (hle : depth ≤ limit)
    (htop : depth ≤ top) :
    ofRecords limit (schema.normal depth fileDescriptor records) =
      (ofRecords limit records).revise revision := by
  obtain ⟨hname, hpackage, hdependencies, hpublic, hweak, hmessages, henums, hservices, hextensions,
    hoptions, hdialect, hedition⟩ := layouts.file.fields
  have hrest := filter_isOther_revision hrevision layouts.file.areFields h htop
  rw [isOther_eq] at hrest
  have hless : depth ≤ limit - 1 + 1 := by omega
  simp only [ofRecords, revise, File.mk.injEq]
  refine ⟨lastText?_normal h hname, lastText?_normal h hpackage, allTexts_normal h hdependencies,
    allNumbers_normal h hpublic, allNumbers_normal h hweak,
    map_children_normal h hless hmessages fun members hmembers => ?_,
    map_children_normal h hless henums fun members hmembers => ?_,
    map_children_normal h hless hservices fun members hmembers => ?_,
    map_children_normal h hless hextensions fun members hmembers => ?_,
    merged?_revision hrevision h hless htop hoptions, lastText?_normal h hdialect,
    lastCode?_normal edition_codes h hedition, hrest⟩
  · exact Message.ofRecords_normal hrevision hmembers (by omega) (by omega)
  · exact Enum.ofRecords_normal hrevision hmembers (by omega) (by omega)
  · exact Service.ofRecords_normal hrevision hmembers (by omega) (by omega)
  · exact Field.ofRecords_normal hrevision hmembers (by omega) (by omega)

/-- What is read from the normal form of a request's records is the request in its canonical
form. -/
theorem Request.ofRecords_normal (hrevision : Normalizes revision top)
    (h : Intact depth generatorRequest records) (hle : depth ≤ limit)
    (htop : depth ≤ top) :
    ofRecords limit (schema.normal depth generatorRequest records) =
      (ofRecords limit records).revise revision := by
  have hless : depth ≤ limit - 1 + 1 := by omega
  simp only [ofRecords, revise, Request.mk.injEq]
  obtain ⟨htargets, hparameter, hfiles⟩ := layouts.request.fields
  refine ⟨allTexts_normal h htargets, lastText?_normal h hparameter,
    map_children_normal h hless hfiles fun members hmembers => ?_,
    others_revision hrevision layouts.request h htop⟩
  exact File.ofRecords_normal hrevision hmembers (by omega) (by omega)

end

end SchemaGen.Descriptor
