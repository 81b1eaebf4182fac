import SchemaGen.Proofs.Artifacts
import SchemaGen.Proofs.Options.Needed

/-!
# What does not show in the modules

Modules show little of the descriptors that they are made from. Of a requested file that the option
declarations do not need, they show its package and language version, the names and options of its
messages, some parts of the fields and the names of the map entries (`File.Matches`). Other files
that are not needed do not show at all (`respond_eq_of_resembles`).
-/

namespace SchemaGen

open Options (Reader Needed neededFiles)
open Fallible

-- ---------------------------------------------------------------------------
-- Descriptors that look alike
-- ---------------------------------------------------------------------------

namespace Descriptor

def writtenRecords? (type : String) (records : List Wire.Record) : Option (List Wire.Record) :=
  if isWritable type records then
    some (Standard.schema.normal Wire.Schema.maxDepth type records)
  else none

/-- Options as they are written out. That there are none differs from that they cannot be. -/
def Options.written (type : String) (options : Options) : Option (Option (List Wire.Record)) :=
  options.map (writtenRecords? type)

/-- Fields that may differ in their numbers and in all that no module shows. -/
structure Field.Matches (field other : Field) : Prop where
  name : field.nameText = other.nameText
  label : field.labelValue = other.labelValue
  type : field.typeValue = other.typeValue
  typeName : field.typeNameText = other.typeNameText
  options : field.options.written Standard.fieldOptions =
    other.options.written Standard.fieldOptions

structure Message.Matches (message other : Message) : Prop where
  name : message.nameText = other.nameText
  options : message.options.written Standard.messageOptions =
    other.options.written Standard.messageOptions
  fields : List.Forall₂ Field.Matches message.fields other.fields

/-- Files with matching messages and the same names of map entries, whatever else they declare and
import. -/
structure File.Matches (file other : File) : Prop where
  package : file.packageText = other.packageText
  dialect : file.dialectText = other.dialectText
  messages : List.Forall₂ Message.Matches file.messages other.messages
  entries : ∀ name, name ∈ mapEntries file ↔ name ∈ mapEntries other

theorem Field.Matches.refl (field : Field) : field.Matches field := ⟨rfl, rfl, rfl, rfl, rfl⟩

theorem Message.Matches.refl (message : Message) : message.Matches message :=
  ⟨rfl, rfl, List.forall₂_same.mpr fun field _ => .refl field⟩

theorem File.Matches.refl (file : File) : file.Matches file :=
  ⟨rfl, rfl, List.forall₂_same.mpr fun message _ => .refl message, fun _ => Iff.rfl⟩

end Descriptor

namespace Options.Reader

variable (reader : Reader)

/-- Of options only their written form is read. -/
theorem reread_eq_elim (type : String) (records : List Wire.Record) :
    reader.reread type records =
      (Descriptor.writtenRecords? type records).elim (.error .incomplete) fun written =>
        if reader.schema.readable Wire.Schema.maxDepth type written then
          .ok (reader.schema.elements type written)
        else .error .undecodableOptions := by
  rw [reread, Descriptor.writtenRecords?, Descriptor.isWritable]
  split
  · rfl
  · rfl

theorem reread_congr {type : String} {records others : List Wire.Record}
    (h : Descriptor.Options.written type (some records) =
      Descriptor.Options.written type (some others)) :
    reader.reread type records = reader.reread type others := by
  have hwritten : Descriptor.writtenRecords? type records =
    Descriptor.writtenRecords? type others := Option.some.inj h
  rw [reread_eq_elim, reread_eq_elim, hwritten]

theorem fieldFlags_congr {options others : Descriptor.Options}
    (h : options.written Descriptor.Standard.fieldOptions =
      others.written Descriptor.Standard.fieldOptions) :
    reader.fieldFlags options = reader.fieldFlags others := by
  cases options with
  | none =>
    cases others with
    | none => rfl
    | some records => cases h
  | some records =>
    cases others with
    | none => cases h
    | some others =>
      simp only [fieldFlags]
      cases reader.flags with
      | nil => rfl
      | cons flag more => simp only [reader.reread_congr h]

theorem collection?_congr {options others : Descriptor.Options}
    (h : options.written Descriptor.Standard.messageOptions =
      others.written Descriptor.Standard.messageOptions) :
    reader.collection? options = reader.collection? others := by
  cases options with
  | none =>
    cases others with
    | none => rfl
    | some records => cases h
  | some records =>
    cases others with
    | none => cases h
    | some others =>
      simp only [collection?]
      cases reader.collections with
      | nil => rfl
      | cons extension more => simp only [reader.reread_congr h]

end Options.Reader

-- ---------------------------------------------------------------------------
-- Conversion but for the numbers of fields
-- ---------------------------------------------------------------------------

def SchemaField.unnumbered (field : SchemaField) : SchemaField := { field with number := 0 }

def SchemaMessage.unnumbered (message : SchemaMessage) : SchemaMessage :=
  { message with fields := message.fields.map SchemaField.unnumbered }

def SchemaFile.unnumbered (file : SchemaFile) : SchemaFile :=
  { file with messages := file.messages.map SchemaMessage.unnumbered }

theorem kindOf_congr {field other : Descriptor.Field} (h : field.Matches other) :
    kindOf field = kindOf other := by
  rw [kindOf, kindOf, h.type, h.typeName]

theorem isEntryOf_congr {entries others : List String} (h : ∀ name, name ∈ entries ↔ name ∈ others)
    (kind : FieldKind) : kind.isEntryOf entries = kind.isEntryOf others := by
  cases kind with
  | message typeName =>
    rw [FieldKind.isEntryOf, FieldKind.isEntryOf, Bool.eq_iff_iff]
    simpa using h typeName
  | scalar code => rfl
  | enum typeName => rfl

variable (reader : Reader)

theorem convertField_congr {entries others : List String}
    (hentries : ∀ name, name ∈ entries ↔ name ∈ others) {field other : Descriptor.Field}
    (h : field.Matches other) :
    (convertField reader entries field).map SchemaField.unnumbered =
      (convertField reader others other).map SchemaField.unnumbered := by
  rw [convertField, convertField, reader.fieldFlags_congr h.options]
  cases reader.fieldFlags other.options with
  | error failure => rfl
  | ok flags =>
    refine congrArg Except.ok ?_
    simp only [SchemaField.unnumbered, kindOf_congr h, h.name, h.label, isEntryOf_congr hentries]

theorem convertMessage_congr {entries others : List String}
    (hentries : ∀ name, name ∈ entries ↔ name ∈ others) (package : String)
    {message other : Descriptor.Message} (h : message.Matches other) :
    (convertMessage reader package entries message).map SchemaMessage.unnumbered =
      (convertMessage reader package others other).map SchemaMessage.unnumbered := by
  have hfields := mapM_map_congr (h.fields.imp fun _ _ hfield =>
    convertField_congr reader hentries hfield)
  simp only [convertMessage, reader.collection?_congr h.options, h.name, map_bind]
  refine bind_congr_key hfields fun fields results hsame => ?_
  cases reader.collection? other.options with
  | error failure => rfl
  | ok override => simp [Except.map, SchemaMessage.unnumbered, hsame]

theorem convertFile_congr {file other : Descriptor.File} (hname : file.nameText = other.nameText)
    (h : file.Matches other) :
    (convertFile reader file).map SchemaFile.unnumbered =
      (convertFile reader other).map SchemaFile.unnumbered := by
  have hmessages := mapM_map_congr (h.messages.imp fun _ _ hmessage =>
    convertMessage_congr reader h.entries other.packageText hmessage)
  simp only [convertFile, hname, h.package, h.dialect, map_bind]
  refine bind_congr_key hmessages fun messages results hsame => ?_
  simp [Except.map, SchemaFile.unnumbered, hsame]

-- ---------------------------------------------------------------------------
-- Rendering without the numbers of fields
-- ---------------------------------------------------------------------------

namespace ModuleText

theorem fieldLines_unnumbered (fields : List SchemaField) :
    fieldLines (fields.map SchemaField.unnumbered) = fieldLines fields := by
  induction fields with
  | nil => rfl
  | cons next more ih =>
    cases more with
    | nil => rfl
    | cons second rest => exact congrArg (("  " ++ field next ++ ",") :: ·) ih

theorem artifact_unnumbered (target : Target) (file : SchemaFile) (message : SchemaMessage) :
    artifact target file.unnumbered message.unnumbered = artifact target file message := by
  have hlines : lines target file.unnumbered message.unnumbered = lines target file message := by
    simp only [lines, schemaLines, SchemaMessage.unnumbered, fieldLines_unnumbered]
    rfl
  rw [artifact, content, hlines]
  rfl

theorem artifacts_eligible_unnumbered (target : Target) (files : List SchemaFile) :
    artifacts target (SchemaFile.eligible (files.map SchemaFile.unnumbered)) =
      artifacts target (SchemaFile.eligible files) := by
  have hskipped : ∀ file : SchemaFile, file.unnumbered.isSkipped = file.isSkipped := by
    intro file
    simp [SchemaFile.isSkipped, SchemaFile.unnumbered]
  induction files with
  | nil => rfl
  | cons file more ih =>
    simp only [artifacts, SchemaFile.eligible] at ih ⊢
    rw [List.map_cons, List.filter_cons, List.filter_cons, hskipped]
    split
    · rw [List.flatMap_cons, List.flatMap_cons, List.map_append, List.map_append, ih]
      congr 1
      simp only [SchemaFile.unnumbered, List.map_map, Function.comp_def]
      exact List.map_congr_left fun message _ => artifact_unnumbered target file message
    · exact ih

end ModuleText

-- ---------------------------------------------------------------------------
-- Requests that look alike
-- ---------------------------------------------------------------------------

namespace Descriptor.Request

/-- Requests for the same files that need the same files for their options. A requested file that is
not needed is missing from both, or matches in the two. All other files may differ. -/
structure Resembles (first second : Request) : Prop where
  parameter : first.parameter.getD "" = second.parameter.getD ""
  targets : first.targets = second.targets
  named : first.targets ≠ []
  firstDistinct : Distinct first.files
  secondDistinct : Distinct second.files
  needed : neededFiles first.files = neededFiles second.files
  requested : ∀ name ∈ first.targets, ¬Needed first.files name →
    (latest? first.files name = none ∧ latest? second.files name = none) ∨
      ∃ file other, latest? first.files name = some file ∧
        latest? second.files name = some other ∧ file.Matches other

namespace Resembles

variable {first second : Request} (h : first.Resembles second)
include h

theorem requested_eq : second.requested = first.requested := by
  rw [requested_of_named h.named, requested_of_named (h.targets ▸ h.named), h.targets]

theorem latest?_cases {name : String} (hname : name ∈ first.requested) :
    (latest? first.files name = none ∧ latest? second.files name = none) ∨
      ∃ file other, latest? first.files name = some file ∧
        latest? second.files name = some other ∧ file.Matches other := by
  by_cases hneeded : Needed first.files name
  · have hsame := Options.latest?_eq_of_needed h.firstDistinct h.secondDistinct h.needed hneeded
    cases hfile : latest? first.files name with
    | none => exact .inl ⟨rfl, hsame.symm.trans hfile⟩
    | some file => exact .inr ⟨file, file, rfl, hsame.symm.trans hfile, .refl file⟩
  · rw [requested_of_named h.named] at hname
    exact h.requested name hname hneeded

theorem missing_eq : second.missing = first.missing := by
  have hcontains : ∀ name ∈ first.requested,
      (Reader.byName second.files).contains name = (Reader.byName first.files).contains name := by
    intro name hname
    rw [OrderedMap.contains, OrderedMap.contains, get?_byName, get?_byName]
    obtain ⟨hfirst, hsecond⟩ | ⟨file, other, hfirst, hsecond, -⟩ := h.latest?_cases hname
    · rw [hfirst, hsecond]
    · rw [hfirst, hsecond]
      rfl
  simp only [missing, h.requested_eq]
  rw [List.filter_congr fun name hname => congrArg (!·) (hcontains name hname)]

theorem forall₂_chosen :
    List.Forall₂ (fun file other => file.nameText = other.nameText ∧ file.Matches other)
      first.chosen second.chosen := by
  have hnames : ∀ names : List String, names ⊆ first.requested →
      List.Forall₂ (fun file other => file.nameText = other.nameText ∧ file.Matches other)
        (names.filterMap (latest? first.files)) (names.filterMap (latest? second.files)) := by
    intro names
    induction names with
    | nil => exact fun _ => .nil
    | cons name more ih =>
      intro hsubset
      obtain ⟨hname, hmore⟩ := List.cons_subset.mp hsubset
      obtain ⟨hfirst, hsecond⟩ | ⟨file, other, hfirst, hsecond, hmatches⟩ := h.latest?_cases hname
      · rw [List.filterMap_cons_none hfirst, List.filterMap_cons_none hsecond]
        exact ih hmore
      · rw [List.filterMap_cons_some hfirst, List.filterMap_cons_some hsecond]
        have hsame := (nameText_of_latest? hfirst).trans (nameText_of_latest? hsecond).symm
        exact .cons ⟨hsame, hmatches⟩ (ih hmore)
  rw [chosen, chosen, h.requested_eq]
  exact hnames first.requested (List.Subset.refl _)

theorem converted_congr (reader : Reader) :
    (first.converted reader).map (List.map SchemaFile.unnumbered) =
      (second.converted reader).map (List.map SchemaFile.unnumbered) := by
  rw [converted, converted, h.missing_eq]
  cases first.missing with
  | nil =>
    exact mapM_map_congr (h.forall₂_chosen.imp fun _ _ hfile =>
      convertFile_congr reader hfile.1 hfile.2)
  | cons name more => rfl

end Resembles

end Descriptor.Request

namespace Generation

open Descriptor (Request)

theorem generate_eq_of_resembles {first second : Request} (h : first.Resembles second)
    (renderer : Option Target) : generate first renderer = generate second renderer := by
  have htarget : Target.ofParameter first.parameter = Target.ofParameter second.parameter := by
    rw [Target.ofParameter, h.parameter, Target.ofParameter]
  have hreader : Reader.ofFiles first.files = Reader.ofFiles second.files :=
    Reader.ofFiles_congr h.firstDistinct h.secondDistinct h.needed
  rw [generate_eq, generate_eq, htarget, hreader]
  refine bind_congr_ok fun target _ => bind_congr_ok fun reader _ => ?_
  refine bind_congr_key (h.converted_congr reader) fun schemas others hsame => ?_
  rw [← ModuleText.artifacts_eligible_unnumbered, hsame, ModuleText.artifacts_eligible_unnumbered]

/-- Requests that look alike are answered alike, with the same files or with the same failure. -/
theorem respond_eq_of_resembles {first second : Request} (h : first.Resembles second)
    (renderer : Option Target) : respond first renderer = respond second renderer := by
  rw [respond, respond, generate_eq_of_resembles h]

def optionMessages : Descriptor.File where
  name := some "google/protobuf/descriptor.proto"
  package := some "google.protobuf"
  messages := [
    { name := some "FieldOptions", ranges := [{ start := some 1000, stop := some 2000 }] },
    { name := some "MessageOptions" }]

def ruleFile : Descriptor.File where
  name := some "rules.proto"
  dependencies := ["google/protobuf/descriptor.proto"]
  extensions := [
    { name := some "mongoose_unique", extendee := some ".google.protobuf.FieldOptions",
      number := some 1000, type := some .bool }]

def plainUser : Descriptor.File where
  name := some "user.proto"
  package := some "shop"
  dependencies := ["rules.proto"]
  messages := [
    { name := some "User",
      fields := [
        { name := some "email", number := some 1, type := some .string,
          options := some [.varint 1000 1] },
        { name := some "tags", number := some 2, label := some .repeated,
          type := some .message, typeName := some ".shop.User.TagsEntry" }],
      nested := [{ name := some "TagsEntry", options := some [.varint 7 1] }] }]

/-- The same message with other numbers, an enum and a further message inside it, beside an
extension and imports that cannot be found. -/
def crowdedUser : Descriptor.File where
  name := some "user.proto"
  package := some "shop"
  dependencies := ["broken.proto", "lost.proto"]
  messages := [
    { name := some "User",
      fields := [
        { name := some "email", number := some 7, type := some .string,
          options := some [.varint 1000 1] },
        { name := some "tags", number := some 7, label := some .repeated,
          type := some .message, typeName := some ".shop.User.TagsEntry" }],
      nested := [
        { name := some "Extra", nested := [{ name := some "Inner" }] },
        { name := some "TagsEntry", options := some [.varint 7 1] }],
      enums := [{ name := some "Level" }] }]
  extensions := [{ name := some "note", extendee := some ".shop.User" }]

theorem plainUser_matches : plainUser.Matches crowdedUser := by
  have hplain : mapEntries plainUser = ["shop.User.TagsEntry"] := by decide +kernel
  have hcrowded : mapEntries crowdedUser = ["shop.User.TagsEntry"] := by decide +kernel
  refine ⟨rfl, rfl, .cons ⟨rfl, rfl, ?_⟩ .nil, fun name => by rw [hplain, hcrowded]⟩
  exact .cons ⟨rfl, rfl, rfl, rfl, rfl⟩ (.cons ⟨rfl, rfl, rfl, rfl, rfl⟩ .nil)

def plainShop : Request where
  targets := ["user.proto"]
  files := [optionMessages, ruleFile, plainUser]

def crowdedShop : Request where
  targets := ["user.proto"]
  parameter := some ""
  files := [
    optionMessages,
    { name := some "broken.proto", dependencies := ["broken.proto"], dialect := some "proto9" },
    crowdedUser, ruleFile]

theorem plainShop_resembles : plainShop.Resembles crowdedShop := by
  have hplain : neededFiles plainShop.files = [optionMessages, ruleFile] := by
    rw [neededFiles, plainShop, List.filter_cons_of_pos (by decide +kernel),
      List.filter_cons_of_pos (by decide +kernel), List.filter_cons_of_neg (by decide +kernel),
      List.filter_nil]
  have hcrowded : neededFiles crowdedShop.files = [optionMessages, ruleFile] := by
    rw [neededFiles, crowdedShop, List.filter_cons_of_pos (by decide +kernel),
      List.filter_cons_of_neg (by decide +kernel), List.filter_cons_of_neg (by decide +kernel),
      List.filter_cons_of_pos (by decide +kernel), List.filter_nil]
  have hplainDistinct : Descriptor.Distinct plainShop.files := by decide
  have hcrowdedDistinct : Descriptor.Distinct crowdedShop.files := by decide
  refine ⟨rfl, rfl, by simp [plainShop], hplainDistinct, hcrowdedDistinct,
    hplain.trans hcrowded.symm, ?_⟩
  intro name hname _
  rw [plainShop, List.mem_singleton] at hname
  subst hname
  refine .inr ⟨plainUser, crowdedUser, ?_, ?_, plainUser_matches⟩
  · exact hplainDistinct.latest?_eq_some_iff.mpr ⟨by simp [plainShop], rfl⟩
  · exact hcrowdedDistinct.latest?_eq_some_iff.mpr ⟨by simp [crowdedShop], rfl⟩

theorem respond_crowdedShop :
    plainShop.Resembles crowdedShop ∧ respond plainShop none = respond crowdedShop none ∧
      (respond crowdedShop none).toOption.map (·.files.map Artifact.name) = some ["user.ts"] := by
  refine ⟨plainShop_resembles, respond_eq_of_resembles plainShop_resembles none, ?_⟩
  decide +kernel

end Generation

end SchemaGen
