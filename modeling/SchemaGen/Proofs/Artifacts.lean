import Mathlib.Data.List.Infix
import Mathlib.Data.List.Nodup
import SchemaGen.Proofs.Pipeline

/-!
# The files of a response

Which modules a request gives, in which order and from what. `Request.sources` lists the messages
that modules are made from, by the request alone. A response holds exactly one file for each of them
(`generate_ok`), and a file of the request under whose name another one follows adds nothing
(`generate_congr`).
-/

namespace SchemaGen

open Options (Reader Declaration)
open Fallible

-- ---------------------------------------------------------------------------
-- Sources of modules
-- ---------------------------------------------------------------------------

theorem occursIn_iff {part text : List Char} : occursIn part text = true ↔ part <:+: text := by
  induction text with
  | nil => simp [occursIn]
  | cons c rest ih => simp [occursIn, List.infix_cons_iff, ih]

namespace Descriptor

/-- Modules are made from files that have messages, unless the name speaks of options. -/
def File.IsSource (file : File) : Prop :=
  file.messages ≠ [] ∧ ¬"options".toList <:+: file.nameText.toList

instance (file : File) : Decidable file.IsSource := by
  unfold File.IsSource
  infer_instance

def File.sources (file : File) : List (File × Message) :=
  if file.IsSource then file.messages.map fun message => (file, message) else []

def Request.sources (request : Request) : List (File × Message) :=
  request.requested.flatMap fun name =>
    match latest? request.files name with
    | some file => file.sources
    | none => []

theorem Request.sources_eq (request : Request) :
    request.sources = request.chosen.flatMap File.sources := by
  rw [sources, chosen]
  induction request.requested with
  | nil => rfl
  | cons name more ih =>
    cases h : latest? request.files name with
    | none => simpa [h] using ih
    | some file => simpa [h] using ih

end Descriptor

-- ---------------------------------------------------------------------------
-- Records of messages
-- ---------------------------------------------------------------------------

/-- A record made from a message: it has the message's name and fields, and its file has the name,
the package and the language version of the message's file. -/
structure Describes (reader : Reader) (source : Descriptor.File × Descriptor.Message)
    (record : SchemaFile × SchemaMessage) : Prop where
  fileName : record.1.name = source.1.nameText
  package : record.1.package =
    if source.1.packageText = "" then none else some source.1.packageText
  dialect : record.1.dialect =
    if source.1.dialectText = "" then "proto2" else source.1.dialectText
  name : record.2.name = source.2.nameText
  fields : record.2.fields.map SchemaField.name = source.2.fields.map Descriptor.Field.nameText
  converted : convertMessage reader source.1.packageText (mapEntries source.1) source.2 =
    .ok record.2

theorem convertField_ok {reader : Reader} {entries : List String} {field : Descriptor.Field}
    {record : SchemaField} (h : convertField reader entries field = .ok record) :
    record.name = field.nameText ∧ record.kind = kindOf field ∧
      record.repeated = (field.labelValue == .repeated && !(kindOf field).isEntryOf entries) ∧
      reader.fieldFlags field.options = .ok record.flags := by
  obtain ⟨flags, hflags, h⟩ := bind_eq_ok.mp h
  cases h
  exact ⟨rfl, rfl, rfl, hflags⟩

theorem fields_of_convertMessage {reader : Reader} {package : String} {entries : List String}
    {message : Descriptor.Message} {record : SchemaMessage}
    (h : convertMessage reader package entries message = .ok record) :
    List.Forall₂ (fun field converted => convertField reader entries field = .ok converted)
      message.fields record.fields := by
  obtain ⟨fields, hfields, h⟩ := bind_eq_ok.mp h
  obtain ⟨override, -, h⟩ := bind_eq_ok.mp h
  cases h
  exact mapM_ok.mp hfields

theorem convertMessage_ok {reader : Reader} {package : String} {entries : List String}
    {message : Descriptor.Message} {record : SchemaMessage}
    (h : convertMessage reader package entries message = .ok record) :
    record.name = message.nameText ∧
      record.fields.map SchemaField.name = message.fields.map Descriptor.Field.nameText := by
  have hfields := fields_of_convertMessage h
  obtain ⟨fields, -, h⟩ := bind_eq_ok.mp h
  obtain ⟨override, -, h⟩ := bind_eq_ok.mp h
  cases h
  exact ⟨rfl, map_eq_map_of_forall₂ (hfields.imp fun _ _ hfield => (convertField_ok hfield).1)⟩

theorem convertFile_ok {reader : Reader} {file : Descriptor.File} {record : SchemaFile}
    (h : convertFile reader file = .ok record) :
    record.name = file.nameText ∧ record.messages.length = file.messages.length ∧
      List.Forall₂ (fun message converted => Describes reader (file, message) (record, converted))
        file.messages record.messages := by
  obtain ⟨messages, hm, h⟩ := bind_eq_ok.mp h
  cases h
  have hmessages := mapM_ok.mp hm
  refine ⟨rfl, hmessages.length_eq.symm, hmessages.imp ?_⟩
  intro message converted hc
  obtain ⟨hname, hfields⟩ := convertMessage_ok hc
  exact ⟨rfl, rfl, rfl, hname, hfields, hc⟩

theorem isSkipped_iff {reader : Reader} {file : Descriptor.File} {record : SchemaFile}
    (h : convertFile reader file = .ok record) : record.isSkipped = true ↔ ¬file.IsSource := by
  obtain ⟨hname, hlength, -⟩ := convertFile_ok h
  have hempty : record.messages = [] ↔ file.messages = [] := by
    rw [← List.length_eq_zero_iff, hlength, List.length_eq_zero_iff]
  simp [SchemaFile.isSkipped, SchemaFile.skipMark, Descriptor.File.IsSource, occursIn_iff, hname,
    hempty, imp_iff_not_or]

theorem forall₂_eligible {reader : Reader} {files : List Descriptor.File}
    {records : List SchemaFile}
    (h : List.Forall₂ (fun file record => convertFile reader file = .ok record) files records) :
    List.Forall₂ (Describes reader) (files.flatMap Descriptor.File.sources)
      (SchemaFile.eligible records) := by
  induction h with
  | nil => exact .nil
  | @cons file record files records hc _ ih =>
    have hskip := isSkipped_iff hc
    by_cases hs : file.IsSource
    · have hkeep : record.isSkipped = false := by
        simpa [hs] using hskip
      have hhead : List.Forall₂ (Describes reader) file.sources
          (record.messages.map fun message => (record, message)) := by
        rw [Descriptor.File.sources, if_pos hs, List.forall₂_map_left_iff,
          List.forall₂_map_right_iff]
        exact (convertFile_ok hc).2.2
      simpa [SchemaFile.eligible, hkeep] using List.rel_append hhead ih
    · have hdrop : record.isSkipped = true := hskip.mpr hs
      simpa [SchemaFile.eligible, hdrop, Descriptor.File.sources, hs] using ih

-- ---------------------------------------------------------------------------
-- Files under one name
-- ---------------------------------------------------------------------------

namespace Descriptor

/-- Two lists of files with the same names in the same places, in which each name stands for the
same file. They may differ in all files that come before another one of their name. -/
def SameLatest (files others : List File) : Prop :=
  files.map File.nameText = others.map File.nameText ∧
    ∀ name, latest? files name = latest? others name

theorem mem_values_iff {files : List File} {file : File} :
    file ∈ (Reader.byName files).values ↔ latest? files file.nameText = some file := by
  constructor
  · intro h
    obtain ⟨⟨name, stored⟩, hentry, rfl⟩ := List.mem_map.mp h
    have hfound : latest? files name = some stored := by
      rw [← get?_byName]
      exact OrderedMap.get?_of_mem (OrderedMap.nodup_keys_ofList _) hentry
    rw [nameText_of_latest? hfound, hfound]
  · intro h
    rw [← get?_byName] at h
    obtain ⟨entry, hentry, rfl⟩ := Option.map_eq_some_iff.mp h
    exact List.mem_map_of_mem (List.mem_of_find?_eq_some hentry)

theorem SameLatest.byName_eq {files others : List File} (h : SameLatest files others) :
    Reader.byName files = Reader.byName others := by
  refine OrderedMap.ext_get? ?_ (OrderedMap.nodup_keys_ofList _) ?_
  · have hkeys : ∀ list : List File, (Reader.byName list).keys =
        (list.map File.nameText).foldl OrderedMap.addKey [] := by
      intro list
      rw [Reader.byName, OrderedMap.ofList, OrderedMap.keys_insertAll, List.map_map]
      rfl
    rw [hkeys, hkeys, h.1]
  · intro name
    rw [get?_byName, get?_byName, h.2]

end Descriptor

open Descriptor (latest? SameLatest)

theorem latest?_of_declaration {files : List Descriptor.File} {reader : Reader}
    (h : Reader.ofFiles files = .ok reader) {declaration : Declaration}
    (hd : declaration ∈ reader.declarations) :
    ∃ file, latest? files file.nameText = some file ∧ declaration ∈ Declaration.ofFile file := by
  have hall : reader.declarations = Declaration.ofFiles (Reader.byName files).values := by
    simp only [Reader.ofFiles] at h
    split at h
    · next hnone =>
      cases h
      exact hnone.symm
    · obtain ⟨pool, _, h⟩ := bind_eq_ok.mp h
      obtain ⟨_, _, h⟩ := bind_eq_ok.mp h
      obtain ⟨_, _, h⟩ := bind_eq_ok.mp h
      obtain ⟨_, _, h⟩ := bind_eq_ok.mp h
      cases h
      rfl
  rw [hall, Declaration.ofFiles, List.mem_flatMap] at hd
  obtain ⟨file, hfile, hd⟩ := hd
  exact ⟨file, Descriptor.mem_values_iff.mp hfile, hd⟩

namespace Generation

open Descriptor (Request)

theorem generate_congr {request : Request} {files : List Descriptor.File}
    (h : SameLatest request.files files) (renderer : Option Target) :
    generate { request with files } renderer = generate request renderer := by
  have hrequested : { request with files }.requested = request.requested := by
    simp [Request.requested, h.1]
  have hmissing : { request with files }.missing = request.missing := by
    simp [Request.missing, hrequested, h.byName_eq]
  have hchosen : { request with files }.chosen = request.chosen := by
    simp [Request.chosen, hrequested, funext h.2]
  have hreader : Reader.ofFiles files = Reader.ofFiles request.files := by
    simp [Reader.ofFiles, h.byName_eq]
  have hconverted : { request with files }.converted = request.converted := by
    funext reader
    simp [Request.converted, hmissing, hchosen]
  rw [generate_eq, generate_eq, hconverted, hreader]

theorem respond_eq_ok {request : Request} {renderer : Option Target} {response : Response} :
    respond request renderer = .ok response ↔ ∃ artifacts,
      generate request renderer = .ok artifacts ∧
        response = { features := some Response.optionalFields, files := artifacts } := by
  rw [respond, bind_eq_ok]
  simp [eq_comm]

/-- Every artifact of a request is rendered from the record of one source, in order. -/
theorem generate_ok {request : Request} {artifacts : List Artifact}
    (h : generate request none = .ok artifacts) :
    ∃ target reader records, Target.ofParameter request.parameter = .ok target ∧
      Reader.ofFiles request.files = .ok reader ∧ request.missing = [] ∧
      List.Forall₂ (Describes reader) request.sources records ∧
      artifacts = ModuleText.artifacts target records := by
  rw [generate_eq] at h
  obtain ⟨target, htarget, h⟩ := bind_eq_ok.mp h
  obtain ⟨reader, hreader, h⟩ := bind_eq_ok.mp h
  obtain ⟨schemas, hschemas, h⟩ := bind_eq_ok.mp h
  cases h
  rw [Request.converted] at hschemas
  split at hschemas
  · next hmissing =>
    refine ⟨target, reader, _, htarget, hreader, hmissing, ?_, rfl⟩
    rw [Request.sources_eq]
    exact forall₂_eligible (mapM_ok.mp hschemas)
  · cases hschemas

/-- The files of a response: one for each source of the request, in order, under the message's name
in lower case with the ending of the selected target, with the text of a record of that message. -/
theorem respond_lists_modules {request : Request} {response : Response}
    (h : respond request none = .ok response) :
    ∃ target reader, Target.ofParameter request.parameter = .ok target ∧
      Reader.ofFiles request.files = .ok reader ∧
      (∀ name ∈ request.requested, ∃ file, latest? request.files name = some file) ∧
      List.Forall₂ (fun source artifact =>
          artifact.name = Text.lower source.2.nameText ++ target.fileSuffix ∧
          ∃ record, Describes reader source record ∧
            artifact.content = ModuleText.content target record.1 record.2)
        request.sources response.files ∧
      response.features = some 1 ∧ response.error = none ∧
      (∀ declaration ∈ reader.declarations, ∃ file,
        latest? request.files file.nameText = some file ∧
          declaration ∈ Declaration.ofFile file) ∧
      ∀ files, SameLatest request.files files →
        respond { request with files } none = .ok response := by
  obtain ⟨artifacts, hartifacts, rfl⟩ := respond_eq_ok.mp h
  obtain ⟨target, reader, records, htarget, hreader, hmissing, hrecords, rfl⟩ :=
    generate_ok hartifacts
  refine ⟨target, reader, htarget, hreader, Request.missing_eq_nil.mp hmissing, ?_, rfl, rfl,
    fun declaration hd => latest?_of_declaration hreader hd, ?_⟩
  · rw [ModuleText.artifacts, List.forall₂_map_right_iff]
    refine hrecords.imp ?_
    intro source record hrecord
    refine ⟨?_, record, hrecord, rfl⟩
    rw [ModuleText.artifact, Names.outputFile, hrecord.name]
  · intro files hsame
    rw [respond_eq_ok]
    exact ⟨_, (generate_congr hsame none).trans hartifacts, rfl⟩

/-- A request that names one file twice, of which it holds two versions, and one about options. -/
def twiceNamed : Request where
  targets := ["shop.proto", "user_options.proto", "shop.proto"]
  parameter := some "target=js"
  files := [
    { name := some "shop.proto", messages := [{ name := some "Old" }] },
    { name := some "user_options.proto", messages := [{ name := some "Rule" }] },
    { name := some "shop.proto", package := some "shop",
      messages := [
        { name := some "Order", fields := [{ name := some "id", type := some .string }],
          nested := [{ name := some "Line" }] },
        { name := some "User" }] }]

theorem respond_twiceNamed : ∃ response, respond twiceNamed none = .ok response ∧
    response.files.map Artifact.name = ["order.js", "user.js", "order.js", "user.js"] ∧
    response.features = some 1 := by
  obtain ⟨response, h⟩ : ∃ response, respond twiceNamed none = .ok response :=
    exists_ok (by decide +kernel)
  obtain ⟨target, reader, htarget, _, _, hfiles, hfeatures, _⟩ := respond_lists_modules h
  have htarget' : Target.ofParameter twiceNamed.parameter = .ok .javascript := by decide +kernel
  cases htarget.symm.trans htarget'
  refine ⟨response, h, ?_, hfeatures⟩
  rw [map_eq_map_of_forall₂ (hfiles.imp fun _ _ hfile => hfile.1)]
  decide +kernel

-- ---------------------------------------------------------------------------
-- Clashes of names
-- ---------------------------------------------------------------------------

/-- Files of a response clash exactly when two of their messages have one name in lower case,
whatever their packages and files. -/
theorem nodup_names_iff {request : Request} {response : Response}
    (h : respond request none = .ok response) :
    (response.files.map Artifact.name).Nodup ↔
      (request.sources.map fun source => Text.lower source.2.nameText).Nodup := by
  obtain ⟨artifacts, hartifacts, rfl⟩ := respond_eq_ok.mp h
  obtain ⟨target, reader, records, _, _, _, hrecords, rfl⟩ := generate_ok hartifacts
  have hnames : (ModuleText.artifacts target records).map Artifact.name =
      (request.sources.map fun source => Text.lower source.2.nameText).map
        (· ++ target.fileSuffix) := by
    rw [ModuleText.artifacts, List.map_map, List.map_map]
    refine map_eq_map_of_forall₂ (hrecords.imp ?_)
    intro source record hrecord
    simp [ModuleText.artifact, Names.outputFile, hrecord.name]
  have hinjective : Function.Injective (· ++ target.fileSuffix) := by
    intro first second he
    simpa using he
  show ((ModuleText.artifacts target records).map Artifact.name).Nodup ↔ _
  rw [hnames, List.nodup_map_iff hinjective]

def nearNames : Request where
  targets := ["b.proto", "a.proto"]
  files := [
    { name := some "a.proto", package := some "shop", messages := [{ name := some "User" }] },
    { name := some "b.proto", package := some "shop",
      messages := [{ name := some "USERS" }, { name := some "Order" }] }]

theorem nodup_names_nearNames : ∃ response, respond nearNames none = .ok response ∧
    (response.files.map Artifact.name).Nodup := by
  obtain ⟨response, h⟩ : ∃ response, respond nearNames none = .ok response :=
    exists_ok (by decide +kernel)
  refine ⟨response, h, ?_⟩
  rw [nodup_names_iff h]
  decide +kernel

def sharedName : Request where
  targets := ["a.proto", "b.proto"]
  files := [
    { name := some "a.proto", package := some "a", messages := [{ name := some "User" }] },
    { name := some "b.proto", package := some "b", messages := [{ name := some "User" }] }]

/-- Distinct full names in files that are each requested once do not keep the files of a response
apart. -/
theorem sharedName_clashes : sharedName.targets.Nodup ∧
    (sharedName.sources.map fun source =>
      joinNames [source.1.packageText, source.2.nameText]).Nodup ∧
    (respond sharedName none).toOption.map (·.files.map Artifact.name) =
      some ["user.ts", "user.ts"] := by
  decide +kernel

end Generation

end SchemaGen
