import SchemaGen.Proofs.Descriptor.Faithful
import SchemaGen.Proofs.Options.LoadOrder
import SchemaGen.Proofs.Pipeline

/-!
# Generating from rewritten options

Options are read where a file is loaded and where fields and messages are converted. Neither tells
options from options that a faithful revision has rewritten, so what is generated does not change
(`generate_revise`).
-/

namespace SchemaGen

open Descriptor (File Revision Faithful)

namespace OrderedMap

variable {α β : Type}

def mapValues (change : α → β) (map : OrderedMap α) : OrderedMap β :=
  ⟨map.entries.map fun entry => (entry.1, change entry.2)⟩

@[simp] theorem get?_mapValues (change : α → β) (map : OrderedMap α) (key : String) :
    (map.mapValues change).get? key = (map.get? key).map change := by
  simp [get?, mapValues, List.find?_map, Function.comp_def]

theorem mapValues_insert (change : α → β) (map : OrderedMap α) (key : String) (value : α) :
    (map.insert key value).mapValues change = (map.mapValues change).insert key (change value) := by
  obtain ⟨entries⟩ := map
  simp only [insert, mapValues, mk.injEq]
  induction entries with
  | nil => rfl
  | cons entry rest ih =>
    rw [insertEntry, List.map_cons, insertEntry]
    split
    · rfl
    · rw [List.map_cons, ih]

theorem mapValues_ofList (change : α → β) (pairs : List (String × α)) :
    (ofList pairs).mapValues change = ofList (pairs.map fun pair => (pair.1, change pair.2)) := by
  have hall : ∀ map : OrderedMap α, (map.insertAll pairs).mapValues change =
      (map.mapValues change).insertAll (pairs.map fun pair => (pair.1, change pair.2)) := by
    induction pairs with
    | nil => exact fun map => rfl
    | cons pair more ih =>
      intro map
      rw [insertAll, List.foldl_cons, ← insertAll, ih, mapValues_insert]
      rfl
  exact hall empty

end OrderedMap

variable {revision : Revision}

-- ---------------------------------------------------------------------------
-- Loading
-- ---------------------------------------------------------------------------

namespace Options

@[simp] theorem Declaration.ofFile_revise (revision : Revision) (file : File) :
    ofFile (file.revise revision) = ofFile file := by
  rw [ofFile, Descriptor.File.scopedExtensions_revise, List.filterMap_map]
  rfl

theorem Reader.byName_revise (revision : Revision) (files : List File) :
    byName (files.map (·.revise revision)) = (byName files).mapValues (·.revise revision) := by
  rw [byName, byName, OrderedMap.mapValues_ofList, List.map_map, List.map_map]
  rfl

namespace Closure

theorem addFile_revise (h : Faithful revision) {file : File}
    (hcomplete : Descriptor.isWritable Descriptor.Standard.fileDescriptor
        (file.revise revision).toRecords =
      Descriptor.isWritable Descriptor.Standard.fileDescriptor file.toRecords)
    (closure : Closure) (name : String) :
    closure.addFile name (file.revise revision) = closure.addFile name file := by
  simp only [Descriptor.isWritable] at hcomplete
  rw [addFile, hcomplete, Descriptor.Pool.add_revise h, addFile]

theorem visit_revise {files : OrderedMap File}
    (hadd : ∀ name file, files.get? name = some file → ∀ closure : Closure,
      closure.addFile name (file.revise revision) = closure.addFile name file)
    (depth : Nat) (name : String) (closure : Closure) :
    visit (files.mapValues (·.revise revision)) depth name closure =
      visit files depth name closure := by
  induction depth generalizing name closure with
  | zero => rfl
  | succ depth ih =>
    rw [visit, visit, OrderedMap.get?_mapValues]
    cases hfile : files.get? name with
    | none => rfl
    | some file =>
      have hstep : (fun state dependency =>
            visit (files.mapValues (·.revise revision)) depth dependency state) =
          fun state dependency => visit files depth dependency state := by
        funext state dependency
        exact ih dependency state
      simp only [Option.map_some, hstep, hadd name file hfile]
      rfl

theorem load_revise {files : OrderedMap File}
    (hadd : ∀ name file, files.get? name = some file → ∀ closure : Closure,
      closure.addFile name (file.revise revision) = closure.addFile name file)
    (names : List String) :
    load (files.mapValues (·.revise revision)) names = load files names := by
  have hlength : (files.mapValues (·.revise revision)).entries.length = files.entries.length :=
    List.length_map _
  simp only [load, hlength, visit_revise hadd]

end Closure

namespace Reader

theorem ofFiles_revise (h : Faithful revision) {files : List File}
    (hcomplete : ∀ file ∈ files, Descriptor.isWritable Descriptor.Standard.fileDescriptor
        (file.revise revision).toRecords =
      Descriptor.isWritable Descriptor.Standard.fileDescriptor file.toRecords) :
    ofFiles (files.map (·.revise revision)) = ofFiles files := by
  have hadd : ∀ name file, (byName files).get? name = some file → ∀ closure : Closure,
      closure.addFile name (file.revise revision) = closure.addFile name file := by
    intro name file hfile closure
    rw [Descriptor.get?_byName] at hfile
    have hmem : file ∈ files := List.mem_reverse.mp (List.mem_of_find?_eq_some hfile)
    exact Closure.addFile_revise h (hcomplete file hmem) closure name
  have hdeclarations : Declaration.ofFiles ((byName files).mapValues (·.revise revision)).values =
      Declaration.ofFiles (byName files).values := by
    simp [Declaration.ofFiles, OrderedMap.values, OrderedMap.mapValues, List.flatMap_map]
  simp only [ofFiles, byName_revise, hdeclarations, Closure.load_revise hadd]

theorem reread_revise (h : Faithful revision) (reader : Reader) (type : String)
    (options : List Wire.Record) :
    reader.reread type (revision type options) = reader.reread type options := by
  rw [reread, h.complete, h.normal, reread]

theorem fieldFlags_revise (h : Faithful revision) (reader : Reader) (options : Descriptor.Options) :
    reader.fieldFlags (options.map (revision Descriptor.Standard.fieldOptions)) =
      reader.fieldFlags options := by
  cases options with
  | none => rfl
  | some records =>
    simp only [Option.map_some, fieldFlags]
    cases reader.flags with
    | nil => rfl
    | cons flag more => simp only [reread_revise h]

theorem collection?_revise (h : Faithful revision) (reader : Reader)
    (options : Descriptor.Options) :
    reader.collection? (options.map (revision Descriptor.Standard.messageOptions)) =
      reader.collection? options := by
  cases options with
  | none => rfl
  | some records =>
    simp only [Option.map_some, collection?]
    cases reader.collections with
    | nil => rfl
    | cons extension more => simp only [reread_revise h]

end Reader

end Options

-- ---------------------------------------------------------------------------
-- Converting
-- ---------------------------------------------------------------------------

section

open Options (Reader)

variable (h : Faithful revision) (reader : Reader)
include h

theorem mapEntries_revise (file : File) : mapEntries (file.revise revision) = mapEntries file := by
  have hentry : ∀ located : Descriptor.Located,
      (located.revise revision).message.isMapEntry = located.message.isMapEntry :=
    fun located => Descriptor.Message.isMapEntry_revise located.message h
  simp only [mapEntries, Descriptor.File.innerMessages_revise, List.filter_map, List.map_map,
    Function.comp_def, Descriptor.Located.path_revise, hentry]
  rfl

theorem convertField_revise (entries : List String) (field : Descriptor.Field) :
    convertField reader entries (field.revise revision) = convertField reader entries field := by
  rw [convertField, Descriptor.Field.options_revise, Reader.fieldFlags_revise h]
  rfl

theorem convertMessage_revise (package : String) (entries : List String)
    (message : Descriptor.Message) :
    convertMessage reader package entries (message.revise revision) =
      convertMessage reader package entries message := by
  have hfields : (message.fields.map (·.revise revision)).mapM (convertField reader entries) =
      message.fields.mapM (convertField reader entries) := by
    rw [List.mapM_map]
    simp only [Function.comp_def, convertField_revise h]
  rw [convertMessage, Descriptor.Message.fields_revise, hfields, Descriptor.Message.options_revise,
    Reader.collection?_revise h, Descriptor.Message.nameText_revise, convertMessage]

theorem convertFile_revise (file : File) :
    convertFile reader (file.revise revision) = convertFile reader file := by
  have hmessages : ∀ entries,
      (file.messages.map (·.revise revision)).mapM
          (convertMessage reader file.packageText entries) =
        file.messages.mapM (convertMessage reader file.packageText entries) := by
    intro entries
    rw [List.mapM_map]
    simp only [Function.comp_def, convertMessage_revise h]
  rw [convertFile, mapEntries_revise h, convertFile]
  exact congrArg (· >>= _) (hmessages (mapEntries file))

end

-- ---------------------------------------------------------------------------
-- Requests
-- ---------------------------------------------------------------------------

namespace Descriptor

theorem latest?_revise (revision : Revision) (files : List File) (name : String) :
    latest? (files.map (·.revise revision)) name =
      (latest? files name).map (·.revise revision) := by
  rw [latest?, ← List.map_reverse, List.find?_map]
  rfl

namespace Request

variable {request other : Request}

theorem requested_revise (htargets : other.targets = request.targets)
    (hfiles : other.files = request.files.map (·.revise revision)) :
    other.requested = request.requested := by
  rw [requested, requested, htargets, hfiles, List.map_map]
  rfl

theorem missing_revise (htargets : other.targets = request.targets)
    (hfiles : other.files = request.files.map (·.revise revision)) :
    other.missing = request.missing := by
  simp only [missing, requested_revise htargets hfiles, hfiles, Options.Reader.byName_revise,
    OrderedMap.contains, OrderedMap.get?_mapValues, Option.isSome_map]

theorem converted_revise (h : Faithful revision) (htargets : other.targets = request.targets)
    (hfiles : other.files = request.files.map (·.revise revision)) (reader : Options.Reader) :
    other.converted reader = request.converted reader := by
  have hchosen : other.chosen = request.chosen.map (·.revise revision) := by
    rw [chosen, chosen, requested_revise htargets hfiles, hfiles, List.map_filterMap]
    simp only [latest?_revise]
  have hmapM : other.chosen.mapM (convertFile reader) =
      request.chosen.mapM (convertFile reader) := by
    rw [hchosen, List.mapM_map]
    simp only [Function.comp_def, convertFile_revise h]
  rw [converted, missing_revise htargets hfiles, hmapM, converted]

end Request

end Descriptor

namespace Generation

open Descriptor (Request)

/-- Rewriting the options of a request's files faithfully does not change what is generated. -/
theorem generate_revise (h : Faithful revision) {request other : Request}
    (htargets : other.targets = request.targets) (hparameter : other.parameter = request.parameter)
    (hfiles : other.files = request.files.map (·.revise revision))
    (hcomplete : ∀ file ∈ request.files,
      Descriptor.isWritable Descriptor.Standard.fileDescriptor (file.revise revision).toRecords =
        Descriptor.isWritable Descriptor.Standard.fileDescriptor file.toRecords)
    (renderer : Option Target) : generate other renderer = generate request renderer := by
  rw [generate_eq, generate_eq, hparameter, hfiles, Options.Reader.ofFiles_revise h hcomplete]
  simp only [Request.converted_revise h htargets hfiles]

end Generation

end SchemaGen
