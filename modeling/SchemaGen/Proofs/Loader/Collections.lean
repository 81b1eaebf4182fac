import SchemaGen.Proofs.Loader.Retry
import SchemaGen.Proofs.Options.Values

/-!
# Collections of loaded messages

A loaded message is stored in the collection that its options name. Of several options for this the
first declared one that is there counts, even where its text is empty, and then the collection is
made from the name of the message. So every collection has a name, whatever became of the request
between the loads.
-/

namespace SchemaGen

open Options (Reader collectionOptions namedCollection HoldsTexts)
open Descriptor (File Message Request latest?)
open Fallible

-- ---------------------------------------------------------------------------
-- The collection of a record
-- ---------------------------------------------------------------------------

/-- The collection of a message: the text that its options name or, if that is empty or there is
none, the name of the message in lower case and in the plural. -/
def collectionOf (files : List File) (message : Message) : String :=
  let text := (namedCollection files (message.options.getD [])).getD ""
  if text = "" then Text.lower message.nameText ++ "s" else text

theorem Names.collection_eq (message : String) (override : Option String) :
    Names.collection message override =
      if override.getD "" = "" then Text.lower message ++ "s" else override.getD "" := by
  cases override with
  | none => rfl
  | some name => rfl

theorem Names.collection_ne_empty (message : String) (override : Option String) :
    Names.collection message override ≠ "" := by
  rw [Names.collection_eq]
  split
  · simp [String.append_eq_empty_iff]
  · assumption

theorem collection_convertMessage {reader : Reader} {package : String} {entries : List String}
    {message : Message} {record : SchemaMessage}
    (h : convertMessage reader package entries message = .ok record) :
    ∃ override, reader.collection? message.options = .ok override ∧
      record.collection = Names.collection message.nameText override := by
  obtain ⟨fields, -, h⟩ := bind_eq_ok.mp h
  obtain ⟨override, hoverride, h⟩ := bind_eq_ok.mp h
  cases h
  exact ⟨override, hoverride, rfl⟩

theorem collection_ne_empty_of_convertFile {reader : Reader} {file : File} {schema : SchemaFile}
    (h : convertFile reader file = .ok schema) :
    ∀ record ∈ schema.messages, record.collection ≠ "" := by
  intro record hrecord
  obtain ⟨-, hlength, hmessages⟩ := convertFile_ok h
  obtain ⟨index, hindex, rfl⟩ := List.getElem_of_mem hrecord
  have hdescribes := hmessages.get (hlength ▸ hindex) hindex
  obtain ⟨override, -, hcollection⟩ := collection_convertMessage hdescribes.converted
  intro hempty
  exact Names.collection_ne_empty _ override (hcollection.symm.trans hempty)

namespace Loader

/-- No message of the files is without a collection. -/
def HasCollections (files : OrderedMap SchemaFile) : Prop :=
  ∀ entry ∈ files.entries, ∀ record ∈ entry.2.messages, record.collection ≠ ""

theorem hasCollections_empty : HasCollections OrderedMap.empty := by
  simp [HasCollections, OrderedMap.empty]

theorem hasCollections_load {loader : Loader} (h : HasCollections loader.files) :
    HasCollections loader.load.2.files := by
  intro entry hentry
  obtain hold | ⟨reader, file, -, -, hconverted⟩ := mem_files_load hentry
  · exact h entry hold
  · exact collection_ne_empty_of_convertFile hconverted

theorem hasCollections_after {loader : Loader} (h : HasCollections loader.files)
    (operations : List Operation) : HasCollections (loader.after operations).files :=
  after_induction (HasCollections ·.files) h (fun _ => hasCollections_load) (fun _ _ hkept => hkept)
    operations

/-- What a load converts has its collections from the options of its messages, as read by the
options that the request declares, and no history ends with a message without a collection. -/
theorem load_collections {request : Request}
    (hstandard : latest? request.files Descriptor.Standard.fileName = none)
    (hstring : ∀ option ∈ collectionOptions request.files, option.field.type = some .string) :
    (∀ entry ∈ ({ request } : Loader).load.2.files.entries,
      ∃ reader file, Reader.ofFiles request.files = .ok reader ∧
        latest? request.files entry.1 = some file ∧
        List.Forall₂ (fun message record => HoldsTexts request.files (message.options.getD []) →
            reader.collection? message.options =
              .ok (namedCollection request.files (message.options.getD [])) ∧
            record.collection = collectionOf request.files message)
          file.messages entry.2.messages) ∧
    ∀ (reader : Option Reader) (operations : List Operation),
      HasCollections (({ request, reader } : Loader).after operations).files := by
  constructor
  · intro entry hentry
    obtain hold | ⟨reader, file, hreader, hfile, hconverted⟩ := mem_files_load hentry
    · cases hold
    have hbuilt : Reader.ofFiles request.files = .ok reader := hreader
    refine ⟨reader, file, hbuilt, hfile, (convertFile_ok hconverted).2.2.imp ?_⟩
    intro message record hdescribes htexts
    obtain ⟨override, hoverride, hcollection⟩ := collection_convertMessage hdescribes.converted
    obtain rfl := Options.collection?_eq_named hbuilt hstandard hstring htexts hoverride
    rw [hcollection, Names.collection_eq]
    exact ⟨hoverride, rfl⟩
  · intro reader operations
    exact hasCollections_after hasCollections_empty operations

def rulesRequest : Request := { files := [Options.rulesFile], targets := ["rules.proto"] }

/-- The schema of `rulesFile`. One message has no options, in one an empty text hides another
option, and in one the first option is there as a number only. -/
def rulesSchema : SchemaFile where
  name := "rules.proto"
  package := some "shop"
  dialect := "proto2"
  messages := [
    { name := "Scope", fullName := "shop.Scope", collection := "scopes", fields := [] },
    { name := "Item", fullName := "shop.Item", collection := "items", fields := [] },
    { name := "Crate", fullName := "shop.Crate", collection := "stock", fields := [] }]

theorem load_collections_rules :
    ("rules.proto", rulesSchema) ∈ ({ request := rulesRequest } : Loader).load.2.files.entries ∧
      Options.rulesFile.messages.map (collectionOf [Options.rulesFile]) =
        ["scopes", "items", "stock"] := by
  have hreader : ({ request := rulesRequest } : Loader).currentReader = .ok Options.rulesReader :=
    Options.ofFiles_rules
  have hconverted : rulesRequest.converted Options.rulesReader = .ok [rulesSchema] := by
    decide +kernel
  have hentry :
      ("rules.proto", rulesSchema) ∈ ({ request := rulesRequest } : Loader).load.2.files.entries := by
    rw [files_load (load_of_converted rfl hreader hconverted).1]
    exact List.mem_singleton.mpr rfl
  have hstring : ∀ option ∈ collectionOptions rulesRequest.files,
      option.field.type = some .string := by decide +kernel
  have htexts : ∀ message ∈ Options.rulesFile.messages,
      HoldsTexts [Options.rulesFile] (message.options.getD []) := by
    unfold HoldsTexts
    decide +kernel
  obtain ⟨reader, file, -, hfile, hmessages⟩ := (load_collections (by decide) hstring).1 _ hentry
  obtain rfl : Options.rulesFile = file := Option.some.inj hfile
  have hread := (List.forall₂_and_left _ _).mpr ⟨htexts, hmessages⟩
  have hcollections : rulesSchema.messages.map SchemaMessage.collection =
      Options.rulesFile.messages.map (collectionOf [Options.rulesFile]) :=
    map_eq_map_of_forall₂ (hread.imp fun _ _ hmessage => (hmessage.2 hmessage.1).2)
  exact ⟨hentry, hcollections.symm⟩

end Loader
end SchemaGen
