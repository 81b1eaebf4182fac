import SchemaGen.Names
import SchemaGen.Options.Reader

/-!
# Loading

Converts the requested files of a request into the schema model. A loader keeps the request, which
may change between calls, the reader once it has been built, and the converted files. After a
first success the files no longer change; a load that fails may leave some behind.
-/

namespace SchemaGen

open Options (Reader)

-- ---------------------------------------------------------------------------
-- Conversion
-- ---------------------------------------------------------------------------

def joinNames (parts : List String) : String :=
  ".".intercalate (parts.filter (· != ""))

def mapEntries (file : Descriptor.File) : List String :=
  (file.innerMessages.filter (·.message.isMapEntry)).map fun located =>
    joinNames (file.packageText :: located.path)

/-- The kind of a field. Groups are messages. -/
def kindOf (field : Descriptor.Field) : FieldKind :=
  match field.typeValue with
  | .message => .message (Names.stripDot field.typeNameText)
  | .group => .message (Names.stripDot field.typeNameText)
  | .enum => .enum (Names.stripDot field.typeNameText)
  | type => .scalar type.code

def FieldKind.isEntryOf (kind : FieldKind) (entries : List String) : Bool :=
  match kind with
  | .message typeName => entries.contains typeName
  | _ => false

/-- A field in the schema model. A map is repeated on the wire but is no list. -/
def convertField (reader : Reader) (entries : List String) (field : Descriptor.Field) :
    Except Failure SchemaField := do
  let kind := kindOf field
  let flags ← reader.fieldFlags field.options
  return {
    name := field.nameText
    number := field.numberValue.toInt
    kind
    repeated := field.labelValue == .repeated && !kind.isEntryOf entries
    flags }

def convertMessage (reader : Reader) (package : String) (entries : List String)
    (message : Descriptor.Message) : Except Failure SchemaMessage := do
  let fields ← message.fields.mapM (convertField reader entries)
  let override ← reader.collection? message.options
  return {
    name := message.nameText
    fullName := joinNames [package, message.nameText]
    collection := Names.collection message.nameText override
    fields }

def convertFile (reader : Reader) (file : Descriptor.File) : Except Failure SchemaFile := do
  let entries := mapEntries file
  let messages ← file.messages.mapM (convertMessage reader file.packageText entries)
  return {
    name := file.nameText
    package := if file.packageText = "" then none else some file.packageText
    dialect := if file.dialectText = "" then "proto2" else file.dialectText
    messages }

-- ---------------------------------------------------------------------------
-- Requested files
-- ---------------------------------------------------------------------------

namespace Descriptor.Request

/-- The names of the files to generate from: those asked for, or else all files. -/
def requested (request : Request) : List String :=
  match request.targets with
  | [] => request.files.map File.nameText
  | names => names

def missing (request : Request) : List String :=
  let known := Options.Reader.byName request.files
  (request.requested.filter (!known.contains ·)).mergeSort (fun a b => !decide (b < a))

end Descriptor.Request

-- ---------------------------------------------------------------------------
-- The loader
-- ---------------------------------------------------------------------------

structure Loader where
  request : Descriptor.Request
  reader : Option Reader := none
  files : OrderedMap SchemaFile := OrderedMap.empty
  isLoaded : Bool := false

namespace Loader

/-- Converts the named files one after the other and puts them into a map; stops at the first
failure with what has been converted so far. -/
def convertAll (reader : Reader) (known : OrderedMap Descriptor.File) :
    List String → OrderedMap SchemaFile → Option Failure × OrderedMap SchemaFile
  | [], converted => (none, converted)
  | name :: more, converted =>
    match known.get? name with
    | none => (some (.notLoaded name), converted)
    | some file =>
      match convertFile reader file with
      | .error failure => (some failure, converted)
      | .ok schemaFile => convertAll reader known more (converted.insert name schemaFile)

def currentReader (loader : Loader) : Except Failure Reader :=
  match loader.reader with
  | some reader => .ok reader
  | none => Reader.ofFiles loader.request.files

/-- Converts the requested files unless that has been done. -/
def load (loader : Loader) : Except Failure (OrderedMap SchemaFile) × Loader :=
  if loader.isLoaded then (.ok loader.files, loader)
  else
    match loader.currentReader with
    | .error failure => (.error failure, loader)
    | .ok reader =>
      let ready := { loader with reader := some reader }
      match loader.request.missing with
      | [] =>
        match convertAll reader (Reader.byName loader.request.files) loader.request.requested
            loader.files with
        | (some failure, files) => (.error failure, { ready with files })
        | (none, files) => (.ok files, { ready with files, isLoaded := true })
      | names => (.error (.missingFiles names), ready)

def getFile (loader : Loader) (name : String) : Except Failure SchemaFile × Loader :=
  match loader.load with
  | (.error failure, after) => (.error failure, after)
  | (.ok files, after) =>
    match files.get? name with
    | some file => (.ok file, after)
    | none => (.error (.notLoaded name), after)

def getFiles : List String → Loader → Except Failure (List SchemaFile) × Loader
  | [], loader => (.ok [], loader)
  | name :: more, loader =>
    match loader.getFile name with
    | (.error failure, after) => (.error failure, after)
    | (.ok file, after) =>
      match getFiles more after with
      | (.error failure, last) => (.error failure, last)
      | (.ok files, last) => (.ok (file :: files), last)

def requestedFiles (loader : Loader) : Except Failure (List SchemaFile) × Loader :=
  getFiles loader.request.requested loader

def eligible (loader : Loader) : Except Failure (List (SchemaFile × SchemaMessage)) × Loader :=
  match loader.requestedFiles with
  | (.error failure, after) => (.error failure, after)
  | (.ok files, after) => (.ok (SchemaFile.eligible files), after)

-- ---------------------------------------------------------------------------
-- Changes of the request
-- ---------------------------------------------------------------------------

inductive Change where
  | addTarget (name : String)
  | clearTargets
  | addFile (file : Descriptor.File)
  | clearFiles

def Change.apply (request : Descriptor.Request) : Change → Descriptor.Request
  | addTarget name => { request with targets := request.targets ++ [name] }
  | clearTargets => { request with targets := [] }
  | addFile file => { request with files := request.files ++ [file] }
  | clearFiles => { request with files := [] }

def change (loader : Loader) (change : Change) : Loader :=
  { loader with request := change.apply loader.request }

end Loader

end SchemaGen
