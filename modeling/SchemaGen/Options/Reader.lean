import SchemaGen.SchemaFile
import SchemaGen.Options.Closure
import SchemaGen.Options.Declaration
import SchemaGen.Wire.Value

/-!
# Option values

Reads constraints and collection names from the options of fields and messages, by the declarations
found among a request's files.
-/

namespace SchemaGen.Options

open Descriptor (Extension File Pool)
open Wire (Record)

/-- The declarations in order, the schema that options are read by, and the extensions of the two
kinds, in the order of their declarations. -/
structure Reader where
  declarations : List Declaration
  schema : Wire.Schema
  flags : List (Flag × Extension)
  collections : List Extension
  deriving Repr, DecidableEq

def Flag.set : Flag → Flags → Flags
  | .unique, flags => { flags with unique := true }
  | .required, flags => { flags with required := true }
  | .index, flags => { flags with indexed := true }

namespace Reader

/-- Files by name: the last of a name counts, in the first one's place. -/
def byName (files : List File) : OrderedMap File :=
  OrderedMap.ofList (files.map fun file => (file.nameText, file))

def extensionOf (pool : Pool) (declaration : Declaration) : Except Failure Extension :=
  match pool.extension? declaration.fullName with
  | some extension => .ok extension
  | none => .error (.missingType declaration.fullName)

/-- The pool has to know the two option messages, and neither may stand inside another one. -/
def requireType (pool : Pool) (name : String) : Except Failure Unit :=
  if pool.outermost.contains name then .ok () else .error (.missingType name)

def ofPool (pool : Pool) (declarations : List Declaration) : Except Failure Reader := do
  requireType pool Descriptor.Standard.fieldOptions
  requireType pool Descriptor.Standard.messageOptions
  let extensions ← declarations.mapM fun declaration => do
    return (declaration.role, ← extensionOf pool declaration)
  return {
    declarations
    schema := pool.schema
    flags := extensions.filterMap fun
      | (.flag flag, extension) => some (flag, extension)
      | (.collection, _) => none
    collections := extensions.filterMap fun
      | (.flag _, _) => none
      | (.collection, extension) => some extension }

/-- The reader of a request's files. Without declarations nothing is loaded. -/
def ofFiles (files : List File) : Except Failure Reader := do
  let known := byName files
  match Declaration.ofFiles known.values with
  | [] => return ⟨[], { types := [] }, [], []⟩
  | declarations =>
    let pool ← Closure.load known (declarations.map Declaration.fileName)
    ofPool pool declarations

/-- Options written out by the standard schema and read again by the declarations. -/
def reread (reader : Reader) (type : String) (options : List Record) :
    Except Failure (List Record) :=
  let depth := Wire.Schema.maxDepth
  if Descriptor.Standard.schema.complete Wire.Schema.maxWrittenDepth type options then
    let written := Descriptor.Standard.schema.normal depth type options
    if reader.schema.readable depth type written then
      .ok (reader.schema.elements type written)
    else .error .undecodableOptions
  else .error .incomplete

/-- The value of an option, which has to extend the message type of the options and must not be
repeated. -/
def value? (type : String) (extension : Extension) (options : List Record) :
    Except Failure (Option Wire.Value) :=
  if extension.extendee ≠ type then .error (.mismatchedOption type extension.name)
  else if extension.field.isRepeated then .error .repeatedOption
  else .ok (extension.field.value? options)

def setFlags (options : List Record) : List (Flag × Extension) → Flags → Except Failure Flags
  | [], flags => .ok flags
  | (flag, extension) :: more, flags => do
    let value ← value? Descriptor.Standard.fieldOptions extension options
    setFlags options more (if value.any Wire.Value.isOn then flag.set flags else flags)

def fieldFlags (reader : Reader) (options : Option (List Record)) : Except Failure Flags :=
  match reader.flags, options with
  | [], _ => .ok {}
  | _, none => .ok {}
  | flags, some records => do
    let written ← reader.reread Descriptor.Standard.fieldOptions records
    setFlags written flags {}

def firstValue (options : List Record) : List Extension → Except Failure (Option String)
  | [] => .ok none
  | extension :: more => do
    match ← value? Descriptor.Standard.messageOptions extension options with
    | some value => .ok (some value.shown)
    | none => firstValue options more

/-- The collection that a message's options name: the first declared option that is set. -/
def collection? (reader : Reader) (options : Option (List Record)) :
    Except Failure (Option String) :=
  match reader.collections, options with
  | [], _ => .ok none
  | _, none => .ok none
  | extensions, some records => do
    let written ← reader.reread Descriptor.Standard.messageOptions records
    firstValue written extensions

end Reader

end SchemaGen.Options
