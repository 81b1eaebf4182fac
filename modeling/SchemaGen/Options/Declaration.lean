import SchemaGen.Descriptor.Standard
import SchemaGen.Names

/-!
# Option declarations

The extensions of field and message options that carry a schema's constraints and collection names.
They are known by name and by the message they extend, wherever in a file they are declared.
-/

namespace SchemaGen.Options

inductive Flag where
  | unique
  | required
  | index
  deriving Repr, DecidableEq

inductive Role where
  | flag (flag : Flag)
  | collection
  deriving Repr, DecidableEq

namespace Role

def name : Role → String
  | flag .unique => "unique"
  | flag .required => "required"
  | flag .index => "index"
  | collection => "collection"

def mark : String := "mongoose_"

def extendee : Role → String
  | flag _ => Descriptor.Standard.fieldOptions
  | collection => Descriptor.Standard.messageOptions

def all : List Role := [flag .unique, flag .required, flag .index, collection]

def of? (extended name : String) : Option Role :=
  all.find? fun role => role.extendee == extended && mark ++ role.name == name

end Role

structure Declaration where
  fileName : String
  fullName : String
  role : Role
  deriving Repr, DecidableEq

namespace Declaration

def ofExtension? (fileName scope : String) (field : Descriptor.Field) : Option Declaration :=
  (Role.of? (Names.stripDot field.extendeeText) field.nameText).map fun role =>
    ⟨fileName, Descriptor.qualify scope field.nameText, role⟩

/-- The declarations of a file: those outside messages, then those inside by level. -/
def ofFile (file : Descriptor.File) : List Declaration :=
  file.scopedExtensions.filterMap fun (scope, field) => ofExtension? file.nameText scope field

def ofFiles (files : List Descriptor.File) : List Declaration := files.flatMap ofFile

end Declaration

end SchemaGen.Options
