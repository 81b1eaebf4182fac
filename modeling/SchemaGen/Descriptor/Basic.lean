import SchemaGen.Wire.Schema

/-!
# Descriptors

Descriptors of files, messages, fields, enums and services, as a compiler hands them to a code
generator. A part that is absent differs from one that is present and empty. Options are kept as
records, and so is whatever else a descriptor holds that has no place here (`rest`).
-/

namespace SchemaGen.Descriptor

abbrev Options := Option (List Wire.Record)

def Options.flag (options : Options) (number : Nat) : Bool :=
  (Wire.Record.varints number (options.getD [])).getLast?.any (· != 0)

inductive FieldType where
  | double
  | float
  | int64
  | uint64
  | int32
  | fixed64
  | fixed32
  | bool
  | string
  | group
  | message
  | bytes
  | uint32
  | enum
  | sfixed32
  | sfixed64
  | sint32
  | sint64
  deriving Repr, DecidableEq

namespace FieldType

def all : List FieldType :=
  [double, float, int64, uint64, int32, fixed64, fixed32, bool, string, group, message, bytes,
    uint32, enum, sfixed32, sfixed64, sint32, sint64]

def code (type : FieldType) : Nat := all.idxOf type + 1

def ofCode? (code : Nat) : Option FieldType :=
  if code = 0 then none else all[code - 1]?

end FieldType

inductive Label where
  | optional
  | required
  | repeated
  deriving Repr, DecidableEq

namespace Label

def code : Label → Nat
  | optional => 1
  | required => 2
  | repeated => 3

def ofCode? : Nat → Option Label
  | 1 => some optional
  | 2 => some required
  | 3 => some repeated
  | _ => none

end Label

/-- A field or an extension. `defaultText` is the value of an unset field as text, `oneofIndex` the
place of its oneof among those of the message, and `isTracked` asks for an unset field to be told
apart from one that is zero. -/
structure Field where
  name : Option String := none
  extendee : Option String := none
  number : Option Int32 := none
  label : Option Label := none
  type : Option FieldType := none
  typeName : Option String := none
  defaultText : Option String := none
  options : Options := none
  oneofIndex : Option Int32 := none
  jsonName : Option String := none
  isTracked : Option Bool := none
  rest : List Wire.Record := []
  deriving Repr, Inhabited

namespace Field

def nameText (field : Field) : String := field.name.getD ""

def numberValue (field : Field) : Int32 := field.number.getD 0

def labelValue (field : Field) : Label := field.label.getD .optional

/-- The type of a field; one without a type is a double. -/
def typeValue (field : Field) : FieldType := field.type.getD .double

def typeNameText (field : Field) : String := field.typeName.getD ""

def extendeeText (field : Field) : String := field.extendee.getD ""

end Field

structure EnumValue where
  name : Option String := none
  number : Option Int32 := none
  options : Options := none
  rest : List Wire.Record := []
  deriving Repr, Inhabited

def EnumValue.nameText (value : EnumValue) : String := value.name.getD ""

def EnumValue.numberValue (value : EnumValue) : Int32 := value.number.getD 0

/-- Numbers that are not to be used. Whether `stop` is one of them depends on the place. -/
structure ReservedRange where
  start : Option Int32 := none
  stop : Option Int32 := none
  rest : List Wire.Record := []
  deriving Repr, Inhabited

structure Enum where
  name : Option String := none
  values : List EnumValue := []
  options : Options := none
  reserved : List ReservedRange := []
  rest : List Wire.Record := []
  deriving Repr, Inhabited

def Enum.nameText (enum : Enum) : String := enum.name.getD ""

structure ExtensionRange where
  start : Option Int32 := none
  stop : Option Int32 := none
  options : Options := none
  rest : List Wire.Record := []
  deriving Repr, Inhabited

structure Oneof where
  name : Option String := none
  options : Options := none
  rest : List Wire.Record := []
  deriving Repr, Inhabited

def Oneof.nameText (oneof : Oneof) : String := oneof.name.getD ""

structure Message where
  name : Option String := none
  fields : List Field := []
  extensions : List Field := []
  nested : List Message := []
  enums : List Enum := []
  ranges : List ExtensionRange := []
  oneofs : List Oneof := []
  options : Options := none
  reserved : List ReservedRange := []
  rest : List Wire.Record := []
  deriving Repr, Inhabited

namespace Message

def nameText (message : Message) : String := message.name.getD ""

def isMapEntry (message : Message) : Bool := message.options.flag 7

/-- Whether a message is written as a set of messages, each beside the number of its type. -/
def isMessageSet (message : Message) : Bool := message.options.flag 1

def allowsJsonClashes (message : Message) : Bool := message.options.flag 11

end Message

structure Method where
  name : Option String := none
  input : Option String := none
  output : Option String := none
  options : Options := none
  rest : List Wire.Record := []
  deriving Repr, Inhabited

def Method.nameText (method : Method) : String := method.name.getD ""

structure Service where
  name : Option String := none
  methods : List Method := []
  options : Options := none
  rest : List Wire.Record := []
  deriving Repr, Inhabited

def Service.nameText (service : Service) : String := service.name.getD ""

inductive Edition where
  | unknown
  | firstTest
  | secondTest
  | legacy
  | proto2
  | proto3
  | year2023
  | year2024
  | year2026
  | unstable
  | thirdLastTest
  | secondLastTest
  | lastTest
  | greatest
  deriving Repr, DecidableEq

namespace Edition

def all : List Edition :=
  [unknown, firstTest, secondTest, legacy, proto2, proto3, year2023, year2024, year2026, unstable,
    thirdLastTest, secondLastTest, lastTest, greatest]

def code : Edition → Nat
  | unknown => 0
  | firstTest => 1
  | secondTest => 2
  | legacy => 900
  | proto2 => 998
  | proto3 => 999
  | year2023 => 1000
  | year2024 => 1001
  | year2026 => 1002
  | unstable => 9999
  | thirdLastTest => 99997
  | secondLastTest => 99998
  | lastTest => 99999
  | greatest => 2147483647

def ofCode? (code : Nat) : Option Edition := all.find? (·.code == code)

end Edition

/-- A file. `dialect` is the name of the language version that the file declares. The public and the
weak ones among its dependencies are given by index. -/
structure File where
  name : Option String := none
  package : Option String := none
  dependencies : List String := []
  publicIndexes : List Int32 := []
  weakIndexes : List Int32 := []
  messages : List Message := []
  enums : List Enum := []
  services : List Service := []
  extensions : List Field := []
  options : Options := none
  dialect : Option String := none
  edition : Option Edition := none
  rest : List Wire.Record := []
  deriving Repr, Inhabited

namespace File

def nameText (file : File) : String := file.name.getD ""

def packageText (file : File) : String := file.package.getD ""

def dialectText (file : File) : String := file.dialect.getD ""

end File

structure Request where
  targets : List String := []
  parameter : Option String := none
  files : List File := []
  rest : List Wire.Record := []
  deriving Repr, Inhabited

def qualify (scope name : String) : String :=
  if scope = "" then name else scope ++ "." ++ name

end SchemaGen.Descriptor
