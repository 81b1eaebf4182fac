import SchemaGen.Descriptor.Basic

/-!
# Descriptors on the wire

Descriptors from records and back. A part that may occur once is read from its last record, options
from all of theirs together. Records that no part of a descriptor takes go to its `rest`.
-/

namespace SchemaGen.Descriptor

open Wire (Record Bytes)

-- ---------------------------------------------------------------------------
-- Reading parts
-- ---------------------------------------------------------------------------

/-- The last text under a number. Here and in `allTexts`, what is not UTF-8 is taken for the empty
text; `lastIsText` and `areTexts` tell it apart. -/
def lastText? (number : Nat) (records : List Record) : Option String :=
  (Record.contents number records).getLast?.map fun content => (Wire.text? content).getD ""

def allTexts (number : Nat) (records : List Record) : List String :=
  (Record.contents number records).map fun content => (Wire.text? content).getD ""

def lastIsText (number : Nat) (records : List Record) : Bool :=
  (Record.contents number records).getLast?.all Wire.isText

def areTexts (number : Nat) (records : List Record) : Bool :=
  (Record.contents number records).all Wire.isText

def lastNumber? (number : Nat) (records : List Record) : Option Int32 :=
  (Record.varints number records).getLast?.map (·.toUInt32.toInt32)

def lastFlag? (number : Nat) (records : List Record) : Option Bool :=
  (Record.varints number records).getLast?.map (· != 0)

/-- The numbers under a number, one by one or packed together. -/
def allNumbers (number : Nat) (records : List Record) : List Int32 :=
  (records.filter (·.number == number)).flatMap fun
    | .varint _ value => [value.toUInt32.toInt32]
    | .bytes _ content =>
      ((Wire.readVarints content.length content).getD []).map (·.toUInt32.toInt32)
    | _ => []

/-- The last of the values under a number that a closed enum lists. -/
def lastCode? {α : Type} (ofCode? : Nat → Option α) (number : Nat) (records : List Record) :
    Option α :=
  ((Record.varints number records).filterMap fun value => ofCode? value.toUInt32.toNat).getLast?

def children (depth number : Nat) (records : List Record) : List (List Record) :=
  (Record.contents number records).map fun content => (Record.readAll depth content).getD []

/-- The one message that all the messages under a number make together. -/
def merged? (depth number : Nat) (records : List Record) : Option (List Record) :=
  match children depth number records with
  | [] => none
  | parts => some parts.flatten

def others (taken : List (Nat × Wire.Shape)) (records : List Record) : List Record :=
  records.filter fun record => !taken.contains (record.number, record.shape)

-- ---------------------------------------------------------------------------
-- Writing parts
-- ---------------------------------------------------------------------------

def textRecord (number : Nat) (text : String) : Record := .bytes number text.toUTF8.data.toList

def textRecord? (number : Nat) (text : Option String) : List Record :=
  text.toList.map (textRecord number)

/-- A negative number is written with the sign extended to 64 bits. -/
def numberRecord? (number : Nat) (value : Option Int32) : List Record :=
  value.toList.map fun n => .varint number n.toInt64.toUInt64

def flagRecord? (number : Nat) (value : Option Bool) : List Record :=
  value.toList.map fun flag => .varint number (if flag then 1 else 0)

def codeRecord? (number : Nat) (code : Option Nat) : List Record :=
  code.toList.map fun n => .varint number (UInt64.ofNat n)

def messageRecord (number : Nat) (members : List Record) : Record :=
  .bytes number (Record.encodeAll members)

def optionsRecord? (number : Nat) (options : Options) : List Record :=
  options.toList.map (messageRecord number)

namespace Field

def hasUnlistedCode : Record → Bool
  | .varint 4 value => (Label.ofCode? value.toUInt32.toNat).isNone
  | .varint 5 value => (FieldType.ofCode? value.toUInt32.toNat).isNone
  | _ => false

def taken : List (Nat × Wire.Shape) :=
  [(1, .bytes), (2, .bytes), (3, .varint), (4, .varint), (5, .varint), (6, .bytes), (7, .bytes),
    (8, .bytes), (9, .varint), (10, .bytes), (17, .varint)]

def ofRecords (depth : Nat) (records : List Record) : Field where
  name := lastText? 1 records
  extendee := lastText? 2 records
  number := lastNumber? 3 records
  label := lastCode? Label.ofCode? 4 records
  type := lastCode? FieldType.ofCode? 5 records
  typeName := lastText? 6 records
  defaultText := lastText? 7 records
  options := merged? depth 8 records
  oneofIndex := lastNumber? 9 records
  jsonName := lastText? 10 records
  isTracked := lastFlag? 17 records
  rest := records.filter fun record =>
    !taken.contains (record.number, record.shape) || hasUnlistedCode record

def toRecords (field : Field) : List Record :=
  textRecord? 1 field.name ++ textRecord? 2 field.extendee ++ numberRecord? 3 field.number ++
    codeRecord? 4 (field.label.map Label.code) ++ codeRecord? 5 (field.type.map FieldType.code) ++
    textRecord? 6 field.typeName ++ textRecord? 7 field.defaultText ++
    optionsRecord? 8 field.options ++ numberRecord? 9 field.oneofIndex ++
    textRecord? 10 field.jsonName ++ flagRecord? 17 field.isTracked ++ field.rest

end Field

namespace EnumValue

def taken : List (Nat × Wire.Shape) := [(1, .bytes), (2, .varint), (3, .bytes)]

def ofRecords (depth : Nat) (records : List Record) : EnumValue where
  name := lastText? 1 records
  number := lastNumber? 2 records
  options := merged? depth 3 records
  rest := others taken records

def toRecords (value : EnumValue) : List Record :=
  textRecord? 1 value.name ++ numberRecord? 2 value.number ++ optionsRecord? 3 value.options ++
    value.rest

end EnumValue

namespace ReservedRange

def taken : List (Nat × Wire.Shape) := [(1, .varint), (2, .varint)]

def ofRecords (records : List Record) : ReservedRange where
  start := lastNumber? 1 records
  stop := lastNumber? 2 records
  rest := others taken records

def toRecords (range : ReservedRange) : List Record :=
  numberRecord? 1 range.start ++ numberRecord? 2 range.stop ++ range.rest

end ReservedRange

namespace Enum

def taken : List (Nat × Wire.Shape) := [(1, .bytes), (2, .bytes), (3, .bytes), (4, .bytes)]

def ofRecords (depth : Nat) (records : List Record) : Enum where
  name := lastText? 1 records
  values := (children depth 2 records).map (EnumValue.ofRecords depth)
  options := merged? depth 3 records
  reserved := (children depth 4 records).map ReservedRange.ofRecords
  rest := others taken records

def toRecords (enum : Enum) : List Record :=
  textRecord? 1 enum.name ++ enum.values.map (fun value => messageRecord 2 value.toRecords) ++
    optionsRecord? 3 enum.options ++
    enum.reserved.map (fun range => messageRecord 4 range.toRecords) ++ enum.rest

end Enum

namespace ExtensionRange

def taken : List (Nat × Wire.Shape) := [(1, .varint), (2, .varint), (3, .bytes)]

def ofRecords (depth : Nat) (records : List Record) : ExtensionRange where
  start := lastNumber? 1 records
  stop := lastNumber? 2 records
  options := merged? depth 3 records
  rest := others taken records

def toRecords (range : ExtensionRange) : List Record :=
  numberRecord? 1 range.start ++ numberRecord? 2 range.stop ++ optionsRecord? 3 range.options ++
    range.rest

end ExtensionRange

namespace Oneof

def taken : List (Nat × Wire.Shape) := [(1, .bytes), (2, .bytes)]

def ofRecords (depth : Nat) (records : List Record) : Oneof where
  name := lastText? 1 records
  options := merged? depth 2 records
  rest := others taken records

def toRecords (oneof : Oneof) : List Record :=
  textRecord? 1 oneof.name ++ optionsRecord? 2 oneof.options ++ oneof.rest

end Oneof

namespace Message

def taken : List (Nat × Wire.Shape) :=
  [(1, .bytes), (2, .bytes), (3, .bytes), (4, .bytes), (5, .bytes), (6, .bytes), (7, .bytes),
    (8, .bytes), (9, .bytes)]

def ofRecords : (depth : Nat) → List Record → Message
  | 0, records => { name := lastText? 1 records, rest := others [(1, .bytes)] records }
  | depth + 1, records =>
    { name := lastText? 1 records
      fields := (children depth 2 records).map (Field.ofRecords depth)
      nested := (children depth 3 records).map (ofRecords depth)
      enums := (children depth 4 records).map (Enum.ofRecords depth)
      ranges := (children depth 5 records).map (ExtensionRange.ofRecords depth)
      extensions := (children depth 6 records).map (Field.ofRecords depth)
      options := merged? depth 7 records
      oneofs := (children depth 8 records).map (Oneof.ofRecords depth)
      reserved := (children depth 9 records).map ReservedRange.ofRecords
      rest := others taken records }

mutual
def toRecords : Message → List Record
  | ⟨name, fields, extensions, nested, enums, ranges, oneofs, options, reserved, rest⟩ =>
    textRecord? 1 name ++ fields.map (fun field => messageRecord 2 field.toRecords) ++
      nestedRecords nested ++ enums.map (fun enum => messageRecord 4 enum.toRecords) ++
      ranges.map (fun range => messageRecord 5 range.toRecords) ++
      extensions.map (fun field => messageRecord 6 field.toRecords) ++
      optionsRecord? 7 options ++ oneofs.map (fun oneof => messageRecord 8 oneof.toRecords) ++
      reserved.map (fun range => messageRecord 9 range.toRecords) ++ rest
def nestedRecords : List Message → List Record
  | [] => []
  | message :: more => messageRecord 3 message.toRecords :: nestedRecords more
end

end Message

namespace Method

def taken : List (Nat × Wire.Shape) := [(1, .bytes), (2, .bytes), (3, .bytes), (4, .bytes)]

def ofRecords (depth : Nat) (records : List Record) : Method where
  name := lastText? 1 records
  input := lastText? 2 records
  output := lastText? 3 records
  options := merged? depth 4 records
  rest := others taken records

def toRecords (method : Method) : List Record :=
  textRecord? 1 method.name ++ textRecord? 2 method.input ++ textRecord? 3 method.output ++
    optionsRecord? 4 method.options ++ method.rest

end Method

namespace Service

def taken : List (Nat × Wire.Shape) := [(1, .bytes), (2, .bytes), (3, .bytes)]

def ofRecords (depth : Nat) (records : List Record) : Service where
  name := lastText? 1 records
  methods := (children depth 2 records).map (Method.ofRecords depth)
  options := merged? depth 3 records
  rest := others taken records

def toRecords (service : Service) : List Record :=
  textRecord? 1 service.name ++
    service.methods.map (fun method => messageRecord 2 method.toRecords) ++
    optionsRecord? 3 service.options ++ service.rest

end Service

namespace File

def taken : List (Nat × Wire.Shape) :=
  [(1, .bytes), (2, .bytes), (3, .bytes), (4, .bytes), (5, .bytes), (6, .bytes), (7, .bytes),
    (8, .bytes), (10, .varint), (10, .bytes), (11, .varint), (11, .bytes), (12, .bytes),
    (14, .varint)]

def hasUnlistedEdition : Record → Bool
  | .varint 14 value => (Edition.ofCode? value.toUInt32.toNat).isNone
  | _ => false

def ofRecords (depth : Nat) (records : List Record) : File where
  name := lastText? 1 records
  package := lastText? 2 records
  dependencies := allTexts 3 records
  publicIndexes := allNumbers 10 records
  weakIndexes := allNumbers 11 records
  messages := (children (depth - 1) 4 records).map (Message.ofRecords (depth - 1))
  enums := (children (depth - 1) 5 records).map (Enum.ofRecords (depth - 1))
  services := (children (depth - 1) 6 records).map (Service.ofRecords (depth - 1))
  extensions := (children (depth - 1) 7 records).map (Field.ofRecords (depth - 1))
  options := merged? (depth - 1) 8 records
  dialect := lastText? 12 records
  edition := lastCode? Edition.ofCode? 14 records
  rest := records.filter fun record =>
    !taken.contains (record.number, record.shape) || hasUnlistedEdition record

def toRecords (file : File) : List Record :=
  textRecord? 1 file.name ++ textRecord? 2 file.package ++
    file.dependencies.map (textRecord 3) ++
    file.publicIndexes.flatMap (fun index => numberRecord? 10 (some index)) ++
    file.weakIndexes.flatMap (fun index => numberRecord? 11 (some index)) ++
    file.messages.map (fun message => messageRecord 4 message.toRecords) ++
    file.enums.map (fun enum => messageRecord 5 enum.toRecords) ++
    file.services.map (fun service => messageRecord 6 service.toRecords) ++
    file.extensions.map (fun field => messageRecord 7 field.toRecords) ++
    optionsRecord? 8 file.options ++ textRecord? 12 file.dialect ++
    codeRecord? 14 (file.edition.map Edition.code) ++ file.rest

end File

namespace Request

def taken : List (Nat × Wire.Shape) := [(1, .bytes), (2, .bytes), (15, .bytes)]

def ofRecords (depth : Nat) (records : List Record) : Request where
  targets := allTexts 1 records
  parameter := lastText? 2 records
  files := (children (depth - 1) 15 records).map (File.ofRecords (depth - 1))
  rest := others taken records

def toRecords (request : Request) : List Record :=
  request.targets.map (textRecord 1) ++ textRecord? 2 request.parameter ++
    request.files.map (fun file => messageRecord 15 file.toRecords) ++ request.rest

def encode (request : Request) : Bytes := Record.encodeAll request.toRecords

end Request

end SchemaGen.Descriptor
